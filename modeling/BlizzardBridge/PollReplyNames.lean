import BlizzardBridge.DeviceName

/-! The two name fields of the reply to ArtPoll. -/
namespace BlizzardBridge
open CArray

-- Offset and size of `_short_name` and `_long_name` in `ArtnetPollReplyPacket`.
def REPLY_SHORT_NAME : ℕ := 26
def SHORT_NAME_SIZE : ℕ := 18
def REPLY_LONG_NAME : ℕ := 44
def LONG_NAME_SIZE : ℕ := 64

namespace Board
variable (b : Board)

def replyField (off size : ℕ) : List UInt8 :=
  take (fun i => b.createPacketArtnetPollReply.artnet.pollReply (off + i)) size

/-- The name as an array of 64 bytes holds it. -/
def nameBytes : List UInt8 := cstr b.ram.deviceName NAME_MAX_LENGTH

/-- A string cut so that its field ends with a NUL, and NULs up to the end. -/
def fieldOf (name : List UInt8) (size : ℕ) : List UInt8 :=
  name.take (size - 1) ++ List.replicate (size - min (size - 1) name.length) 0

structure NamesShown : Prop where
  short : b.replyField REPLY_SHORT_NAME SHORT_NAME_SIZE = fieldOf b.nameBytes SHORT_NAME_SIZE
  long : b.replyField REPLY_LONG_NAME LONG_NAME_SIZE = fieldOf b.nameBytes LONG_NAME_SIZE

theorem copyName_apply (name : Bytes) (n i : ℕ) :
    copyName name n i = if i < strnlen name n then name i else 0 := copyTest_zero_apply name n _ i

section fields
variable (packet : Bytes) (s : Settings)

/-- Only the stores of the fields themselves reach the names. -/
theorem pollReplyFields_short {i : ℕ} (hi : i < 17) :
    pollReplyFields packet s (REPLY_SHORT_NAME + i) = copyName s.deviceName SHORT_NAME_SIZE i := by
  have hfield (a : Bytes) : store a 26 (take (copyName s.deviceName 18) 18) (26 + i) =
      copyName s.deviceName 18 i := store_take a _ 26 (Nat.lt_trans hi (by decide))
  unfold pollReplyFields REPLY_SHORT_NAME
  simp (disch := omega) only [store_before]
  exact hfield _

/-- The multi-character constant leaves the character '0' where the NUL should be. -/
theorem pollReplyFields_last : pollReplyFields packet s (REPLY_SHORT_NAME + 17) = 0x30 := rfl

theorem pollReplyFields_long {i : ℕ} (hi : i < 63) :
    pollReplyFields packet s (REPLY_LONG_NAME + i) = copyName s.deviceName LONG_NAME_SIZE i := by
  have hfield (a : Bytes) : store a 44 (take (copyName s.deviceName 64) 64) (44 + i) =
      copyName s.deviceName 64 i := store_take a _ 44 (Nat.lt_trans hi (by decide))
  unfold pollReplyFields REPLY_LONG_NAME
  simp (disch := omega) only [store_before]
  exact hfield _

theorem pollReplyFields_end : pollReplyFields packet s (REPLY_LONG_NAME + 63) = 0 := rfl

end fields

/-- A field whose bytes but the last are those of the cleared and copied name is right
exactly when it ends with a NUL. -/
theorem take_eq_fieldOf_iff {f src : Bytes} {n : ℕ} (hn : n < NAME_MAX_LENGTH)
    (hf : ∀ i < n, f i = copyName src (n + 1) i) :
    take f (n + 1) = fieldOf (cstr src NAME_MAX_LENGTH) (n + 1) ↔ f n = 0 := by
  have hlen : (cstr src NAME_MAX_LENGTH).length = strnlen src NAME_MAX_LENGTH := length_take src _
  have hcut : strnlen src (n + 1) = min (n + 1) (strnlen src NAME_MAX_LENGTH) := strnlen_min src hn
  have hlength : (fieldOf (cstr src NAME_MAX_LENGTH) (n + 1)).length = n + 1 := by
    rw [fieldOf, List.length_append, List.length_take, List.length_replicate]
    omega
  have hlast : (fieldOf (cstr src NAME_MAX_LENGTH) (n + 1))[n]? = some 0 := by
    rw [fieldOf, List.getElem?_append_right, List.getElem?_replicate, if_pos]
    · rw [List.length_take]
      omega
    · rw [List.length_take]
      omega
  constructor
  · intro h
    have hget := congrArg (fun xs => xs[n]?) h
    simp only [getElem?_take f (Nat.lt_succ_self n), hlast] at hget
    exact Option.some.inj hget
  · intro hend
    apply List.ext_getElem?
    intro i
    rcases Nat.lt_trichotomy i n with hi | rfl | hi
    · rw [getElem?_take f (Nat.lt_succ_of_lt hi), hf i hi, copyName_apply, hcut, fieldOf]
      by_cases hname : i < strnlen src NAME_MAX_LENGTH
      · rw [if_pos (by omega), List.getElem?_append_left, List.getElem?_take_of_lt, cstr,
          getElem?_take src hname]
        · omega
        · rw [List.length_take]
          omega
      · rw [if_neg (by omega), List.getElem?_append_right, List.getElem?_replicate, if_pos]
        · rw [List.length_take]
          omega
        · rw [List.length_take]
          omega
    · rw [getElem?_take f (Nat.lt_succ_self i), hend, hlast]
    · rw [List.getElem?_eq_none (by rw [length_take]; omega),
        List.getElem?_eq_none (by rw [hlength]; omega)]

theorem replyField_short_iff :
    b.replyField REPLY_SHORT_NAME SHORT_NAME_SIZE = fieldOf b.nameBytes SHORT_NAME_SIZE ↔
      b.createPacketArtnetPollReply.artnet.pollReply (REPLY_SHORT_NAME + 17) = 0 := by
  obtain ⟨packet, hpacket⟩ := pollReply_eq b
  apply take_eq_fieldOf_iff (n := 17) (by decide)
  intro i hi
  rw [hpacket, pollReplyFields_short packet _ hi, (getIP_iterate_name b 4).1]
  rfl

/-- The long name is right for every name. -/
theorem replyField_long :
    b.replyField REPLY_LONG_NAME LONG_NAME_SIZE = fieldOf b.nameBytes LONG_NAME_SIZE := by
  obtain ⟨packet, hpacket⟩ := pollReply_eq b
  apply (take_eq_fieldOf_iff (n := 63) (by decide) _).mpr
  · rw [hpacket, pollReplyFields_end]
  · intro i hi
    rw [hpacket, pollReplyFields_long packet _ hi, (getIP_iterate_name b 4).1]
    rfl

theorem replyField_short_last :
    b.createPacketArtnetPollReply.artnet.pollReply (REPLY_SHORT_NAME + 17) = 0x30 := by
  obtain ⟨packet, hpacket⟩ := pollReply_eq b
  rw [hpacket, pollReplyFields_last]

/-- The short name is right for none: it ends with a '0'. -/
theorem names_never_shown : ¬ b.NamesShown := by
  intro h
  have hlast := (replyField_short_iff b).mp h.short
  rw [replyField_short_last] at hlast
  exact absurd hlast (by decide)

/-- The reply of a node named 'Node' has the short name 'Node' with a '0' in its last byte. -/
theorem names_wrong_node : let b := { reset (storage fun _ => none) station with
      ram := { (reset (storage fun _ => none) station).ram with
        deviceName := store (fun _ => 0) 0 (ascii ['N', 'o', 'd', 'e']) } }
    ¬ b.NamesShown ∧ b.replyField REPLY_SHORT_NAME SHORT_NAME_SIZE =
      ascii ['N', 'o', 'd', 'e'] ++ List.replicate 13 0 ++ [0x30] := by
  intro b
  have hbytes : b.replyField REPLY_SHORT_NAME SHORT_NAME_SIZE =
      ascii ['N', 'o', 'd', 'e'] ++ List.replicate 13 0 ++ [0x30] := by
    decide
  refine ⟨fun h => ?_, hbytes⟩
  have hshort := h.short
  rw [hbytes] at hshort
  exact absurd hshort (by decide)

end Board

end BlizzardBridge
