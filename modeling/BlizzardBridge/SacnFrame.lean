import BlizzardBridge.ArtnetLink
import BlizzardBridge.Sacn

/-! The lengths in an sACN datagram. They are computed when the packet is created, the
datagram has the size of a full universe, and the slots in use can change in between. -/
namespace BlizzardBridge
open CArray Program EventMachine

/-- The number that two bytes spell, high-order byte first. -/
def wordAt (bytes : List UInt8) (i : ℕ) : ℕ :=
  256 * (bytes.getD i 0).toNat + (bytes.getD (i + 1) 0).toNat

/-- A flags-and-length field: the flags are 7, and the length reaches to the end. -/
def Framed (bytes : List UInt8) (i : ℕ) : Prop :=
  wordAt bytes i / 4096 = 7 ∧ i + wordAt bytes i % 4096 = bytes.length

/-- An E1.31 data packet for `slots` slots, in the layout of `sACNDataPacket`. -/
structure ConsistentFrame (bytes : List UInt8) (slots : ℕ) (dmx : Bytes) (u : UInt16) : Prop where
  root : Framed bytes 16
  framing : Framed bytes 38
  dmp : Framed bytes 115
  count : wordAt bytes 123 = slots + 1
  length : bytes.length = 125 + (slots + 1)
  data : bytes.drop 125 = take dmx (slots + 1)
  universeField : wordAt bytes 113 = u.toNat

def wordIn (a : Bytes) (i : ℕ) : ℕ := 256 * (a i).toNat + (a (i + 1)).toNat

theorem wordAt_take (a : Bytes) {i n : ℕ} (h : i + 1 < n) : wordAt (take a n) i = wordIn a i := by
  rw [wordAt, List.getD_eq_getElem?_getD, List.getD_eq_getElem?_getD, getElem?_take a h,
    getElem?_take a (Nat.lt_of_succ_lt h)]
  rfl

theorem drop_take (a : Bytes) (k n : ℕ) : (take a n).drop k = take (fun i => a (k + i)) (n - k) := by
  apply List.ext_getElem
  · simp
  · intro i hi _
    simp [take]

theorem highLow_toNat (v : UInt16) :
    256 * (v >>> 8).toUInt8.toNat + (v &&& 0xFF).toUInt8.toNat = v.toNat := by
  rw [highByte_toNat, lowByte_toNat]
  exact Nat.div_add_mod _ _

/-- The lengths in the packet are those of `n` slots. -/
structure MadeFor (n : UInt16) (packet : Bytes) : Prop where
  root : wordIn packet 16 = (n + 110 + 0x7000).toNat
  framing : wordIn packet 38 = (n + 88 + 0x7000).toNat
  dmp : wordIn packet 115 = (n + 11 + 0x7000).toNat
  count : wordIn packet 123 = 256 * ((n + 1).toNat / 256) + if n + 1 = 0 then 0 else 1

theorem madeFor_create (packet : Bytes) (s : Settings) :
    MadeFor s.slots (createDataPacketsACN packet s) := by
  refine ⟨highLow_toNat _, highLow_toNat _, highLow_toNat _, ?_⟩
  change 256 * ((s.slots + 1) >>> 8).toUInt8.toNat + (if s.slots + 1 = 0 then (0 : UInt8) else 1).toNat = _
  rw [highByte_toNat, apply_ite UInt8.toNat]
  rfl

namespace SacnDevice
variable (d : SacnDevice) (u : UInt16)

theorem length_datagram : (d.datagram u).length = 638 := length_take _ _

theorem wordAt_datagram {i : ℕ} (h : i + 1 < 125) :
    wordAt (d.datagram u) i = wordIn (d.setUniverse u).packet i := by
  have hfirst : i < SACN_DMX_START_INDEX := Nat.lt_of_succ_lt h
  have hsecond : i + 1 < SACN_DMX_START_INDEX := h
  rw [datagram, wordAt_take _ (by unfold MAX_SACN_BUFFER; omega), wordIn, payloadAt, payloadAt,
    if_pos hfirst, if_pos hsecond]
  rfl

theorem datagram_data : (d.datagram u).drop 125 = take d.board.dmx 513 := by
  rw [datagram, drop_take]
  apply take_congr
  intro i _
  have hno : ¬ 125 + i < SACN_DMX_START_INDEX := Nat.not_lt.mpr (Nat.le_add_right 125 i)
  rw [payloadAt, if_neg hno, SACN_DMX_START_INDEX, Nat.add_sub_cancel_left]
  rfl

theorem datagram_universe : wordAt (d.datagram u) 113 = u.toNat := by
  rw [wordAt_datagram d u (by omega)]
  exact highLow_toNat u

variable {d} {n : UInt16}

/-- The frame is consistent when all its lengths are those of a full universe. -/
theorem consistent_iff (h : MadeFor n d.packet) (slots : ℕ) :
    ConsistentFrame (d.datagram u) slots d.board.dmx u ↔ slots = 512 ∧ n.toNat = 512 := by
  have hroot : wordAt (d.datagram u) 16 = (n + 110 + 0x7000).toNat :=
    (wordAt_datagram d u (by omega)).trans h.root
  have hframing : wordAt (d.datagram u) 38 = (n + 88 + 0x7000).toNat :=
    (wordAt_datagram d u (by omega)).trans h.framing
  have hdmp : wordAt (d.datagram u) 115 = (n + 11 + 0x7000).toNat :=
    (wordAt_datagram d u (by omega)).trans h.dmp
  have hcount : wordAt (d.datagram u) 123 = _ := (wordAt_datagram d u (by omega)).trans h.count
  constructor
  · intro hframe
    have hlength := hframe.length
    obtain ⟨hflags, hreach⟩ := hframe.root
    rw [length_datagram] at hlength
    rw [hroot, UInt16.toNat_add, UInt16.toNat_add, length_datagram] at hreach
    rw [hroot, UInt16.toNat_add, UInt16.toNat_add] at hflags
    have hlt : n.toNat < 65536 := n.toNat_lt
    have h110 : (110 : UInt16).toNat = 110 := rfl
    have h7000 : (0x7000 : UInt16).toNat = 28672 := rfl
    omega
  · rintro ⟨rfl, hn⟩
    have hfull : n = 512 := UInt16.toNat_inj.mp hn
    subst hfull
    refine ⟨?_, ?_, ?_, hcount, length_datagram d u, datagram_data d u, datagram_universe d u⟩
    · unfold Framed
      rw [hroot, length_datagram]
      decide
    · unfold Framed
      rw [hframing, length_datagram]
      decide
    · unfold Framed
      rw [hdmp, length_datagram]
      decide

/-- The lengths are those of 512 slots. -/
def Full (d : SacnDevice) : Prop := wordIn d.packet 16 = 0x726E

/-- Once bound, the packet has been made for some number of slots. -/
def Bound (d : SacnDevice) : Prop := d.bound = true → ∃ n, MadeFor n d.packet

theorem full_iff (h : MadeFor n d.packet) : d.Full ↔ n.toNat = 512 := by
  have hlt : n.toNat < 65536 := n.toNat_lt
  have h110 : (110 : UInt16).toNat = 110 := rfl
  have h7000 : (0x7000 : UInt16).toNat = 28672 := rfl
  unfold Full
  rw [h.root, UInt16.toNat_add, UInt16.toNat_add]
  omega

/-- A send writes the universe and the sequence number only. -/
theorem madeFor_send (h : MadeFor n d.packet) :
    MadeFor n (d.setUniverse u).packet ∧ MadeFor n (d.setUniverse u).nextSequence.packet :=
  ⟨⟨h.root, h.framing, h.dmp, h.count⟩, ⟨h.root, h.framing, h.dmp, h.count⟩⟩

theorem bound_step (d : SacnDevice) (e : SacnEvent) (h : d.Bound) : (d.step e).1.Bound := by
  cases e with
  | setSlots count => exact h
  | setName name length => exact h
  | setBuffer dmx => exact h
  | startDMXsACN => exact fun _ => ⟨d.board.ram.slots, madeFor_create d.packet d.board.ram⟩
  | sendDMXDatasACN c u =>
    intro hbound
    rw [step_send] at hbound ⊢
    split_ifs at hbound ⊢
    · obtain ⟨n, hn⟩ := h hbound
      exact ⟨n, (madeFor_send u hn).2⟩
    · obtain ⟨n, hn⟩ := h hbound
      exact ⟨n, (madeFor_send u hn).1⟩

/-- Only a start writes the lengths. -/
theorem full_step (d : SacnDevice) (e : SacnEvent) : (d.step e).1.Full ↔
    (e = .startDMXsACN ∧ d.board.ram.slots.toNat = 512) ∨
      d.Full ∧ ¬ (e = .startDMXsACN ∧ d.board.ram.slots.toNat ≠ 512) := by
  cases e with
  | startDMXsACN =>
    have hfull : d.startDMXsACN.Full ↔ d.board.ram.slots.toNat = 512 :=
      full_iff (madeFor_create d.packet d.board.ram)
    simp only [true_and, not_not]
    exact hfull.trans ⟨Or.inl, fun h => h.elim id And.right⟩
  | sendDMXDatasACN c u =>
    simp only [reduceCtorEq, false_and, not_false_iff, and_true, false_or]
    rw [step_send]
    split_ifs
    · exact Iff.rfl
    · exact Iff.rfl
  | _ =>
    simp only [reduceCtorEq, false_and, not_false_iff, and_true, false_or]
    exact Iff.rfl

end SacnDevice

open SacnDevice

/-- The last `startDMXsACN` of the run has found 512 slots. -/
def StartedFull (b : Board) (es : List SacnEvent) : Prop :=
  Settled step (fun d e => e = .startDMXsACN ∧ d.board.ram.slots.toNat = 512)
    (fun d e => e = .startDMXsACN ∧ d.board.ram.slots.toNat ≠ 512) False (boot b) es

theorem startedFull_iff (b : Board) (es : List SacnEvent) :
    StartedFull b es ↔ (exec step (boot b) es).Full := by
  have hboot : (boot b).Full = False := eq_false (show ¬ wordIn (fun _ => 0) 16 = 0x726E by decide)
  have hsettled := settled_iff (I := Full) full_step (boot b) es
  rw [hboot] at hsettled
  exact hsettled

/-- A datagram is consistent with the slots in use exactly when these are 512 and were 512
at the last start. -/
theorem sacn_frame_iff (b : Board) (es : List SacnEvent) (c : Calls) (u : UInt16)
    (bytes : List UInt8)
    (hsent : .send bytes ∈ (sendDMXDatasACN c u (exec step (boot b) es)).log) :
    let d := exec step (boot b) es
    ConsistentFrame bytes d.board.ram.slots.toNat d.board.dmx u ↔
      d.board.ram.slots.toNat = 512 ∧ StartedFull b es := by
  intro d
  by_cases hsends : c.pbufOk = true ∧ d.bound = true
  · rw [sendDMXDatasACN_sends c u d hsends.1 hsends.2] at hsent
    have hbytes : bytes = d.datagram u := Access.send.inj (List.mem_singleton.mp hsent)
    have hinv : d.Bound := exec_invariant (C := fun _ _ => True) (fun d e h _ => bound_step d e h)
      (fun hno => nomatch hno) (along_of_forall (fun _ _ => trivial) (boot b) es)
    obtain ⟨n, hn⟩ := hinv hsends.2
    rw [hbytes, consistent_iff u hn, startedFull_iff, full_iff hn]
  · rw [sendDMXDatasACN_crash c u d hsends] at hsent
    exact absurd hsent List.not_mem_nil

/-- A device that has been started with `count` slots in use. -/
def startedWith (count : UInt16) : SacnDevice := exec step (boot startedNode) [.setSlots count, .startDMXsACN]

theorem startedWith_sends (count u : UInt16) :
    .send ((startedWith count).datagram u) ∈ (sendDMXDatasACN allCalls u (startedWith count)).log := by
  rw [sendDMXDatasACN_sends allCalls u (startedWith count) rfl rfl]
  exact List.mem_singleton_self _

theorem sacn_frame_full : let d := startedWith 512
    .send (d.datagram 1) ∈ (sendDMXDatasACN allCalls 1 d).log ∧
      ConsistentFrame (d.datagram 1) 512 d.board.dmx 1 := by
  have hsent := startedWith_sends 512 1
  have hfull : StartedFull startedNode [.setSlots 512, .startDMXsACN] := Or.inl ⟨rfl, by decide⟩
  exact ⟨hsent, (sacn_frame_iff startedNode _ allCalls 1 _ hsent).mpr ⟨by decide, hfull⟩⟩

/-- With 24 slots in use the datagram has the size of a full universe. -/
theorem sacn_frame_fails : ¬ ∀ (b : Board) (es : List SacnEvent) (c : Calls) (u : UInt16)
    (bytes : List UInt8),
    let d := exec step (boot b) es
    24 ≤ d.board.ram.slots.toNat → d.board.ram.slots.toNat ≤ 512 →
      .send bytes ∈ (sendDMXDatasACN c u d).log →
        ConsistentFrame bytes d.board.ram.slots.toNat d.board.dmx u := by
  intro hall
  have hframe := hall startedNode [.setSlots 24, .startDMXsACN] allCalls 1 _ (by decide) (by decide)
    (startedWith_sends 24 1)
  have hlength := hframe.length
  rw [length_datagram] at hlength
  exact absurd hlength (by decide)

end BlizzardBridge
