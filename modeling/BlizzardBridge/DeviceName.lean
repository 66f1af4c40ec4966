import BlizzardBridge.ConfigAgree
import BlizzardBridge.NvsRestore

/-! The long name of an ArtAddress packet as the name of the device: in its array, in NVS
and after a restart. -/
namespace BlizzardBridge
open CArray

section name
variable (c : Calls) (p : Pbuf) (addr : UInt32) (b : Board)

def Pbuf.longName (p : Pbuf) : Bytes := fun i => p.payload (ADDRESS_LONG_NAME + i)

/-- The string at the start of the array, and zeros up to its end. -/
def Padded (a : Bytes) (s : CString) : Prop :=
  take a NAME_MAX_LENGTH = s.1 ++ List.replicate (NAME_MAX_LENGTH - s.1.length) 0

/-- The device has the name, and has it again after a restart. -/
structure Named (s : CString) (b : Board) (netif : Netif) : Prop where
  array : Padded b.ram.deviceName s
  content : b.nvs.content .deviceName = some (.str s)
  reloaded : ∀ fuel, ∃ r, Board.populateAllDmxNvsValues (fuel + 2) (Board.reset b.nvs netif) = some r ∧
    r.getName = s

/-- An empty field leaves the name alone, and any other is the new name. -/
def TakesName (p : Pbuf) (netif : Netif) (b b' : Board) : Prop :=
  if p.longName 0 = 0 then
    take b'.ram.deviceName NAME_MAX_LENGTH = take b.ram.deviceName NAME_MAX_LENGTH ∧
      b'.nvs.content .deviceName = b.nvs.content .deviceName
  else Named (cString p.longName (NAME_MAX_LENGTH - 1)) b' netif

/-- The name is empty already, or the field is not, and ends before its last two bytes. -/
def Nameable (p : Pbuf) (b : Board) : Prop :=
  if p.longName 0 = 0 then
    (∀ i < NAME_MAX_LENGTH, b.ram.deviceName i = 0) ∧
      b.nvs.content .deviceName = some (.str ⟨[], List.not_mem_nil⟩)
  else strnlen p.longName (NAME_MAX_LENGTH - 1) + 1 < NAME_MAX_LENGTH

theorem getIP_iterate_name (n : ℕ) : (Board.getIP^[n] b).ram.deviceName = b.ram.deviceName ∧
    (Board.getIP^[n] b).nvs = b.nvs := by
  have hget (b : Board) : b.getIP.ram.deviceName = b.ram.deviceName ∧ b.getIP.nvs = b.nvs := by
    unfold Board.getIP Board.getAddress
    split <;> exact ⟨rfl, rfl⟩
  induction n generalizing b with
  | zero => exact ⟨rfl, rfl⟩
  | succ n ih =>
    rw [Function.iterate_succ_apply]
    exact ⟨(ih b.getIP).1.trans (hget b).1, (ih b.getIP).2.trans (hget b).2⟩

/-- Of the name and of NVS nothing changes after `setName`. -/
theorem artAddress_name :
    (parseArtAddressArtnet c p addr b).state.ram.deviceName =
        (b.setName p.longName (NAME_MAX_LENGTH - 1)).ram.deviceName ∧
      (parseArtAddressArtnet c p addr b).state.nvs =
        (b.setName p.longName (NAME_MAX_LENGTH - 1)).nvs := by
  obtain ⟨b₁, hsame, n, hreply⟩ := parseArtAddress_leaves c p addr b
  obtain ⟨hname, hnvs⟩ := getIP_iterate_name b₁ n
  constructor
  · rw [hreply.ram, hname, hsame.ram]
    rfl
  · rw [hreply.nvs, hnvs, hsame.nvs]
    rfl

theorem padded_putStr (dst src : Bytes) {n : ℕ} (hn : n < NAME_MAX_LENGTH) :
    Padded (putStr (copyLoop dst 0 (fun _ => 0) NAME_MAX_LENGTH) src n) (cString src n) := by
  have hlen : (cString src n).1.length = strnlen src n := length_take src _
  have hle := strnlen_le src n
  unfold Padded
  apply List.ext_getElem
  · rw [length_take, List.length_append, hlen, List.length_replicate]
    omega
  · intro i h₁ h₂
    rw [length_take] at h₁
    simp only [take, List.getElem_map, List.getElem_range]
    rw [putStr]
    by_cases hi : i < strnlen src n
    · rw [if_pos hi, List.getElem_append_left (by rw [hlen]; exact hi)]
      simp only [cString, cstr, take, List.getElem_map, List.getElem_range]
    -- the terminator, and above it what `memset` has left
    · have hclear : copyLoop dst 0 (fun _ => 0) NAME_MAX_LENGTH i = 0 := by
        rw [copyLoop_apply, if_pos ⟨Nat.zero_le i, by omega⟩]
      rw [if_neg hi, List.getElem_append_right (by rw [hlen]; exact Nat.not_lt.mp hi),
        List.getElem_replicate, hclear, ite_self]

theorem setName_padded : Padded (b.setName p.longName (NAME_MAX_LENGTH - 1)).ram.deviceName
    (cString p.longName (NAME_MAX_LENGTH - 1)) := by
  rw [Board.setName_eq p.longName (NAME_MAX_LENGTH - 1) b (by decide)]
  exact padded_putStr _ _ (by decide)

theorem length_longName :
    (cString p.longName (NAME_MAX_LENGTH - 1)).1.length = strnlen p.longName (NAME_MAX_LENGTH - 1) :=
  length_take p.longName _

theorem longName_empty (h0 : p.longName 0 = 0) :
    cString p.longName (NAME_MAX_LENGTH - 1) = ⟨[], List.not_mem_nil⟩ := by
  have hzero : strnlen p.longName (NAME_MAX_LENGTH - 1) = 0 :=
    strnlen_eq (fun i hi => absurd hi (Nat.not_lt_zero i)) (Or.inr ⟨by decide, h0⟩)
  apply Subtype.ext
  apply List.length_eq_zero_iff.mp
  rw [length_longName, hzero]

theorem longName_ne_nil (h0 : p.longName 0 ≠ 0) :
    (cString p.longName (NAME_MAX_LENGTH - 1)).1 ≠ [] := by
  intro hnil
  have hzero : strnlen p.longName (62 + 1) = 0 := (length_longName p).symm.trans (congrArg _ hnil)
  rw [strnlen, if_neg h0] at hzero
  exact absurd hzero (Nat.succ_ne_zero _)

/-- The loader counts the terminator in, so it refuses the longest name. -/
theorem reloads_name_iff {s : CString} (netif : Netif) (h : b.nvs.Sound)
    (hs : b.nvs.content .deviceName = some (.str s)) (hlen : s.1.length < NAME_MAX_LENGTH)
    (hne : s.1 ≠ []) :
    (∀ fuel, ∃ r, Board.populateAllDmxNvsValues (fuel + 2) (Board.reset b.nvs netif) = some r ∧
      r.getName = s) ↔ s.1.length + 1 < NAME_MAX_LENGTH := by
  have hstored : (Board.reset b.nvs netif).stored .deviceName = .str s := Board.stored_of_content hs
  have hload (fuel : ℕ) : ∃ r,
      Board.populateAllDmxNvsValues (fuel + 2) (Board.reset b.nvs netif) = some r ∧
        some (NvsVal.str r.getName) =
          if s.1.length + 1 < NAME_MAX_LENGTH then some (.str s)
          else (Board.reset b.nvs netif).ram.value .deviceName := by
    obtain ⟨r, hrun, hr⟩ := Board.populate_loads fuel (Board.reset b.nvs netif) h
    have hval := hr .deviceName (by decide) (by rw [hstored]; exact hlen)
    rw [hstored] at hval
    exact ⟨r, hrun, hval⟩
  constructor
  · intro hall
    by_contra hlong
    obtain ⟨r, hrun, hname⟩ := hall 0
    obtain ⟨r', hrun', hval⟩ := hload 0
    have hrr : r = r' := Option.some.inj (hrun.symm.trans hrun')
    rw [if_neg hlong, ← hrr, hname] at hval
    -- the array is zeroed by the restart
    have hempty : s = cString (fun _ => 0) NVS_STR_MAX := NvsVal.str.inj (Option.some.inj hval)
    exact hne (congrArg Subtype.val hempty)
  · intro hshort fuel
    obtain ⟨r, hrun, hval⟩ := hload fuel
    rw [if_pos hshort] at hval
    exact ⟨r, hrun, NvsVal.str.inj (Option.some.inj hval)⟩

/-- An ArtAddress packet is right about the name exactly when its field holds a name of at
most 62 bytes, or nothing is named and nothing is to be named. -/
theorem artAddress_takesName_iff (netif : Netif) (h : b.nvs.Sound) :
    TakesName p netif b (parseArtAddressArtnet c p addr b).state ↔ Nameable p b := by
  have hset := Board.setName_persists p.longName (NAME_MAX_LENGTH - 1) b (by decide)
  have hpadded := setName_padded p b
  obtain ⟨hname, hnvs⟩ := artAddress_name c p addr b
  rw [← hname] at hpadded
  have hcontent := hset.contentAt h
  rw [← hnvs] at hcontent
  have hsound : (parseArtAddressArtnet c p addr b).state.nvs.Sound := by
    rw [hnvs]
    exact hset.sound h
  unfold TakesName Nameable
  by_cases h0 : p.longName 0 = 0
  -- nothing is named: zeros and the empty string, against what was there
  · rw [longName_empty p h0] at hpadded hcontent
    have hzeros : take (parseArtAddressArtnet c p addr b).state.ram.deviceName NAME_MAX_LENGTH =
        take (fun _ => 0) NAME_MAX_LENGTH := hpadded
    rw [if_pos h0, if_pos h0, hcontent, hzeros, eq_comm (b := b.nvs.content .deviceName)]
    constructor
    · rintro ⟨harray, hstored⟩
      exact ⟨fun i hi => (eq_of_take_eq harray i hi).symm, hstored⟩
    · rintro ⟨harray, hstored⟩
      exact ⟨take_congr fun i hi => (harray i hi).symm, hstored⟩
  -- only the restart can fail
  · have hle := strnlen_le p.longName (NAME_MAX_LENGTH - 1)
    have hfit : (cString p.longName (NAME_MAX_LENGTH - 1)).1.length < NAME_MAX_LENGTH := by
      rw [length_longName]
      unfold NAME_MAX_LENGTH at *
      omega
    have hreload := reloads_name_iff _ netif hsound hcontent hfit (longName_ne_nil p h0)
    rw [length_longName] at hreload
    rw [if_neg h0, if_neg h0, ← hreload]
    constructor
    · exact fun hn => hn.reloaded
    · exact fun hr => ⟨hpadded, hcontent, hr⟩

end name

def address (name : List UInt8) : Pbuf := ⟨store (fun _ => 0) ADDRESS_LONG_NAME name, 107⟩

def answered : Calls := ⟨true, true, true, fun _ => 0, fun _ => 0⟩

def nameless : Board := Board.reset (Board.storage fun _ => none) Board.station

theorem artAddress_takesName_longest : TakesName (address (List.replicate 62 97)) Board.station nameless
    (parseArtAddressArtnet answered (address (List.replicate 62 97)) 0 nameless).state := by
  apply (artAddress_takesName_iff answered _ 0 nameless Board.station fun _ => rfl).mpr
  unfold Nameable
  rw [if_neg (by decide)]
  decide +kernel

/-- A name of 63 letters is gone after a restart. -/
theorem artAddress_loses_name : ¬ ∀ (c : Calls) (p : Pbuf) (addr : UInt32) (b : Board) (netif : Netif),
    b.nvs.Sound → TakesName p netif b (parseArtAddressArtnet c p addr b).state := by
  intro hall
  let p := address (List.replicate 63 97)
  have htakes := hall answered p 0 nameless Board.station fun _ => rfl
  have h0 : ¬ p.longName 0 = 0 := by decide
  have hsound : (parseArtAddressArtnet answered p 0 nameless).state.nvs.Sound := by
    rw [(artAddress_name answered p 0 nameless).2]
    exact (Board.setName_touches p.longName (NAME_MAX_LENGTH - 1) nameless).sound fun _ => rfl
  rw [TakesName, if_neg h0] at htakes
  have hlen : (cString p.longName (NAME_MAX_LENGTH - 1)).1.length = 63 := by decide +kernel
  have hfit := (reloads_name_iff _ Board.station hsound htakes.content (by rw [hlen]; decide)
    (by intro hnil; rw [hnil] at hlen; cases hlen)).mp htakes.reloaded
  rw [hlen] at hfit
  exact absurd hfit (by decide)

end BlizzardBridge
