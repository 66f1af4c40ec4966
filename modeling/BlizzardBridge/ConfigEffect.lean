import BlizzardBridge.ConnectionManager
import BlizzardBridge.DmxConfig

/-! What each setter and getter does to its own setting, and that it leaves every
other setting alone, in RAM and in NVS. -/
namespace BlizzardBridge
open CArray

/-- Only the setting of one key has changed, in RAM or in NVS. -/
structure Touches (key : NvsKey) (b b' : Board) : Prop where
  value : ∀ j ≠ key, b'.ram.value j = b.ram.value j
  content : ∀ j ≠ key, b'.nvs.content j = b.nvs.content j
  faults : b'.nvs.faults = b.nvs.faults
  initDone : b'.initDone = b.initDone
  up : b'.netif.up = b.netif.up

/-- The value goes to RAM, and to NVS unless a call fails. -/
structure Persists (key : NvsKey) (v : NvsVal) (b b' : Board) : Prop extends Touches key b b' where
  valueAt : b'.ram.value key = some v
  contentAt : b.nvs.Sound → b'.nvs.content key = some v

structure RamOnly (key : NvsKey) (v : NvsVal) (b b' : Board) : Prop extends Touches key b b' where
  valueAt : b'.ram.value key = some v
  contentAt : b'.nvs.content key = b.nvs.content key

theorem Touches.sound {key : NvsKey} {b b' : Board} (h : Touches key b b') (hb : b.nvs.Sound) :
    b'.nvs.Sound := fun i => by rw [h.faults]; exact hb i

theorem Touches.refl (key : NvsKey) (b : Board) : Touches key b b :=
  ⟨fun _ _ => rfl, fun _ _ => rfl, rfl, rfl, rfl⟩

theorem Touches.trans {key : NvsKey} {b b' b'' : Board} (h : Touches key b b')
    (h' : Touches key b' b'') : Touches key b b'' where
  value j hj := (h'.value j hj).trans (h.value j hj)
  content j hj := (h'.content j hj).trans (h.content j hj)
  faults := h'.faults.trans h.faults
  initDone := h'.initDone.trans h.initDone
  up := h'.up.trans h.up

theorem Touches.persists {key : NvsKey} {v : NvsVal} {b b' b'' : Board} (h : Touches key b b')
    (h' : Persists key v b' b'') : Persists key v b b'' where
  toTouches := h.trans h'.toTouches
  valueAt := h'.valueAt
  contentAt hb := h'.contentAt (h.sound hb)

/-- The length that `setSSID` and `setPass` go by. -/
def StringVar.length (f : StringVar) (length : ℕ) : ℕ := if length = 0 then f.max - 1 else length

namespace Board

theorem updateNvsVal_touches (key : NvsKey) (v : NvsVal) (b : Board) :
    Touches key b (b.updateNvsVal key v) where
  value _ _ := rfl
  content _ hj := NvsStore.updateNvsVal_other key v b.nvs hj
  faults := NvsStore.updateNvsVal_faults key v b.nvs
  initDone := rfl
  up := rfl

theorem updateNvsVal_content_iff (key : NvsKey) (v : NvsVal) (b : Board) :
    (b.updateNvsVal key v).nvs.content key = some v ↔
      b.nvs.faults b.nvs.calls = none ∨ b.nvs.content key = some v := by
  rw [updateNvsVal_nvs, NvsStore.updateNvsVal_self]
  by_cases hf : b.nvs.faults b.nvs.calls = none
  · rw [if_pos hf]
    exact iff_of_true rfl (Or.inl hf)
  · rw [if_neg hf]
    exact (or_iff_right hf).symm

section write
variable {key : NvsKey} {v : NvsVal} {s : Settings} {b : Board}

theorem ramOnly_of_value (hoff : ∀ j ≠ key, s.value j = b.ram.value j) (hon : s.value key = some v) :
    RamOnly key v b { b with ram := s } where
  value := hoff
  content _ _ := rfl
  faults := rfl
  initDone := rfl
  up := rfl
  valueAt := hon
  contentAt := rfl

theorem persists_of_value (hoff : ∀ j ≠ key, s.value j = b.ram.value j)
    (hon : s.value key = some v) : Persists key v b (updateNvsVal key v { b with ram := s }) where
  toTouches := (ramOnly_of_value hoff hon).toTouches.trans (updateNvsVal_touches key v _)
  valueAt := hon
  contentAt h :=
    (congrFun (NvsStore.updateNvsVal_content key v b.nvs h) key).trans
      (Function.update_self _ _ _)

end write

theorem setIpInfo_touches (key : NvsKey) (word : UInt32 → IpInfo → IpInfo) (addr : Bytes)
    (b : Board) : Touches key b (b.setIpInfo word addr) :=
  ⟨fun _ _ => rfl, fun _ _ => rfl, rfl, rfl, rfl⟩

theorem setByte_persists (f : ByteVar) (x : UInt8) (b : Board) :
    Persists f.key (.u8 x) b (b.setByte f x) :=
  persists_of_value (f.value_other x b.ram) (f.value_self x b.ram)

theorem setWord_ramOnly (f : WordVar) (x : UInt16) (b : Board) :
    RamOnly f.key (.u16 x) b (b.setWord f x) :=
  ramOnly_of_value (f.value_other x b.ram) (f.value_self x b.ram)

theorem setSlots_refuses (count : UInt16) (b : Board)
    (h : count.toNat < DMX_MIN_SLOTS ∨ DMX_MAX_SLOTS ≤ count.toNat) : b.setSlots count = b := by
  unfold setSlots
  rcases h with h | h
  · have hmax : ¬ DMX_MAX_SLOTS ≤ count.toNat := by unfold DMX_MAX_SLOTS DMX_MIN_SLOTS at *; omega
    rw [if_neg hmax, if_pos h]
  · rw [if_pos h]

theorem setSlots_ramOnly (count : UInt16) (b : Board) (hmin : DMX_MIN_SLOTS ≤ count.toNat)
    (hmax : count.toNat < DMX_MAX_SLOTS) : RamOnly .slots (.u16 count) b (b.setSlots count) := by
  rw [setSlots, if_neg (Nat.not_le.mpr hmax), if_neg (Nat.not_lt.mpr hmin)]
  exact ramOnly_of_value (fun j hj => by cases j <;> first | rfl | exact absurd rfl hj) rfl

theorem setSlots_touches (count : UInt16) (b : Board) : Touches .slots b (b.setSlots count) := by
  by_cases hmin : DMX_MIN_SLOTS ≤ count.toNat
  · by_cases hmax : count.toNat < DMX_MAX_SLOTS
    · exact (setSlots_ramOnly count b hmin hmax).toTouches
    · rw [setSlots_refuses count b (Or.inr (Nat.not_lt.mp hmax))]
      exact Touches.refl _ _
  · rw [setSlots_refuses count b (Or.inl (Nat.not_le.mp hmin))]
    exact Touches.refl _ _

theorem setName_refuses (name : Bytes) (length : ℕ) (b : Board) (h : NAME_MAX_LENGTH ≤ length) :
    b.setName name length = b := if_pos h

theorem cString_putName (dst name : Bytes) (length : ℕ) (h : length < NAME_MAX_LENGTH) :
    cString (putStr dst name length) NVS_STR_MAX = cString name length := by
  have hlen : strnlen name length < NVS_STR_MAX := by
    have hle := strnlen_le name length
    unfold NAME_MAX_LENGTH NVS_STR_MAX at *
    omega
  exact Subtype.ext (cstr_putStr dst name hlen)

theorem setName_eq (name : Bytes) (length : ℕ) (b : Board) (h : length < NAME_MAX_LENGTH) :
    b.setName name length = updateNvsVal .deviceName (.str (cString name length)) { b with
      ram := { b.ram with
        deviceName := putStr (copyLoop b.ram.deviceName 0 (fun _ => 0) NAME_MAX_LENGTH) name
          length } } := by
  rw [setName, if_neg (Nat.not_le.mpr h)]
  simp only [terminate_copyTest, updateStrNvsVal, cString_putName _ name length h]

/-- The name is cut at its terminator or at the length given. -/
theorem setName_persists (name : Bytes) (length : ℕ) (b : Board) (h : length < NAME_MAX_LENGTH) :
    Persists .deviceName (.str (cString name length)) b (b.setName name length) := by
  rw [setName_eq name length b h]
  refine persists_of_value (fun j hj => by cases j <;> first | rfl | exact absurd rfl hj) ?_
  exact congrArg (fun s => some (NvsVal.str s)) (cString_putName _ name length h)

theorem setName_touches (name : Bytes) (length : ℕ) (b : Board) :
    Touches .deviceName b (b.setName name length) := by
  by_cases h : length < NAME_MAX_LENGTH
  · exact (setName_persists name length b h).toTouches
  · rw [setName_refuses name length b (Nat.not_lt.mp h)]
    exact Touches.refl _ _

section string
variable (f : StringVar) (src : Bytes) (length : ℕ) (b : Board)

theorem setString_refuses (h : f.max + 2 < length) : b.setString f src length = b := if_pos h

theorem length_le (h : length ≤ f.max + 2) : f.length length ≤ f.max + 2 := by
  unfold StringVar.length
  split
  · omega
  · exact h

theorem cString_putStr (dst : Bytes) (h : length ≤ f.max + 2) :
    cString (putStr dst src (f.length length)) NVS_STR_MAX = cString src (f.length length) := by
  have hlen : strnlen src (f.length length) < NVS_STR_MAX := by
    have hle := strnlen_le src (f.length length)
    have hbound := length_le f length h
    have hmax := f.max_lt
    unfold NVS_STR_MAX
    omega
  exact Subtype.ext (cstr_putStr dst src hlen)

/-- NVS is given the string that the array holds then. -/
theorem setString_eq (h : length ≤ f.max + 2) :
    b.setString f src length = updateNvsVal f.key (.str (cString src (f.length length)))
      { b with ram := f.set (putStr (f.get b.ram) src (f.length length)) b.ram } := by
  have hstored : terminate (copyWrite src (f.length length) 0 (f.get b.ram)) =
      putStr (f.get b.ram) src (f.length length) := by
    rw [terminate_copyWrite, terminate_copyTest]
  rw [← cString_putStr f src length (f.get b.ram) h, ← hstored]
  exact if_neg (Nat.not_lt.mpr h)

theorem setString_persists (h : length ≤ f.max + 2) :
    Persists f.key (.str (cString src (f.length length))) b (b.setString f src length) := by
  rw [setString_eq f src length b h]
  refine persists_of_value (f.value_other _ _) ?_
  rw [f.value_self, cString_putStr f src length _ h]

theorem setString_touches : Touches f.key b (b.setString f src length) := by
  by_cases h : length ≤ f.max + 2
  · exact (setString_persists f src length b h).toTouches
  · rw [setString_refuses f src length b (Nat.not_le.mp h)]
    exact Touches.refl _ _

end string

theorem take_copyDown (a src : Bytes) (n : ℕ) : take (copyDown a src n) n = take src n := by
  apply take_congr
  intro i hi
  rw [copyDown_apply, if_pos hi]

theorem setMac_persists (mac : Bytes) (b : Board) :
    Persists .mac (.blob (take mac 6)) b (b.setMac mac) := by
  have hon : ({ b.ram with mac := copyDown b.ram.mac mac 6 } : Settings).value .mac =
      some (.blob (take mac 6)) := congrArg (fun l => some (NvsVal.blob l)) (take_copyDown _ _ _)
  exact persists_of_value (fun j hj => by cases j <;> first | rfl | exact absurd rfl hj) hon

section address
variable (f : AddressVar) (addr : Bytes) (b : Board)

theorem address_value (a : Bytes) (s : Settings) :
    (f.set (copyDown a addr 4) s).value f.key = some (.blob (take addr 4)) := by
  rw [f.value_self, take_copyDown]

theorem setAddress_early (h : b.initDone = false) :
    RamOnly f.key (.blob (take addr 4)) b (b.setAddress f addr) := by
  have heq : b.setAddress f addr =
      { b with ram := f.set (copyDown (f.get b.ram) addr 4) b.ram } := by
    simp only [setAddress, h, Bool.not_false, if_true]
  rw [heq]
  exact ramOnly_of_value (f.value_other _ _) (address_value f addr _ _)

/-- The interface comes first; it holds no setting. -/
theorem setAddress_eq (h : b.initDone = true) (hup : b.netif.up = true) :
    b.setAddress f addr = updateNvsVal f.key (.blob (take addr 4))
      { b.setIpInfo f.setWord addr with
        ram := f.set (copyDown (f.get b.ram) addr 4) b.ram } := by
  simp only [setAddress, h, hup, Bool.not_true, Bool.false_eq_true, if_false, if_true]
  rfl

theorem setAddress_late (h : b.initDone = true) (hup : b.netif.up = true) :
    Persists f.key (.blob (take addr 4)) b (b.setAddress f addr) := by
  rw [setAddress_eq f addr b h hup]
  exact (setIpInfo_touches _ _ _ b).persists
    (persists_of_value (f.value_other _ _) (address_value f addr _ _))

/-- After `INIT_DONE` an interface that gives no information refuses every address. -/
theorem setAddress_down (h : b.initDone = true) (hup : b.netif.up = false) :
    b.setAddress f addr = b := by
  simp only [setAddress, h, hup, Bool.not_true, Bool.false_eq_true, if_false]

theorem setAddress_touches : Touches f.key b (b.setAddress f addr) := by
  cases h : b.initDone with
  | false => exact (setAddress_early f addr b h).toTouches
  | true =>
    cases hup : b.netif.up with
    | false => rw [setAddress_down f addr b h hup]; exact Touches.refl _ _
    | true => exact (setAddress_late f addr b h hup).toTouches

theorem getAddress_static (h : b.ram.dhcpEnable = 0) : b.getAddress f = b := if_pos h

theorem getAddress_dhcp (h : b.ram.dhcpEnable ≠ 0) :
    RamOnly f.key (.blob (take (octets (f.word b.getIpInfo)) 4)) b (b.getAddress f) := by
  rw [getAddress, if_neg h]
  exact ramOnly_of_value (f.value_other _ _) (address_value f _ _ _)

end address

end Board

end BlizzardBridge
