import BlizzardBridge.CArray

/-! Non-volatile storage: a map from keys, of any type, to typed values. A call of the
library can fail at any time; `faults` gives the outcome of each call in turn, and a call
that does not fail behaves as documented. -/
namespace BlizzardBridge
open CArray

inductive NvsKey where
  | deviceName
  | ssid
  | pass
  | inputMode
  | outputMode
  | ownIPAddress
  | ownNetmask
  | ownAddress
  | ownUniverse
  | mac
  | gateway
  | slots
  | ownUUID
  | ownID
  | dhcpEnable
  | wifiManagerEnable
  deriving DecidableEq, Repr

inductive NvsVal where
  | u8 (v : UInt8)
  | u16 (v : UInt16)
  | str (s : CString)
  | blob (bytes : List UInt8)
  deriving DecidableEq

/-- The error codes that the storage has a name for; `none` is `ESP_OK`. -/
inductive EspErr where
  | nvsNotFound
  | nvsTypeMismatch
  | nvsInvalidLength
  | other (code : ℕ)
  deriving DecidableEq, Repr

namespace NvsVal

def u8Val : NvsVal → Option UInt8
  | .u8 v => some v
  | _ => none

def u16Val : NvsVal → Option UInt16
  | .u16 v => some v
  | _ => none

/-- The bytes that `nvs_get_str` copies, the terminator among them. -/
def strData : NvsVal → Option (List UInt8)
  | .str s => some (s.1 ++ [0])
  | _ => none

def blobData : NvsVal → Option (List UInt8)
  | .blob bytes => some bytes
  | _ => none

end NvsVal

structure NvsStore (κ : Type) where
  content : κ → Option NvsVal
  faults : ℕ → Option EspErr
  calls : ℕ

/-- The storage of the board, by the keys that the program has. -/
abbrev Nvs := NvsStore NvsKey

namespace NvsStore

section reads
variable {κ : Type}

def tick (n : NvsStore κ) : NvsStore κ := { n with calls := n.calls + 1 }

def get {α : Type} (pick : NvsVal → Option α) (key : κ) (n : NvsStore κ) : Except EspErr α :=
  match n.faults n.calls with
  | some e => .error e
  | none =>
    match n.content key with
    | none => .error .nvsNotFound
    | some v =>
      match pick v with
      | none => .error .nvsTypeMismatch
      | some a => .ok a

/-- `nvs_get_str` or `nvs_get_blob` without a buffer, which writes the size needed. -/
def getSize (pick : NvsVal → Option (List UInt8)) (key : κ) (length : ℕ) (n : NvsStore κ) :
    ℕ × NvsStore κ :=
  match n.get pick key with
  | .error _ => (length, n.tick)
  | .ok data => (data.length, n.tick)

/-- The same call with a buffer of which `length` bytes may be written. -/
def getData (pick : NvsVal → Option (List UInt8)) (key : κ) (buf : Bytes) (length : ℕ)
    (n : NvsStore κ) : Option EspErr × (Bytes × ℕ) × NvsStore κ :=
  match n.get pick key with
  | .error e => (some e, (buf, length), n.tick)
  | .ok data =>
    if length < data.length then (some .nvsInvalidLength, (buf, data.length), n.tick)
    else (none, (store buf 0 data, data.length), n.tick)

/-- The size is asked for, then the data; the outcome of the first call is ignored. -/
def readData (pick : NvsVal → Option (List UInt8)) (key : κ) (buf : Bytes) (length : ℕ)
    (n : NvsStore κ) : Option EspErr × (Bytes × ℕ) × NvsStore κ :=
  let size := n.getSize pick key length
  size.2.getData pick key buf size.1

def Sound (n : NvsStore κ) : Prop := ∀ i, n.faults i = none

variable (key : κ) (n : NvsStore κ)

theorem get_notFound_iff {α : Type} (pick : NvsVal → Option α) :
    n.get pick key = .error .nvsNotFound ↔ match n.faults n.calls with
      | some e => e = .nvsNotFound
      | none => n.content key = none := by
  unfold get
  cases n.faults n.calls with
  | some e => simp
  | none =>
    cases n.content key with
    | none => simp
    | some v => cases hv : pick v <;> simp [hv]

theorem get_ne_notFound {α : Type} (pick : NvsVal → Option α) (h : n.Sound)
    (hk : n.content key ≠ none) : n.get pick key ≠ .error .nvsNotFound := by
  rw [ne_eq, get_notFound_iff, h]
  exact hk

theorem getSize_tick (pick : NvsVal → Option (List UInt8)) (length : ℕ) :
    (n.getSize pick key length).2 = n.tick := by
  unfold getSize
  split <;> rfl

theorem getData_tick (pick : NvsVal → Option (List UInt8)) (buf : Bytes) (length : ℕ) :
    (n.getData pick key buf length).2.2 = n.tick := by
  unfold getData
  split
  · rfl
  · split <;> rfl

theorem readData_nvs (pick : NvsVal → Option (List UInt8)) (buf : Bytes) (length : ℕ) :
    (n.readData pick key buf length).2.2 = n.tick.tick := by
  unfold readData
  rw [getData_tick, getSize_tick]

theorem get_absent {α : Type} (pick : NvsVal → Option α) (h : n.Sound) (hk : n.content key = none) :
    n.get pick key = .error .nvsNotFound := by
  rw [get, h, hk]

theorem get_present {α : Type} (pick : NvsVal → Option α) (h : n.Sound) {v : NvsVal} {a : α}
    (hk : n.content key = some v) (hv : pick v = some a) : n.get pick key = .ok a := by
  rw [get, h, hk]
  simp only [hv]

theorem get_mistyped {α : Type} (pick : NvsVal → Option α) (h : n.Sound) {v : NvsVal}
    (hk : n.content key = some v) (hv : pick v = none) :
    n.get pick key = .error .nvsTypeMismatch := by
  rw [get, h, hk]
  simp only [hv]

theorem get_ok_iff {α : Type} (pick : NvsVal → Option α) {a : α} :
    n.get pick key = .ok a ↔ n.faults n.calls = none ∧ (n.content key).bind pick = some a := by
  unfold get
  cases n.faults n.calls with
  | some e => simp
  | none =>
    cases n.content key with
    | none => simp
    | some v => cases hv : pick v <;> simp [hv]

section data
variable (pick : NvsVal → Option (List UInt8)) (buf : Bytes) (length : ℕ)

/-- The data arrives: the second call succeeds, and the first one has told the size, or what is
taken for the size is enough. -/
def Delivers (data : List UInt8) : Prop :=
  (n.content key).bind pick = some data ∧ n.faults (n.calls + 1) = none ∧
    (n.faults n.calls = none ∨ data.length ≤ length)

theorem getSize_of_ok {data : List UInt8} (h : n.get pick key = .ok data) :
    (n.getSize pick key length).1 = data.length := by
  rw [getSize, h]

theorem getSize_of_not_ok (h : ∀ data, n.get pick key ≠ .ok data) :
    (n.getSize pick key length).1 = length := by
  unfold getSize
  cases hget : n.get pick key with
  | error e => rfl
  | ok data => exact absurd hget (h data)

theorem tick_get_ok_iff {data : List UInt8} : n.tick.get pick key = .ok data ↔
    n.faults (n.calls + 1) = none ∧ (n.content key).bind pick = some data :=
  get_ok_iff key n.tick pick

theorem readData_of_delivers {data : List UInt8} (h : n.Delivers key pick length data) :
    n.readData pick key buf length = (none, (store buf 0 data, data.length), n.tick.tick) := by
  obtain ⟨hdata, hsecond, hsize⟩ := h
  have hget : n.tick.get pick key = .ok data :=
    (tick_get_ok_iff key n pick).mpr ⟨hsecond, hdata⟩
  have hle : data.length ≤ (n.getSize pick key length).1 := by
    by_cases hfirst : n.faults n.calls = none
    · rw [getSize_of_ok key n pick length ((get_ok_iff key n pick).mpr ⟨hfirst, hdata⟩)]
    · rw [getSize_of_not_ok key n pick length fun d hd =>
        hfirst ((get_ok_iff key n pick).mp hd).1]
      exact hsize.resolve_left hfirst
  rw [readData, getSize_tick, getData, hget]
  simp only [if_neg (Nat.not_lt.mpr hle)]

theorem readData_present (h : n.Sound) {v : NvsVal} {data : List UInt8}
    (hk : n.content key = some v) (hv : pick v = some data) :
    n.readData pick key buf length = (none, (store buf 0 data, data.length), n.tick.tick) :=
  readData_of_delivers key n pick buf length ⟨by rw [hk]; exact hv, h _, Or.inl (h _)⟩

theorem readData_absent (h : n.Sound) (hk : n.content key = none) :
    n.readData pick key buf length = (some .nvsNotFound, (buf, length), n.tick.tick) := by
  have hget := get_absent key n pick h hk
  have hget' : n.tick.get pick key = .error .nvsNotFound := get_absent key n.tick pick h hk
  simp only [readData, getSize, hget, getData, hget']

end data

end reads

section writes
variable {κ : Type} [DecidableEq κ]

-- `nvs_set_u8`, `nvs_set_u16`, `nvs_set_str` and `nvs_set_blob`.
def set (key : κ) (v : NvsVal) (n : NvsStore κ) : Option EspErr × NvsStore κ :=
  match n.faults n.calls with
  | some e => (some e, n.tick)
  | none => (none, { n.tick with content := Function.update n.content key (some v) })

def commit (n : NvsStore κ) : Option EspErr × NvsStore κ := (n.faults n.calls, n.tick)

/-- A typed `nvs_set` and a commit; failures are logged only. -/
def updateNvsVal (key : κ) (v : NvsVal) (n : NvsStore κ) : NvsStore κ := (n.set key v).2.commit.2

section update
variable (key : κ) (v : NvsVal) (n : NvsStore κ)

theorem updateNvsVal_faults : (n.updateNvsVal key v).faults = n.faults := by
  rw [updateNvsVal, set]
  split <;> rfl

theorem updateNvsVal_calls : (n.updateNvsVal key v).calls = n.calls + 2 := by
  rw [updateNvsVal, set]
  split <;> rfl

theorem updateNvsVal_sound (h : n.Sound) : (n.updateNvsVal key v).Sound := by
  intro i
  rw [updateNvsVal_faults]
  exact h i

/-- Failing or not, the calls leave the other keys alone. -/
theorem updateNvsVal_other {j : κ} (hj : j ≠ key) :
    (n.updateNvsVal key v).content j = n.content j := by
  rw [updateNvsVal, set]
  split
  · rfl
  · exact Function.update_of_ne hj _ _

theorem updateNvsVal_self : (n.updateNvsVal key v).content key =
    if n.faults n.calls = none then some v else n.content key := by
  rw [updateNvsVal, set]
  cases n.faults n.calls with
  | some e => rfl
  | none => exact Function.update_self _ _ _

theorem updateNvsVal_content (h : n.Sound) :
    (n.updateNvsVal key v).content = Function.update n.content key (some v) := by
  rw [updateNvsVal, set, h]
  rfl

end update

end writes

end NvsStore

end BlizzardBridge
