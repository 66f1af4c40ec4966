import BlizzardBridge.NvsLoad

/-! The functions that write a single value to NVS, against the typed reads of the loader.
They take any string for a key, so here the keys of the storage are of any type; the storage
of the board is what such a storage holds under the keys that the program has. -/
namespace BlizzardBridge
open CArray

/-- The string of a key, without its terminator. -/
def NvsKey.chars : NvsKey → List Char
  | .deviceName => ['D', 'E', 'V', 'I', 'C', 'E', '_', 'N', 'A', 'M', 'E']
  | .ssid => ['S', 'S', 'I', 'D']
  | .pass => ['P', 'A', 'S', 'S']
  | .inputMode => ['I', 'N', 'P', 'U', 'T', '_', 'M', 'O', 'D', 'E']
  | .outputMode => ['O', 'U', 'T', 'P', 'U', 'T', '_', 'M', 'O', 'D', 'E']
  | .ownIPAddress => ['O', 'W', 'N', '_', 'I', 'P', '_', 'A', 'D', 'D', 'R', 'E', 'S', 'S']
  | .ownNetmask => ['O', 'W', 'N', '_', 'N', 'E', 'T', 'M', 'A', 'S', 'K']
  | .ownAddress => ['O', 'W', 'N', '_', 'A', 'D', 'D', 'R', 'E', 'S', 'S']
  | .ownUniverse => ['O', 'W', 'N', '_', 'U', 'N', 'I', 'V', 'E', 'R', 'S', 'E']
  | .mac => ['M', 'A', 'C']
  | .gateway => ['G', 'A', 'T', 'E', 'W', 'A', 'Y']
  | .slots => ['S', 'L', 'O', 'T', 'S']
  | .ownUUID => ['R', 'D', 'M', '_', 'U', 'U', 'I', 'D']
  | .ownID => ['O', 'W', 'N', '_', 'I', 'D']
  | .dhcpEnable => ['D', 'H', 'C', 'P', '_', 'E', 'N', 'A', 'B', 'L', 'E']
  | .wifiManagerEnable => ['N', 'E', 'E', 'D', '_', 'W', 'I', 'F', 'I']

theorem NvsKey.zero_notMem_chars (k : NvsKey) : 0 ∉ ascii k.chars := by
  cases k <;> decide

def NvsKey.text (k : NvsKey) : CString := ⟨ascii k.chars, k.zero_notMem_chars⟩

def NvsKey.all : List NvsKey :=
  [.deviceName, .ssid, .pass, .inputMode, .outputMode, .ownIPAddress, .ownNetmask, .ownAddress,
    .ownUniverse, .mac, .gateway, .slots, .ownUUID, .ownID, .dhcpEnable, .wifiManagerEnable]

/-- No two keys have the same string. -/
theorem NvsKey.text_injective : Function.Injective NvsKey.text := by
  have hfind (k : NvsKey) : NvsKey.all.find? (fun j => ascii j.chars = ascii k.chars) = some k := by
    cases k <;> decide
  intro j k h
  have hchars : ascii j.chars = ascii k.chars := congrArg Subtype.val h
  have hj := hfind j
  rw [hchars, hfind k] at hj
  exact (Option.some.inj hj).symm

namespace NvsStore

section reads
variable {κ : Type}

def getU8 (key : κ) (n : NvsStore κ) : Except EspErr UInt8 := n.get NvsVal.u8Val key

def getU16 (key : κ) (n : NvsStore κ) : Except EspErr UInt16 := n.get NvsVal.u16Val key

/-- A string or a blob is read as the loader does it; this gives these bytes and their number,
whatever was in the buffer. -/
def ReadsBytes (pick : NvsVal → Option (List UInt8)) (key : κ) (data : List UInt8)
    (n : NvsStore κ) : Prop :=
  ∀ buf length, (n.readData pick key buf length).1 = none ∧
    take (n.readData pick key buf length).2.1.1 (n.readData pick key buf length).2.1.2 = data

/-- A storage with nothing in it, of which no call fails. -/
def erased : NvsStore κ := ⟨fun _ => none, fun _ => none, 0⟩

theorem erased_sound : (erased : NvsStore κ).Sound := fun _ => rfl

theorem readsBytes_present {n : NvsStore κ} {key : κ} {v : NvsVal}
    {pick : NvsVal → Option (List UInt8)} {data : List UInt8} (h : n.Sound)
    (hk : n.content key = some v) (hv : pick v = some data) : n.ReadsBytes pick key data := by
  intro buf length
  rw [readData_present key n pick buf length h hk hv]
  exact ⟨rfl, take_store buf data⟩

end reads

section writes
variable {κ : Type} [DecidableEq κ]

def updateU8NvsVal (key : κ) (value : UInt8) (n : NvsStore κ) : NvsStore κ :=
  n.updateNvsVal key (.u8 value)

-- The parameter is a `uint8_t`, and `nvs_set_u8` writes it.
def updateU16NvsVal (key : κ) (value : UInt8) (n : NvsStore κ) : NvsStore κ :=
  n.updateNvsVal key (.u8 value)

def updateBlobNvsVal (key : κ) (value : Bytes) (length : UInt8) (n : NvsStore κ) : NvsStore κ :=
  n.updateNvsVal key (.blob (take value length.toNat))

def updateStrNvsVal (key : κ) (value : CString) (n : NvsStore κ) : NvsStore κ :=
  n.updateNvsVal key (.str value)

/-- After a write of which no call fails, the key holds the value. -/
theorem updateNvsVal_present {key : κ} {n : NvsStore κ} (v : NvsVal) (h : n.Sound) :
    (n.updateNvsVal key v).content key = some v := by
  rw [updateNvsVal_self, h]
  rfl

end writes

section comap
variable {ι κ : Type} (f : ι → κ) (n : NvsStore κ)

/-- What the storage holds under some of its keys, by other names. -/
def comap : NvsStore ι := { n with content := n.content ∘ f }

theorem comap_get {α : Type} (pick : NvsVal → Option α) (i : ι) :
    (n.comap f).get pick i = n.get pick (f i) := rfl

theorem comap_readData (pick : NvsVal → Option (List UInt8)) (i : ι) (buf : Bytes) (length : ℕ) :
    (n.comap f).readData pick i buf length =
      ((n.readData pick (f i) buf length).1, (n.readData pick (f i) buf length).2.1,
        (n.readData pick (f i) buf length).2.2.comap f) := by
  have hfirst : (n.comap f).getSize pick i length =
      ((n.getSize pick (f i) length).1, (n.getSize pick (f i) length).2.comap f) := by
    rw [getSize, comap_get, getSize]
    split <;> rfl
  rw [readData, hfirst, readData]
  unfold getData
  rw [comap_get]
  split
  · rfl
  · split <;> rfl

theorem comap_updateNvsVal [DecidableEq ι] [DecidableEq κ] (hf : Function.Injective f) (i : ι)
    (v : NvsVal) : (n.updateNvsVal (f i) v).comap f = (n.comap f).updateNvsVal i v := by
  have hupdate : Function.update n.content (f i) (some v) ∘ f =
      Function.update (n.content ∘ f) i (some v) :=
    Function.update_comp_eq_of_injective n.content hf i (some v)
  simp only [updateNvsVal, set, comap]
  split
  · rfl
  · simp only [commit, tick, hupdate]

end comap

end NvsStore

/-- A call of one of the four functions, with the value that its caller has. -/
inductive NvsUpdate where
  | u8 (value : UInt8)
  | u16 (value : UInt16)
  | blob (value : Bytes) (length : UInt8)
  | str (value : CString)

namespace NvsUpdate

section keys
variable {κ : Type} [DecidableEq κ]

def run (key : κ) : NvsUpdate → NvsStore κ → NvsStore κ
  | .u8 value => NvsStore.updateU8NvsVal key value
  -- the argument is converted to the type of the parameter
  | .u16 value => NvsStore.updateU16NvsVal key value.toUInt8
  | .blob value length => NvsStore.updateBlobNvsVal key value length
  | .str value => NvsStore.updateStrNvsVal key value

/-- The typed read that matches the call gives its value. -/
def ReadBack (key : κ) (n : NvsStore κ) : NvsUpdate → Prop
  | .u8 value => n.getU8 key = .ok value
  | .u16 value => n.getU16 key = .ok value
  | .blob value length => n.ReadsBytes NvsVal.blobData key (take value length.toNat)
  | .str value => n.ReadsBytes NvsVal.strData key (value.1 ++ [0])

/-- After the call the read gives the value, and no other key has changed. -/
structure RoundTrips (key : κ) (n : NvsStore κ) (u : NvsUpdate) : Prop where
  readBack : u.ReadBack key (u.run key n)
  others : ∀ j ≠ key, (u.run key n).content j = n.content j

theorem run_other (key : κ) (n : NvsStore κ) (u : NvsUpdate) :
    ∀ j ≠ key, (u.run key n).content j = n.content j := by
  intro j hj
  cases u with
  | u8 value => exact NvsStore.updateNvsVal_other key _ n hj
  | u16 value => exact NvsStore.updateNvsVal_other key _ n hj
  | blob value length => exact NvsStore.updateNvsVal_other key _ n hj
  | str value => exact NvsStore.updateNvsVal_other key _ n hj

variable {key : κ} {n : NvsStore κ} (h : n.Sound)
include h

/-- What `update_u16_nvs_val` has written, no `nvs_get_u16` can read. -/
theorem getU16_run_u16 (value : UInt16) :
    ((NvsUpdate.u16 value).run key n).getU16 key = .error .nvsTypeMismatch :=
  NvsStore.get_mistyped key _ NvsVal.u16Val (NvsStore.updateNvsVal_sound key _ n h)
    (NvsStore.updateNvsVal_present _ h) rfl

theorem getU8_run_u8 (value : UInt8) : ((NvsUpdate.u8 value).run key n).getU8 key = .ok value :=
  NvsStore.get_present key _ NvsVal.u8Val (NvsStore.updateNvsVal_sound key _ n h)
    (NvsStore.updateNvsVal_present _ h) rfl

theorem readsBytes_run_blob (value : Bytes) (length : UInt8) :
    ((NvsUpdate.blob value length).run key n).ReadsBytes NvsVal.blobData key
      (take value length.toNat) :=
  NvsStore.readsBytes_present (NvsStore.updateNvsVal_sound key _ n h)
    (NvsStore.updateNvsVal_present _ h) rfl

theorem readsBytes_run_str (value : CString) :
    ((NvsUpdate.str value).run key n).ReadsBytes NvsVal.strData key (value.1 ++ [0]) :=
  NvsStore.readsBytes_present (NvsStore.updateNvsVal_sound key _ n h)
    (NvsStore.updateNvsVal_present _ h) rfl

/-- Every call but that of `update_u16_nvs_val` writes what the matching read gives. -/
theorem roundTrips_iff (u : NvsUpdate) : u.RoundTrips key n ↔ ∀ value, u ≠ .u16 value := by
  have hothers := run_other key n u
  cases u with
  | u8 value => exact iff_of_true ⟨getU8_run_u8 h value, hothers⟩ nofun
  | u16 value =>
    refine iff_of_false (fun hround => ?_) fun hne => hne value rfl
    have hread : ((NvsUpdate.u16 value).run key n).getU16 key = .ok value := hround.readBack
    rw [getU16_run_u16 h value] at hread
    cases hread
  | blob value length => exact iff_of_true ⟨readsBytes_run_blob h value length, hothers⟩ nofun
  | str value => exact iff_of_true ⟨readsBytes_run_str h value, hothers⟩ nofun

end keys

theorem roundTrips_iff_erased :
    (NvsStore.erased : NvsStore CString).Sound ∧
      ((NvsUpdate.u16 300).RoundTrips NvsKey.ownAddress.text NvsStore.erased ↔
        ∀ value, NvsUpdate.u16 300 ≠ .u16 value) :=
  ⟨NvsStore.erased_sound, roundTrips_iff NvsStore.erased_sound (.u16 300)⟩

/-- The start address 300: the read that follows fails. -/
theorem run_u16_not_roundTrips :
    ¬ ∀ (key : CString) (n : NvsStore CString), n.Sound → ∀ u : NvsUpdate, u.RoundTrips key n := by
  intro hall
  have hround := hall NvsKey.ownAddress.text NvsStore.erased NvsStore.erased_sound (.u16 300)
  have hread : ((NvsUpdate.u16 300).run NvsKey.ownAddress.text NvsStore.erased).getU16
      NvsKey.ownAddress.text = .ok 300 := hround.readBack
  rw [getU16_run_u16 NvsStore.erased_sound 300] at hread
  cases hread

end NvsUpdate

/-- The storage of the board is what the other one holds under the program's keys. -/
def NvsStore.Backs (s : NvsStore CString) (n : Nvs) : Prop := s.comap NvsKey.text = n

section board
variable {s : NvsStore CString} {b : Board} {key : NvsKey}

theorem NvsStore.Backs.updateNvsVal (h : s.Backs b.nvs) (v : NvsVal) :
    (s.updateNvsVal key.text v).Backs (b.updateNvsVal key v).nvs := by
  have hcomap := NvsStore.comap_updateNvsVal NvsKey.text s NvsKey.text_injective key v
  unfold NvsStore.Backs at h ⊢
  rw [hcomap, h, Board.updateNvsVal_nvs]

theorem NvsStore.Backs.get (h : s.Backs b.nvs) {α : Type} (pick : NvsVal → Option α) :
    b.nvs.get pick key = s.get pick key.text := by
  rw [← h, NvsStore.comap_get]

theorem NvsStore.Backs.readData (h : s.Backs b.nvs) (pick : NvsVal → Option (List UInt8)) :
    (b.readData pick key).1 = (s.readData pick key.text b.scratch.buf8 b.scratch.length).1 ∧
      ((b.readData pick key).2.scratch.buf8, (b.readData pick key).2.scratch.length) =
        (s.readData pick key.text b.scratch.buf8 b.scratch.length).2.1 := by
  unfold Board.readData
  rw [← h, NvsStore.comap_readData]
  exact ⟨rfl, rfl⟩

end board

end BlizzardBridge
