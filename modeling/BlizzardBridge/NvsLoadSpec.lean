import BlizzardBridge.ConfigEffect
import BlizzardBridge.NvsLoad

/-! What loading leaves behind. A block changes its own setting only, so the blocks of
different keys can be taken in any order when their results are put together. The
block of the gateway is the exception: it hands the gateway to the setter of the MAC
address. -/
namespace BlizzardBridge
open CArray

/-- A value of the type that the loader reads for the key, of a size that the
program's own writers keep to. -/
def Fits : NvsKey → NvsVal → Prop
  | .deviceName, .str s => s.1.length < NAME_MAX_LENGTH
  | .ssid, .str s => s.1.length ≤ SSID_MAX_LENGTH + 2
  | .pass, .str s => s.1.length ≤ PASS_MAX_LENGTH + 2
  | .inputMode, .u8 _ => True
  | .outputMode, .u8 _ => True
  | .dhcpEnable, .u8 _ => True
  | .wifiManagerEnable, .u8 _ => True
  | .ownAddress, .u16 _ => True
  | .ownUniverse, .u16 _ => True
  | .slots, .u16 _ => True
  | .ownID, .u16 _ => True
  | .ownIPAddress, .blob bytes => bytes.length = 4
  | .ownNetmask, .blob bytes => bytes.length = 4
  | .gateway, .blob bytes => bytes.length = 4
  | .mac, .blob bytes => bytes.length = 6
  | _, _ => False

theorem defaultVal_fits (k : NvsKey) (hk : k ≠ .ownUUID) : Fits k (defaultVal k) := by
  have hname : DEFAULT_DEVICE_NAME.1.length < NAME_MAX_LENGTH := by decide
  have hssid : DEFAULT_SSID.1.length ≤ SSID_MAX_LENGTH + 2 := by decide
  have hpass : DEFAULT_PASS.1.length ≤ PASS_MAX_LENGTH + 2 := by decide
  cases k <;> trivial

section fits
variable {k : NvsKey} {v : NvsVal}

theorem Fits.u8 {x : UInt8} (hd : defaultVal k = .u8 x) (hv : Fits k v) : ∃ y, v = .u8 y := by
  cases k <;> cases hd <;> cases v <;> first | exact ⟨_, rfl⟩ | cases hv

theorem Fits.u16 {x : UInt16} (hd : defaultVal k = .u16 x) (hv : Fits k v) : ∃ y, v = .u16 y := by
  cases k <;> cases hd <;> cases v <;> first | exact ⟨_, rfl⟩ | cases hv

/-- Not so the name of the device, which has its own bound. -/
theorem Fits.str (hk : k = .ssid ∨ k = .pass) (hv : Fits k v) :
    ∃ s, v = .str s ∧ s.1.length ≤ SSID_MAX_LENGTH + 2 := by
  rcases hk with rfl | rfl <;> cases v <;> first | exact ⟨_, rfl, hv⟩ | cases hv

theorem Fits.blob {l : List UInt8} {n : ℕ} (hd : defaultVal k = .blob l) (hn : l.length = n)
    (hv : Fits k v) : ∃ bytes, v = .blob bytes ∧ bytes.length = n := by
  subst hn
  cases k <;> cases hd <;> cases v <;> first | exact ⟨_, rfl, hv⟩ | cases hv

end fits

namespace Board

/-- What the loader finds under a key, after the default has been written. -/
def stored (b : Board) (k : NvsKey) : NvsVal := (b.nvs.content k).getD (defaultVal k)

theorem stored_of_content {b : Board} {k : NvsKey} {v : NvsVal} (h : b.nvs.content k = some v) :
    b.stored k = v := by
  rw [stored, h, Option.getD_some]

def addressable (b : Board) : Bool := !b.initDone || b.netif.up

/-- What the variable of a key holds after a value that fits was loaded; `old` is what it has
held before. -/
def accepted (b : Board) (k : NvsKey) (v : NvsVal) (old : Option NvsVal) : Option NvsVal :=
  match k, v with
  | .deviceName, .str s => if s.1.length + 1 < NAME_MAX_LENGTH then some v else old
  | .ssid, .str s => if s.1.length + 1 ≤ SSID_MAX_LENGTH + 2 then some v else old
  | .pass, .str s => if s.1.length + 1 ≤ PASS_MAX_LENGTH + 2 then some v else old
  | .slots, .u16 n =>
    if n.toNat = DMX_MAX_SLOTS then some (.u16 512)
    else if DMX_MIN_SLOTS ≤ n.toNat ∧ n.toNat < DMX_MAX_SLOTS then some v else old
  | .ownIPAddress, _ => if b.addressable then some v else old
  | .ownNetmask, _ => if b.addressable then some v else old
  | _, _ => some v

/-- Nothing has changed but the scratch buffers and the number of calls. -/
structure Reads (b b' : Board) : Prop where
  ram : b'.ram = b.ram
  content : b'.nvs.content = b.nvs.content
  faults : b'.nvs.faults = b.nvs.faults
  initDone : b'.initDone = b.initDone
  netif : b'.netif = b.netif

theorem Reads.touches {b b' : Board} (h : Reads b b') (k : NvsKey) : Touches k b b' where
  value j _ := by rw [h.ram]
  content j _ := by rw [h.content]
  faults := h.faults
  initDone := h.initDone
  up := by rw [h.netif]

/-- The first half of a block: only a missing key answers "not found". -/
structure KeyRead (key : NvsKey) (read : Board → Option EspErr × Board) : Prop where
  reads : ∀ b, Reads b (read b).2
  absent : ∀ b, b.nvs.Sound → b.nvs.content key = none → (read b).1 = some .nvsNotFound
  present : ∀ b, b.nvs.Sound → b.nvs.content key ≠ none → (read b).1 ≠ some .nvsNotFound

section number
variable {α : Type} (pick : NvsVal → Option α) (put : α → Scratch → Scratch) (key : NvsKey)

/-- Whether the key is missing is what the call has answered. -/
theorem readNumber_answer (b : Board) :
    ((readNumber pick put key b).1 = some .nvsNotFound ↔
        b.nvs.get pick key = .error .nvsNotFound) ∧
      (readNumber pick put key b).2.nvs.calls = b.nvs.calls + 1 := by
  unfold readNumber
  cases b.nvs.get pick key with
  | error e => exact ⟨by simp, rfl⟩
  | ok v => exact ⟨by simp, rfl⟩

theorem readNumber_keyRead : KeyRead key (readNumber pick put key) where
  reads b := by
    unfold readNumber
    split <;> exact ⟨rfl, rfl, rfl, rfl, rfl⟩
  absent b h hk := (readNumber_answer pick put key b).1.mpr (NvsStore.get_absent key b.nvs pick h hk)
  present b h hk := mt (readNumber_answer pick put key b).1.mp (NvsStore.get_ne_notFound key b.nvs pick h hk)

theorem readNumber_scratch (b : Board) (h : b.nvs.Sound) {v : NvsVal} {x : α}
    (hk : b.nvs.content key = some v) (hv : pick v = some x) :
    (readNumber pick put key b).2.scratch = put x b.scratch := by
  rw [readNumber, NvsStore.get_present key b.nvs pick h hk hv]

end number

theorem readU8_keyRead (key : NvsKey) : KeyRead key (readU8 key) := readNumber_keyRead _ _ key

theorem readU16_keyRead (key : NvsKey) : KeyRead key (readU16 key) := readNumber_keyRead _ _ key

section data
variable (pick : NvsVal → Option (List UInt8)) (key : NvsKey)

/-- The second call decides; the first only counts. -/
theorem readData_answer (b : Board) :
    ((readData pick key b).1 = some .nvsNotFound ↔
        b.nvs.tick.get pick key = .error .nvsNotFound) ∧
      (readData pick key b).2.nvs.calls = b.nvs.calls + 2 := by
  unfold readData NvsStore.readData NvsStore.getData
  simp only [NvsStore.getSize_tick]
  cases b.nvs.tick.get pick key with
  | error e => exact ⟨by simp, rfl⟩
  | ok data =>
    simp only
    split <;> exact ⟨by simp, rfl⟩

theorem readData_keyRead : KeyRead key (readData pick key) where
  reads b := by
    rw [readData, NvsStore.readData_nvs]
    exact ⟨rfl, rfl, rfl, rfl, rfl⟩
  absent b h hk := (readData_answer pick key b).1.mpr (NvsStore.get_absent key b.nvs.tick pick h hk)
  present b h hk := mt (readData_answer pick key b).1.mp (NvsStore.get_ne_notFound key b.nvs.tick pick h hk)

end data

theorem readU8_val (key : NvsKey) (b : Board) (h : b.nvs.Sound) {v : UInt8}
    (hk : b.nvs.content key = some (.u8 v)) : (readU8 key b).2.scratch.buf8 0 = v := by
  rw [readU8, readNumber_scratch NvsVal.u8Val _ key b h hk rfl]
  exact Function.update_self 0 v b.scratch.buf8

theorem readU16_val (key : NvsKey) (b : Board) (h : b.nvs.Sound) {v : UInt16}
    (hk : b.nvs.content key = some (.u16 v)) : (readU16 key b).2.scratch.buf16 = v := by
  rw [readU16, readNumber_scratch NvsVal.u16Val _ key b h hk rfl]

theorem readData_val (pick : NvsVal → Option (List UInt8)) (key : NvsKey) (b : Board)
    (h : b.nvs.Sound) {v : NvsVal} {data : List UInt8} (hk : b.nvs.content key = some v)
    (hv : pick v = some data) :
    (readData pick key b).2.scratch.buf8 = store b.scratch.buf8 0 data ∧
      (readData pick key b).2.scratch.length = data.length := by
  rw [readData, NvsStore.readData_present key b.nvs pick _ _ h hk hv]
  exact ⟨rfl, rfl⟩

theorem initNvsKeyPairDefault_touches (key : NvsKey) (b : Board) :
    Touches key b (b.initNvsKeyPairDefault key) where
  value _ _ := rfl
  content _ hj := NvsStore.updateNvsVal_other key (defaultVal key) b.nvs hj
  faults := NvsStore.updateNvsVal_faults key (defaultVal key) b.nvs
  initDone := rfl
  up := rfl

/-- Two turns of the loop are enough: after the default is written the key is there. -/
theorem loadLoop_run {key : NvsKey} {read : Board → Option EspErr × Board} (hr : KeyRead key read)
    (use : Board → Board) (fuel : ℕ) (b : Board) (h : b.nvs.Sound) :
    ∃ b₀, loadLoop key read use (fuel + 2) b = some (use (read b₀).2) ∧ b₀.ram = b.ram ∧
      Touches key b b₀ ∧ b₀.nvs.content key = some (b.stored key) ∧
      (b₀ = b ∨ b.nvs.content key = none ∧ b₀ = (read b).2.initNvsKeyPairDefault key) := by
  cases hk : b.nvs.content key with
  | some v =>
    have hp : (read b).1 ≠ some .nvsNotFound := hr.present b h (by rw [hk]; exact nofun)
    refine ⟨b, ?_, rfl, Touches.refl key b, ?_, Or.inl rfl⟩
    · rw [loadLoop, if_neg hp]
    · rw [stored_of_content hk]
      exact hk
  -- the first turn writes the default, the second one reads it
  | none =>
    have ha := hr.absent b h hk
    let b₀ := (read b).2.initNvsKeyPairDefault key
    have hread : Touches key b (read b).2 := (hr.reads b).touches key
    have hinit : Touches key (read b).2 b₀ := initNvsKeyPairDefault_touches key _
    have hcontent : b₀.nvs.content key = some (defaultVal key) :=
      (congrFun (NvsStore.updateNvsVal_content key (defaultVal key) _ (hread.sound h)) key).trans
        (Function.update_self _ _ _)
    have htouches := hread.trans hinit
    have hp : (read b₀).1 ≠ some .nvsNotFound :=
      hr.present b₀ (htouches.sound h) (by rw [hcontent]; exact nofun)
    refine ⟨b₀, ?_, (hr.reads b).ram, htouches, ?_, Or.inr ⟨rfl, rfl⟩⟩
    · rw [loadLoop, if_pos ha, loadLoop, if_neg hp]
    · rw [hcontent, stored, hk, Option.getD_none]

theorem loadAll_cons_iff {fuel : ℕ} {k : NvsKey} {keys : List NvsKey} {b b' : Board} :
    loadAll fuel (k :: keys) b = some b' ↔
      ∃ b₁, load k fuel b = some b₁ ∧ loadAll fuel keys b₁ = some b' := by
  rw [loadAll, List.foldlM_cons]
  exact Option.bind_eq_some_iff

theorem loadAll_append_iff {fuel : ℕ} {keys keys' : List NvsKey} {b b' : Board} :
    loadAll fuel (keys ++ keys') b = some b' ↔
      ∃ b₁, loadAll fuel keys b = some b₁ ∧ loadAll fuel keys' b₁ = some b' := by
  rw [loadAll, List.foldlM_append]
  exact Option.bind_eq_some_iff

/-- A block changes its own setting only, and a value that fits as `accepted` says. -/
structure Loaded (k : NvsKey) (b b' : Board) : Prop extends Touches k b b' where
  contentAt : Fits k (b.stored k) → b'.nvs.content k = some (b.stored k)
  valueAt : Fits k (b.stored k) →
    b'.ram.value k = b.accepted k (b.stored k) (b.ram.value k)

theorem accepted_congr {k : NvsKey} {b b' : Board} (h : Touches k b b') :
    b'.accepted = b.accepted := by
  unfold accepted addressable
  rw [h.initDone, h.up]

/-- A block is known by what its setter makes of a value that was just read. -/
theorem loadLoop_loaded {key : NvsKey} {read : Board → Option EspErr × Board}
    (hr : KeyRead key read) (use : Board → Board) (huse : ∀ b, Touches key b (use b))
    (hload : ∀ b v, b.nvs.Sound → b.nvs.content key = some v → Fits key v →
      (use (read b).2).nvs.content key = some v ∧
        (use (read b).2).ram.value key = b.accepted key v (b.ram.value key))
    (fuel : ℕ) (b : Board) (h : b.nvs.Sound) :
    ∃ b', loadLoop key read use (fuel + 2) b = some b' ∧ Loaded key b b' := by
  obtain ⟨b₀, hrun, hram, htouches, hcontent, -⟩ := loadLoop_run hr use fuel b h
  have hread : Touches key b (read b₀).2 := htouches.trans ((hr.reads b₀).touches key)
  refine ⟨_, hrun, hread.trans (huse _), fun hf => ?_, fun hf => ?_⟩
  · exact (hload b₀ _ (htouches.sound h) hcontent hf).1
  · have hval := (hload b₀ _ (htouches.sound h) hcontent hf).2
    rwa [accepted_congr htouches, hram] at hval

section data
variable (b : Board) (h : b.nvs.Sound)
include h

theorem load_str (key : NvsKey) {s : CString} (hk : b.nvs.content key = some (.str s))
    (hs : s.1.length + 1 < 256) :
    (readData NvsVal.strData key b).2.scratch.length % 256 = s.1.length + 1 ∧
      cString (readData NvsVal.strData key b).2.scratch.buf8 (s.1.length + 1) = s := by
  obtain ⟨hbuf, hlen⟩ := readData_val NvsVal.strData key b h hk rfl
  rw [hbuf, hlen, List.length_append, List.length_singleton, Nat.mod_eq_of_lt hs]
  exact ⟨rfl, Subtype.ext (cstr_store_nul _ s.2 (Nat.le_succ _))⟩

theorem load_blob (key : NvsKey) {bytes : List UInt8} {n : ℕ}
    (hk : b.nvs.content key = some (.blob bytes)) (hn : bytes.length = n) :
    take (readData NvsVal.blobData key b).2.scratch.buf8 n = bytes := by
  obtain ⟨hbuf, -⟩ := readData_val NvsVal.blobData key b h hk rfl
  rw [hbuf, ← hn, take_store]

end data

end Board

end BlizzardBridge
