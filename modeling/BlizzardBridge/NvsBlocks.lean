import BlizzardBridge.NvsLoadSpec

/-! The blocks of the loader in two halves: the read of a key into the scratch buffers, and
the setter that is given what the buffers hold then, whatever the read has answered. -/
namespace BlizzardBridge
open CArray

/-- The setting that the setter of a block is for. -/
def target : NvsKey → NvsKey
  | .gateway => .mac
  | k => k

namespace Board

theorem readOf_keyRead (k : NvsKey) (hk : k ≠ .ownUUID) : KeyRead k (readOf k) := by
  cases k <;> first
    | exact readU8_keyRead _
    | exact readU16_keyRead _
    | exact readData_keyRead _ _
    | exact absurd rfl hk

theorem readOf_reads (k : NvsKey) (b : Board) : Reads b (readOf k b).2 := by
  by_cases hk : k = .ownUUID
  · subst hk
    exact ⟨rfl, rfl, rfl, rfl, rfl⟩
  · exact (readOf_keyRead k hk).reads b

/-- The value that the setter of a block takes, out of the scratch buffers; `none` if it
refuses. -/
def offered (k : NvsKey) (b : Board) : Option NvsVal :=
  match k with
  | .dhcpEnable | .inputMode | .outputMode | .wifiManagerEnable => some (.u8 (b.scratch.buf8 0))
  | .ownAddress | .ownUniverse | .ownID => some (.u16 b.scratch.buf16)
  | .slots =>
    if DMX_MIN_SLOTS ≤ b.scratchSlots.toNat ∧ b.scratchSlots.toNat < DMX_MAX_SLOTS then
      some (.u16 b.scratchSlots)
    else none
  | .deviceName =>
    if b.scratch.length % 256 < NAME_MAX_LENGTH then
      some (.str (cString b.scratch.buf8 (b.scratch.length % 256)))
    else none
  | .ssid | .pass =>
    if b.scratch.length % 256 ≤ SSID_MAX_LENGTH + 2 then
      some (.str (cString b.scratch.buf8 (ssidVar.length (b.scratch.length % 256))))
    else none
  | .ownIPAddress | .ownNetmask =>
    if b.addressable then some (.blob (take b.scratch.buf8 4)) else none
  | .mac | .gateway => some (.blob (take b.scratch.buf8 6))
  | .ownUUID => none

/-- The numbers of the node are kept in RAM only, and so are the addresses before `INIT_DONE`. -/
def writesThrough (k : NvsKey) (b : Board) : Bool :=
  match k with
  | .ownAddress | .ownUniverse | .ownID | .slots => false
  | .ownIPAddress | .ownNetmask => b.initDone
  | _ => true

/-- What NVS takes of it. -/
def written (k : NvsKey) (b : Board) : Option NvsVal :=
  if writesThrough k b = true ∧ b.nvs.faults b.nvs.calls = none then offered k b else none

/-- What is taken is the value of the setting afterwards, and nothing else has changed. -/
structure Uses (k : NvsKey) (b b' : Board) : Prop extends Touches (target k) b b' where
  valueAt : b'.ram.value (target k) = (offered k b).or (b.ram.value (target k))
  contentAt : b'.nvs.content (target k) = (written k b).or (b.nvs.content (target k))

section uses
variable {k key : NvsKey} {v : NvsVal} {b b' : Board} (hk : target k = key)
include hk

theorem uses_of_refused (ho : offered k b = none) (h : Touches key b b')
    (hval : b'.ram.value key = b.ram.value key)
    (hcontent : b'.nvs.content key = b.nvs.content key) : Uses k b b' := by
  subst hk
  have hw : written k b = none := by rw [written, ho, ite_self]
  refine ⟨h, ?_, ?_⟩
  · rw [hval, ho, Option.none_or]
  · rw [hcontent, hw, Option.none_or]

theorem uses_of_ramOnly (ho : offered k b = some v) (hthru : writesThrough k b = false)
    (h : RamOnly key v b b') : Uses k b b' := by
  subst hk
  have hw : written k b = none := by rw [written, hthru, if_neg fun hc => Bool.false_ne_true hc.1]
  refine ⟨h.toTouches, ?_, ?_⟩
  · rw [h.valueAt, ho, Option.some_or]
  · rw [h.contentAt, hw, Option.none_or]

/-- RAM is changed first; the call of NVS is the next one. -/
theorem uses_of_write {c : Board} (ho : offered k b = some v) (hthru : writesThrough k b = true)
    (hc : RamOnly key v b c) (hcalls : c.nvs.calls = b.nvs.calls) :
    Uses k b (updateNvsVal key v c) := by
  subst hk
  refine ⟨hc.toTouches.trans (updateNvsVal_touches (target k) v c), ?_, ?_⟩
  · rw [ho, Option.some_or]
    exact hc.valueAt
  · rw [updateNvsVal_nvs, NvsStore.updateNvsVal_self, hc.faults, hcalls, written, ho, hthru, hc.contentAt]
    by_cases hf : b.nvs.faults b.nvs.calls = none
    · rw [if_pos hf, if_pos ⟨rfl, hf⟩, Option.some_or]
    · rw [if_neg hf, if_neg fun h => hf h.2, Option.none_or]

end uses

section kinds
variable (b : Board)

theorem byte_uses {k : NvsKey} (f : ByteVar) (hk : target k = f.key)
    (ho : offered k b = some (.u8 (b.scratch.buf8 0))) (hthru : writesThrough k b = true) :
    Uses k b (b.setByte f (b.scratch.buf8 0)) :=
  uses_of_write hk ho hthru (ramOnly_of_value (f.value_other _ _) (f.value_self _ _)) rfl

theorem word_uses {k : NvsKey} (f : WordVar) (hk : target k = f.key)
    (ho : offered k b = some (.u16 b.scratch.buf16)) (hthru : writesThrough k b = false) :
    Uses k b (b.setWord f b.scratch.buf16) :=
  uses_of_ramOnly hk ho hthru (setWord_ramOnly f _ b)

theorem mac_uses {k : NvsKey} (hk : target k = .mac)
    (ho : offered k b = some (.blob (take b.scratch.buf8 6))) (hthru : writesThrough k b = true) :
    Uses k b (b.setMac b.scratch.buf8) := by
  have hwrite := uses_of_write (c := { b with
    ram := { b.ram with mac := copyDown b.ram.mac b.scratch.buf8 6 } }) hk ho hthru ?_ rfl
  · exact hwrite
  · refine ramOnly_of_value (fun j hj => by cases j <;> first | rfl | exact absurd rfl hj) ?_
    exact congrArg (fun l => some (NvsVal.blob l)) (take_copyDown _ _ _)

theorem string_uses {k : NvsKey} (f : StringVar) (hk : target k = f.key)
    (ho : offered k b = if b.scratch.length % 256 ≤ f.max + 2 then
      some (.str (cString b.scratch.buf8 (f.length (b.scratch.length % 256)))) else none)
    (hthru : writesThrough k b = true) :
    Uses k b (b.setString f b.scratch.buf8 (b.scratch.length % 256)) := by
  by_cases hlen : b.scratch.length % 256 ≤ f.max + 2
  · rw [if_pos hlen] at ho
    rw [setString_eq f _ _ b hlen]
    refine uses_of_write hk ho hthru (ramOnly_of_value (f.value_other _ _) ?_) rfl
    rw [f.value_self, cString_putStr f _ _ _ hlen]
  · rw [if_neg hlen] at ho
    rw [setString_refuses f _ _ b (Nat.not_le.mp hlen)]
    exact uses_of_refused hk ho (Touches.refl _ b) rfl rfl

theorem name_uses : Uses .deviceName b (b.setName b.scratch.buf8 (b.scratch.length % 256)) := by
  by_cases hlen : b.scratch.length % 256 < NAME_MAX_LENGTH
  · have ho : offered .deviceName b =
        some (.str (cString b.scratch.buf8 (b.scratch.length % 256))) := if_pos hlen
    rw [setName_eq _ _ b hlen]
    refine uses_of_write rfl ho rfl (ramOnly_of_value ?_ ?_) rfl
    · exact fun j hj => by cases j <;> first | rfl | exact absurd rfl hj
    · exact congrArg (fun s => some (NvsVal.str s)) (cString_putName _ _ _ hlen)
  · have ho : offered .deviceName b = none := if_neg hlen
    rw [setName_refuses _ _ b (Nat.not_lt.mp hlen)]
    exact uses_of_refused rfl ho (Touches.refl _ b) rfl rfl

theorem address_uses {k : NvsKey} (f : AddressVar) (hk : target k = f.key)
    (ho : offered k b = if b.addressable then some (.blob (take b.scratch.buf8 4)) else none)
    (hthru : writesThrough k b = b.initDone) : Uses k b (b.setAddress f b.scratch.buf8) := by
  unfold addressable at ho
  cases hinit : b.initDone with
  | false =>
    rw [hinit, Bool.not_false, Bool.true_or, if_pos rfl] at ho
    exact uses_of_ramOnly hk ho (hthru.trans hinit) (setAddress_early f _ b hinit)
  | true =>
    rw [hinit, Bool.not_true, Bool.false_or] at ho
    cases hup : b.netif.up with
    | false =>
      rw [hup, if_neg Bool.false_ne_true] at ho
      rw [setAddress_down f _ b hinit hup]
      exact uses_of_refused hk ho (Touches.refl _ b) rfl rfl
    | true =>
      rw [hup, if_pos rfl] at ho
      rw [setAddress_eq f _ b hinit hup]
      refine uses_of_write hk ho (hthru.trans hinit) ?_ rfl
      exact ⟨⟨f.value_other _ _, fun _ _ => rfl, rfl, rfl, rfl⟩, address_value f _ _ _, rfl⟩

theorem slots_uses : Uses .slots b
    ({ b with scratch := { b.scratch with buf16 := b.scratchSlots } }.setSlots b.scratchSlots) := by
  let b₁ : Board := { b with scratch := { b.scratch with buf16 := b.scratchSlots } }
  by_cases hrange : DMX_MIN_SLOTS ≤ b.scratchSlots.toNat ∧ b.scratchSlots.toNat < DMX_MAX_SLOTS
  · have ho : offered .slots b = some (.u16 b.scratchSlots) := if_pos hrange
    have hs := setSlots_ramOnly b.scratchSlots b₁ hrange.1 hrange.2
    exact uses_of_ramOnly rfl ho rfl ⟨⟨hs.value, hs.content, hs.faults, hs.initDone, hs.up⟩,
      hs.valueAt, hs.contentAt⟩
  · have ho : offered .slots b = none := if_neg hrange
    have hs : b₁.setSlots b.scratchSlots = b₁ := setSlots_refuses b.scratchSlots b₁ (by omega)
    rw [hs]
    exact uses_of_refused rfl ho ⟨fun _ _ => rfl, fun _ _ => rfl, rfl, rfl, rfl⟩ rfl rfl

theorem useOf_uses (k : NvsKey) : Uses k b (useOf k b) := by
  cases k with
  | dhcpEnable => exact byte_uses b dhcpEnableVar rfl rfl rfl
  | inputMode => exact byte_uses b inputModeVar rfl rfl rfl
  | outputMode => exact byte_uses b outputModeVar rfl rfl rfl
  | wifiManagerEnable => exact byte_uses b wifiManagerEnableVar rfl rfl rfl
  | ownAddress => exact word_uses b ownAddressVar rfl rfl rfl
  | ownUniverse => exact word_uses b ownUniverseVar rfl rfl rfl
  | ownID => exact word_uses b ownIDVar rfl rfl rfl
  | slots => exact slots_uses b
  | deviceName => exact name_uses b
  | ssid => exact string_uses b ssidVar rfl rfl rfl
  | pass => exact string_uses b passVar rfl rfl rfl
  | ownIPAddress => exact address_uses b ipAddressVar rfl rfl rfl
  | ownNetmask => exact address_uses b netmaskVar rfl rfl rfl
  | mac => exact mac_uses b rfl rfl rfl
  | gateway => exact mac_uses b rfl rfl rfl
  | ownUUID => exact uses_of_refused rfl rfl (Touches.refl _ b) rfl rfl

end kinds

end Board

end BlizzardBridge
