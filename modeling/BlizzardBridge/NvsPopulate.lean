import BlizzardBridge.NvsRestore

/-! When the loader is right. Both results turn on the block of the gateway: RAM is
right when the gateway was already in place and the MAC address begins with it, and
NVS is kept when no MAC address was stored or it begins with the gateway. -/
namespace BlizzardBridge
open CArray

namespace Board

def numberKeys : List NvsKey :=
  [.dhcpEnable, .inputMode, .outputMode, .wifiManagerEnable, .ownAddress, .ownUniverse, .slots,
    .ownID, .ownIPAddress, .ownNetmask, .gateway, .mac]

/-- The value that RAM should hold: 513 slots count as 512. -/
def asLoaded (k : NvsKey) (v : NvsVal) : NvsVal :=
  if k = .slots ∧ v = .u16 513 then .u16 512 else v

/-- The MAC address begins with the four bytes of the gateway. -/
def MacBeginsWithGateway (b : Board) : Prop :=
  ∃ m g, b.stored .mac = .blob m ∧ b.stored .gateway = .blob g ∧ m.take 4 = g

theorem stored_fits {b : Board} {k : NvsKey} (hk : k ≠ .ownUUID)
    (hfit : ∀ v, b.nvs.content k = some v → Fits k v) : Fits k (b.stored k) := by
  cases hc : b.nvs.content k with
  | none => rw [stored, hc]; exact defaultVal_fits k hk
  | some v => rw [stored, hc]; exact hfit v hc

theorem macBeginsWithGateway_iff {b : Board} {m g : List UInt8} (hm : b.stored .mac = .blob m)
    (hg : b.stored .gateway = .blob g) (hlen : g.length = 4) :
    b.MacBeginsWithGateway ↔ g ++ m.drop 4 = m := by
  constructor
  · rintro ⟨m', g', hm', hg', htake⟩
    obtain rfl : m = m' := NvsVal.blob.inj (hm.symm.trans hm')
    obtain rfl : g = g' := NvsVal.blob.inj (hg.symm.trans hg')
    rw [← htake, List.take_append_drop]
  · intro heq
    refine ⟨m, g, hm, hg, ?_⟩
    rw [← heq, List.take_left' hlen]

theorem accepted_eq (b : Board) (k : NvsKey) (v : NvsVal) (old : Option NvsVal)
    (hk : k ∈ numberKeys) (hf : Fits k v) (hi : b.initDone = false)
    (hslots : ∀ n, v = .u16 n → k = .slots → DMX_MIN_SLOTS ≤ n.toNat ∧ n.toNat ≤ DMX_MAX_SLOTS) :
    b.accepted k v old = some (asLoaded k v) := by
  have haddr : b.addressable = true := by rw [addressable, hi]; rfl
  cases k with
  | slots =>
    cases v with
    | u16 n =>
      obtain ⟨hmin, hmax⟩ := hslots n rfl rfl
      by_cases hn : n = 513
      · rw [hn]
        rfl
      · have hne : n.toNat ≠ DMX_MAX_SLOTS := fun he => hn (UInt16.toNat_inj.mp he)
        have hlt : n.toNat < DMX_MAX_SLOTS := Nat.lt_of_le_of_ne hmax hne
        have hload : asLoaded .slots (.u16 n) = .u16 n :=
          if_neg fun hc => hn (NvsVal.u16.inj hc.2)
        simp only [accepted, hne, if_false, hmin, hlt, and_self, if_true, hload]
    | _ => cases hf
  | ownIPAddress => simp only [accepted, haddr, if_true, asLoaded, reduceCtorEq, false_and, if_false]
  | ownNetmask => simp only [accepted, haddr, if_true, asLoaded, reduceCtorEq, false_and, if_false]
  | deviceName => exact absurd hk (by decide)
  | ssid => exact absurd hk (by decide)
  | pass => exact absurd hk (by decide)
  | _ => simp only [accepted, asLoaded, reduceCtorEq, false_and, if_false]

/-- At boot every setting is loaded as it is stored exactly when the variable of the
gateway holds the gateway already and the MAC address begins with it. -/
theorem populate_loads_iff (b : Board) (h : b.nvs.Sound) (hi : b.initDone = false)
    (hfit : ∀ k ∈ numberKeys, ∀ v, b.nvs.content k = some v → Fits k v)
    (hslots : ∀ n, b.nvs.content .slots = some (.u16 n) →
      DMX_MIN_SLOTS ≤ n.toNat ∧ n.toNat ≤ DMX_MAX_SLOTS) (fuel : ℕ) :
    ∃ b', populateAllDmxNvsValues (fuel + 2) b = some b' ∧
      ((∀ k ∈ numberKeys, b'.ram.value k = some (asLoaded k (b.stored k))) ↔
        b.ram.value .gateway = some (b.stored .gateway) ∧ b.MacBeginsWithGateway) := by
  have hfits (k : NvsKey) (hk : k ∈ numberKeys) : Fits k (b.stored k) :=
    stored_fits (fun he => absurd (he ▸ hk) (by decide)) (hfit k hk)
  obtain ⟨m, hm, hmlen⟩ := Fits.blob (n := 6) rfl rfl (hfits .mac (by decide))
  obtain ⟨g, hg, hglen⟩ := Fits.blob (n := 4) rfl rfl (hfits .gateway (by decide))
  obtain ⟨b', hrun, hb'⟩ := populate_restored fuel b h hm hmlen hg hglen
  have hrange (n : UInt16) (hs : b.stored .slots = .u16 n) :
      DMX_MIN_SLOTS ≤ n.toNat ∧ n.toNat ≤ DMX_MAX_SLOTS := by
    cases hc : b.nvs.content .slots with
    | some v => exact hslots n (by rw [hc, ← hs, stored, hc]; rfl)
    | none =>
      rw [stored, hc] at hs
      cases hs
      decide
  refine ⟨b', hrun, ?_⟩
  rw [macBeginsWithGateway_iff hm hg hglen]
  -- the gateway and the MAC address are the settings that a load can get wrong
  constructor
  · intro hall
    have hgw := hall .gateway (by decide)
    have hmac := hall .mac (by decide)
    rw [hb'.valueGateway] at hgw
    rw [hb'.valueMac, hm] at hmac
    exact ⟨hgw, NvsVal.blob.inj (Option.some.inj hmac)⟩
  · rintro ⟨hgw, hmac⟩ k hk
    by_cases hkm : k = .mac
    · rw [hkm, hb'.valueMac, hmac, hm]
      rfl
    by_cases hkg : k = .gateway
    · rw [hkg, hb'.valueGateway, hgw]
      rfl
    have hload : k ∈ loadOrder := by
      cases k <;> first | decide | exact absurd hk (by decide) | contradiction
    rw [hb'.valueAt k hload (hfits k hk)]
    exact accepted_eq b k _ _ hk (hfits k hk) hi fun n hn hs => hrange n (hs ▸ hn)

def matching : Board :=
  let b := reset (storage fun k =>
    if k = .mac then some (.blob [1, 1, 168, 192, 5, 6]) else none) station
  { b with ram := { b.ram with gateway := store (fun _ => 0) 0 [1, 1, 168, 192] } }

theorem populate_loads_matching :
    ∃ b', populateAllDmxNvsValues 2 matching = some b' ∧
      ∀ k ∈ numberKeys, b'.ram.value k = some (asLoaded k (matching.stored k)) := by
  have hfit : ∀ k ∈ numberKeys, ∀ v, matching.nvs.content k = some v → Fits k v := by
    intro k _ v hv
    cases k <;> cases hv
    rfl
  obtain ⟨b', hrun, hiff⟩ := populate_loads_iff matching (fun _ => rfl) rfl hfit nofun 0
  exact ⟨b', hrun, hiff.mpr ⟨rfl, _, _, rfl, rfl, rfl⟩⟩

/-- At the first boot, with nothing stored, RAM has no gateway. -/
theorem populate_misses_gateway :
    ¬ ∀ b : Board, b.nvs.Sound → b.initDone = false →
      (∀ k ∈ numberKeys, ∀ v, b.nvs.content k = some v → Fits k v) →
      (∀ n, b.nvs.content .slots = some (.u16 n) →
        DMX_MIN_SLOTS ≤ n.toNat ∧ n.toNat ≤ DMX_MAX_SLOTS) →
      ∀ fuel b', populateAllDmxNvsValues fuel b = some b' →
        ∀ k ∈ numberKeys, b'.ram.value k = some (asLoaded k (b.stored k)) := by
  intro hall
  let b := reset (storage fun _ => none) station
  obtain ⟨b', hrun, hb'⟩ := populate_restored 0 b (fun _ => rfl) rfl rfl rfl rfl
  have hgw := hall b (fun _ => rfl) rfl nofun nofun 2 b' hrun .gateway (by decide)
  have hzero : some (NvsVal.blob [0, 0, 0, 0]) = some (.blob [1, 1, 168, 192]) :=
    hb'.valueGateway.symm.trans hgw
  exact absurd hzero (by decide)

theorem accepted_idem (b : Board) (k : NvsKey) (v : NvsVal) (old : Option NvsVal) :
    b.accepted k v (b.accepted k v old) = b.accepted k v old := by
  cases k <;> cases v <;> simp only [accepted] <;> split_ifs <;> rfl

theorem key_cases (k : NvsKey) : k ∈ loadOrder ∨ k = .mac ∨ k = .gateway ∨ k = .ownUUID := by
  cases k <;> decide

/-- A second load finds every key stored and changes nothing. -/
theorem restored_twice {b b' b'' : Board} {m g : List UInt8}
    (hfit : ∀ k, k ≠ .ownUUID → Fits k (b.stored k)) (hglen : g.length = 4)
    (h : Restored m g b b') (h' : Restored (g ++ m.drop 4) g b' b'') :
    b''.nvs.content = b'.nvs.content ∧ ∀ k, b''.ram.value k = b'.ram.value k := by
  have hdrop : g ++ (g ++ m.drop 4).drop 4 = g ++ m.drop 4 := by rw [List.drop_left' hglen]
  have hu {k : NvsKey} (hk : k ∈ loadOrder) : k ≠ .ownUUID := by
    rintro rfl
    exact absurd hk (by decide)
  have hstored {k : NvsKey} (hk : k ∈ loadOrder) : b'.stored k = b.stored k := by
    rw [stored_of_content (h.contentAt k hk (hfit k (hu hk)))]
  -- by kinds of keys: those of sound blocks, the MAC address, the gateway, and the unused one
  constructor
  · funext k
    rcases key_cases k with hk | rfl | rfl | rfl
    · have hf := hfit k (hu hk)
      rw [h.contentAt k hk hf, ← hstored hk]
      exact h'.contentAt k hk (hstored hk ▸ hf)
    · rw [h'.contentMac, h.contentMac, hdrop]
    · rw [h'.contentGateway, h.contentGateway]
    · rw [h'.contentUUID]
  · intro k
    rcases key_cases k with hk | rfl | rfl | rfl
    · have hf := hfit k (hu hk)
      have hf' : Fits k (b'.stored k) := by rwa [hstored hk]
      have hacc : b'.accepted = b.accepted := by
        unfold accepted addressable
        rw [h.initDone, h.up]
      rw [h'.valueAt k hk hf', hstored hk, hacc, h.valueAt k hk hf, accepted_idem]
    · rw [h'.valueMac, h.valueMac, hdrop]
    · rw [h'.valueGateway]
    · rfl

/-- The loader keeps every stored value exactly when no MAC address was stored or it
begins with the gateway; a second load never changes anything. -/
theorem populate_keeps_iff (b : Board) (h : b.nvs.Sound)
    (hfit : ∀ k v, k ≠ .ownUUID → b.nvs.content k = some v → Fits k v) (fuel fuel' : ℕ) :
    ∃ b' b'', populateAllDmxNvsValues (fuel + 2) b = some b' ∧
      populateAllDmxNvsValues (fuel' + 2) b' = some b'' ∧
      b''.nvs.content = b'.nvs.content ∧ (∀ k, b''.ram.value k = b'.ram.value k) ∧
      ((∀ k v, b.nvs.content k = some v → b'.nvs.content k = some v) ↔
        b.nvs.content .mac = none ∨ b.MacBeginsWithGateway) := by
  have hfits (k : NvsKey) (hk : k ≠ .ownUUID) : Fits k (b.stored k) :=
    stored_fits hk fun v hv => hfit k v hk hv
  obtain ⟨m, hm, hmlen⟩ := Fits.blob (n := 6) rfl rfl (hfits .mac (by decide))
  obtain ⟨g, hg, hglen⟩ := Fits.blob (n := 4) rfl rfl (hfits .gateway (by decide))
  obtain ⟨b', hrun, hb'⟩ := populate_restored fuel b h hm hmlen hg hglen
  have hm' : b'.stored .mac = .blob (g ++ m.drop 4) := stored_of_content hb'.contentMac
  have hg' : b'.stored .gateway = .blob g := stored_of_content hb'.contentGateway
  have hmlen' : (g ++ m.drop 4).length = 6 := by
    rw [List.length_append, List.length_drop, hglen, hmlen]
  obtain ⟨b'', hrun', hb''⟩ := populate_restored fuel' b' hb'.sound hm' hmlen' hg' hglen
  obtain ⟨hcontent, hvalue⟩ := restored_twice hfits hglen hb' hb''
  refine ⟨b', b'', hrun, hrun', hcontent, hvalue, ?_⟩
  rw [macBeginsWithGateway_iff hm hg hglen]
  -- a key that was present is stored as it was
  constructor
  · intro hkeep
    cases hc : b.nvs.content .mac with
    | none => exact Or.inl rfl
    | some v =>
      obtain rfl := hm.symm.trans (stored_of_content hc)
      have hmac := hkeep .mac _ hc
      rw [hb'.contentMac] at hmac
      exact Or.inr (NvsVal.blob.inj (Option.some.inj hmac))
  · intro hmac k v hv
    rcases key_cases k with hk | rfl | rfl | rfl
    · have hu : k ≠ .ownUUID := by
        rintro rfl
        exact absurd hk (by decide)
      rw [hb'.contentAt k hk (hfits k hu), stored_of_content hv]
    · rcases hmac with hnone | heq
      · rw [hnone] at hv
        cases hv
      · rw [hb'.contentMac, heq, ← hm, stored_of_content hv]
    · rw [hb'.contentGateway, ← hg, stored_of_content hv]
    · rw [hb'.contentUUID, hv]

theorem populate_keeps_matching :
    ∃ b' b'', populateAllDmxNvsValues 2 matching = some b' ∧
      populateAllDmxNvsValues 2 b' = some b'' ∧ b''.nvs.content = b'.nvs.content ∧
      ∀ k v, matching.nvs.content k = some v → b'.nvs.content k = some v := by
  have hfit : ∀ k v, k ≠ .ownUUID → matching.nvs.content k = some v → Fits k v := by
    intro k v _ hv
    cases k <;> cases hv
    rfl
  obtain ⟨b', b'', hrun, hrun', hcontent, -, hiff⟩ :=
    populate_keeps_iff matching (fun _ => rfl) hfit 0 0
  exact ⟨b', b'', hrun, hrun', hcontent, hiff.mpr (Or.inr ⟨_, _, rfl, rfl, rfl⟩)⟩

def ownMac : Board :=
  reset (storage fun k => if k = .mac then some (.blob [2, 3, 5, 7, 11, 13]) else none) station

/-- The stored MAC address is destroyed at boot. -/
theorem populate_destroys_mac :
    ¬ ∀ b : Board, b.nvs.Sound →
      (∀ k v, k ≠ .ownUUID → b.nvs.content k = some v → Fits k v) →
      ∀ fuel b', populateAllDmxNvsValues fuel b = some b' →
        ∀ k v, b.nvs.content k = some v → b'.nvs.content k = some v := by
  intro hall
  have hfit : ∀ k v, k ≠ .ownUUID → ownMac.nvs.content k = some v → Fits k v := by
    intro k v _ hv
    cases k <;> cases hv
    rfl
  obtain ⟨b', hrun, hb'⟩ := populate_restored 0 ownMac (fun _ => rfl) rfl rfl rfl rfl
  have hkept := hall ownMac (fun _ => rfl) hfit 2 b' hrun .mac (.blob [2, 3, 5, 7, 11, 13]) rfl
  rw [hb'.contentMac] at hkept
  exact absurd hkept (by decide)

end Board

end BlizzardBridge
