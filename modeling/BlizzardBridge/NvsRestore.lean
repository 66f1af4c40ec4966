import BlizzardBridge.NvsBlocks

/-! The whole load. The blocks before that of the gateway load what is stored; the
gateway overwrites the first four bytes of the MAC address, in RAM and in NVS. -/
namespace BlizzardBridge
open CArray

namespace Board

theorem string_read (f : StringVar) (b : Board) (h : b.nvs.Sound) {s : CString}
    (hk : b.nvs.content f.key = some (.str s)) (hle : s.1.length ≤ f.max + 2) (old : Option NvsVal) :
    let r := (readData NvsVal.strData f.key b).2
    (if r.scratch.length % 256 ≤ f.max + 2 then
      some (NvsVal.str (cString r.scratch.buf8 (f.length (r.scratch.length % 256)))) else none).or old =
        if s.1.length + 1 ≤ f.max + 2 then some (.str s) else old := by
  intro r
  have hlt : s.1.length + 1 < 256 := by
    have hmax := f.max_lt
    omega
  obtain ⟨hlen, hstr⟩ := load_str b h f.key hk hlt
  have hdefault : f.length (s.1.length + 1) = s.1.length + 1 := if_neg (Nat.succ_ne_zero _)
  change Option.or (if (readData NvsVal.strData f.key b).2.scratch.length % 256 ≤ _ then _ else _)
    old = _
  rw [hlen, hdefault, hstr]
  split <;> rfl

theorem address_read (k : NvsKey) (b : Board) (h : b.nvs.Sound) {bytes : List UInt8}
    (hk : b.nvs.content k = some (.blob bytes)) (hlen : bytes.length = 4) (old : Option NvsVal) :
    let r := (readData NvsVal.blobData k b).2
    (if r.addressable then some (NvsVal.blob (take r.scratch.buf8 4)) else none).or old =
      if b.addressable then some (.blob bytes) else old := by
  intro r
  have hread := (readData_keyRead NvsVal.blobData k).reads b
  have haddr : r.addressable = b.addressable := by
    unfold addressable
    rw [hread.initDone, hread.netif]
  rw [haddr, load_blob b h k hk hlen]
  split <;> rfl

/-- 513 slots count the start byte and are set as 512; other values are set if in range. -/
theorem slots_read (b : Board) (h : b.nvs.Sound) {n : UInt16}
    (hk : b.nvs.content .slots = some (.u16 n)) (old : Option NvsVal) :
    (offered .slots (readOf .slots b).2).or old = b.accepted .slots (.u16 n) old := by
  have hval : (readU16 .slots b).2.scratch.buf16 = n := readU16_val .slots b h hk
  have hslots : (readOf .slots b).2.scratchSlots = if n.toNat = DMX_MAX_SLOTS then n - 1 else n := by
    rw [← hval]
    rfl
  unfold offered accepted
  rw [hslots]
  by_cases hmax : n.toNat = DMX_MAX_SLOTS
  · have hn : n = 513 := UInt16.toNat_inj.mp hmax
    subst hn
    rfl
  · simp only [hmax, if_false]
    split <;> rfl

/-- The length is that of the copy, terminator included, and fits into a byte. -/
theorem name_read (b : Board) (h : b.nvs.Sound) {s : CString}
    (hk : b.nvs.content .deviceName = some (.str s)) (hlen : s.1.length < NAME_MAX_LENGTH)
    (old : Option NvsVal) :
    (offered .deviceName (readOf .deviceName b).2).or old = b.accepted .deviceName (.str s) old := by
  have hlt : s.1.length + 1 < 256 := by
    unfold NAME_MAX_LENGTH at hlen
    omega
  obtain ⟨hlength, hstr⟩ : (readOf .deviceName b).2.scratch.length % 256 = s.1.length + 1 ∧
      cString (readOf .deviceName b).2.scratch.buf8 (s.1.length + 1) = s :=
    load_str b h .deviceName hk hlt
  simp only [offered, accepted, hlength, hstr]
  split <;> rfl

/-- A stored value that fits is what the setter is offered, if it takes it. -/
theorem offered_read (k : NvsKey) (hg : k ≠ .gateway) (b : Board) (h : b.nvs.Sound) {v : NvsVal}
    (hk : b.nvs.content k = some v) (hv : Fits k v) (old : Option NvsVal) :
    (offered k (readOf k b).2).or old = b.accepted k v old := by
  cases k with
  | dhcpEnable | inputMode | outputMode | wifiManagerEnable =>
    obtain ⟨x, rfl⟩ := Fits.u8 rfl hv
    exact congrArg (fun y => some (NvsVal.u8 y)) (readU8_val _ b h hk)
  | ownAddress | ownUniverse | ownID =>
    obtain ⟨x, rfl⟩ := Fits.u16 rfl hv
    exact congrArg (fun y => some (NvsVal.u16 y)) (readU16_val _ b h hk)
  | slots =>
    obtain ⟨n, rfl⟩ := Fits.u16 rfl hv
    exact slots_read b h hk old
  | deviceName =>
    cases v with
    | str s => exact name_read b h hk hv old
    | _ => cases hv
  | ssid =>
    obtain ⟨s, rfl, hle⟩ := Fits.str (Or.inl rfl) hv
    exact string_read ssidVar b h hk hle old
  | pass =>
    obtain ⟨s, rfl, hle⟩ := Fits.str (Or.inr rfl) hv
    exact string_read passVar b h hk hle old
  | ownIPAddress | ownNetmask =>
    obtain ⟨bytes, rfl, hlen⟩ := Fits.blob (n := 4) rfl rfl hv
    exact address_read _ b h hk hlen old
  | mac =>
    obtain ⟨bytes, rfl, hlen⟩ := Fits.blob (n := 6) rfl rfl hv
    exact congrArg (fun l => some (NvsVal.blob l)) (load_blob b h .mac hk hlen)
  | gateway => exact absurd rfl hg
  | ownUUID => cases v <;> cases hv

theorem accepted_none (b : Board) {k : NvsKey} (hk : k ≠ .slots) (v : NvsVal) :
    (b.accepted k v none).or (some v) = some v := by
  cases k <;> first
    | exact absurd rfl hk
    | (cases v <;> simp only [accepted] <;> (try split) <;> rfl)

theorem written_read (k : NvsKey) (hg : k ≠ .gateway) (b : Board) (h : b.nvs.Sound) {v : NvsVal}
    (hk : b.nvs.content k = some v) (hv : Fits k v) :
    (written k (readOf k b).2).or (some v) = some v := by
  have hoff := offered_read k hg b h hk hv none
  rw [Option.or_none] at hoff
  unfold written
  split_ifs with hthru
  · have hslots : k ≠ .slots := by
      rintro rfl
      cases hthru.1
    rw [hoff]
    exact accepted_none b hslots v
  · rfl

/-- Every block but that of the gateway loads its own setting. -/
theorem load_loaded (k : NvsKey) (hg : k ≠ .gateway) (hu : k ≠ .ownUUID) (fuel : ℕ) (b : Board)
    (h : b.nvs.Sound) : ∃ b', load k (fuel + 2) b = some b' ∧ Loaded k b b' := by
  have htarget : target k = k := by cases k <;> first | rfl | exact absurd rfl hg
  apply loadLoop_loaded (readOf_keyRead k hu) (useOf k)
  · intro b
    have huse := (useOf_uses b k).toTouches
    rwa [htarget] at huse
  · intro b v h hk hv
    have hread := readOf_reads k b
    have huse := useOf_uses (readOf k b).2 k
    have hvalue := huse.valueAt
    have hcontent := huse.contentAt
    rw [htarget, hread.ram, offered_read k hg b h hk hv] at hvalue
    rw [htarget, hread.content, hk, written_read k hg b h hk hv] at hcontent
    exact ⟨hcontent, hvalue⟩
  · exact h

/-- What a run of blocks has done: each setting of the list is loaded, the others are as before. -/
structure LoadedAll (keys : List NvsKey) (b b' : Board) : Prop where
  sound : b'.nvs.Sound
  initDone : b'.initDone = b.initDone
  up : b'.netif.up = b.netif.up
  valueOther : ∀ j ∉ keys, b'.ram.value j = b.ram.value j
  contentOther : ∀ j ∉ keys, b'.nvs.content j = b.nvs.content j
  contentAt : ∀ j ∈ keys, Fits j (b.stored j) → b'.nvs.content j = some (b.stored j)
  valueAt : ∀ j ∈ keys, Fits j (b.stored j) →
    b'.ram.value j = b.accepted j (b.stored j) (b.ram.value j)

theorem loadAll_loaded (fuel : ℕ) (keys : List NvsKey) (hn : keys.Nodup)
    (hg : .gateway ∉ keys) (hu : .ownUUID ∉ keys) (b : Board) (h : b.nvs.Sound) :
    ∃ b', loadAll (fuel + 2) keys b = some b' ∧ LoadedAll keys b b' := by
  -- the blocks of other keys neither read nor write the setting of this one
  induction keys generalizing b with
  | nil => exact ⟨b, rfl, h, rfl, rfl, fun _ _ => rfl, fun _ _ => rfl, nofun, nofun⟩
  | cons k keys ih =>
    obtain ⟨hk, hn⟩ := List.nodup_cons.mp hn
    have hkg : k ≠ .gateway := fun he => hg (he ▸ List.mem_cons_self)
    have hku : k ≠ .ownUUID := fun he => hu (he ▸ List.mem_cons_self)
    obtain ⟨b₁, hrun₁, h₁⟩ := load_loaded k hkg hku fuel b h
    obtain ⟨b₂, hrun₂, h₂⟩ := ih hn (fun hm => hg (List.mem_cons_of_mem k hm))
      (fun hm => hu (List.mem_cons_of_mem k hm)) b₁ (h₁.sound h)
    have hstored (j : NvsKey) (hj : j ≠ k) : b₁.stored j = b.stored j := by
      rw [stored, h₁.content j hj, stored]
    refine ⟨b₂, ?_, h₂.sound, h₂.initDone.trans h₁.initDone, h₂.up.trans h₁.up, ?_, ?_, ?_, ?_⟩
    · exact loadAll_cons_iff.mpr ⟨b₁, hrun₁, hrun₂⟩
    · intro j hj
      obtain ⟨hjk, hjs⟩ := not_or.mp (mt List.mem_cons.mpr hj)
      rw [h₂.valueOther j hjs, h₁.value j hjk]
    · intro j hj
      obtain ⟨hjk, hjs⟩ := not_or.mp (mt List.mem_cons.mpr hj)
      rw [h₂.contentOther j hjs, h₁.content j hjk]
    · intro j hj hf
      rcases List.mem_cons.mp hj with rfl | hjs
      · rw [h₂.contentOther j hk, h₁.contentAt hf]
      · have hjk : j ≠ k := fun he => hk (he ▸ hjs)
        rw [← hstored j hjk] at hf ⊢
        exact h₂.contentAt j hjs hf
    · intro j hj hf
      rcases List.mem_cons.mp hj with rfl | hjs
      · rw [h₂.valueOther j hk, h₁.valueAt hf]
      · have hjk : j ≠ k := fun he => hk (he ▸ hjs)
        rw [← hstored j hjk] at hf ⊢
        rw [h₂.valueAt j hjs hf, accepted_congr h₁.toTouches, h₁.value j hjk]

theorem take_six (a : Bytes) : take a 6 = [a 0, a 1, a 2, a 3] ++ [a 4, a 5] := rfl

theorem load_mac_scratch (fuel : ℕ) (b b' : Board) (h : b.nvs.Sound)
    (hrun : load .mac (fuel + 2) b = some b') {m : List UInt8} (hm : b.stored .mac = .blob m)
    (hlen : m.length = 6) : take b'.scratch.buf8 6 = m := by
  obtain ⟨b₀, hrun₀, -, htouches, hcontent, -⟩ :=
    loadLoop_run (readData_keyRead NvsVal.blobData .mac) (fun b => b.setMac b.scratch.buf8) fuel b h
  have heq := Option.some.inj (hrun.symm.trans hrun₀)
  rw [hm] at hcontent
  rw [heq]
  exact load_blob b₀ (htouches.sound h) .mac hcontent hlen

/-- The gateway is stored under its own key and handed to the MAC address, whose last
two bytes are what the scratch buffer has held before. -/
structure GatewayLoaded (g : List UInt8) (b b' : Board) : Prop where
  sound : b'.nvs.Sound
  initDone : b'.initDone = b.initDone
  up : b'.netif.up = b.netif.up
  valueMac : b'.ram.value .mac = some (.blob (g ++ [b.scratch.buf8 4, b.scratch.buf8 5]))
  contentMac : b'.nvs.content .mac = some (.blob (g ++ [b.scratch.buf8 4, b.scratch.buf8 5]))
  contentGateway : b'.nvs.content .gateway = some (.blob g)
  valueOther : ∀ j ≠ .mac, b'.ram.value j = b.ram.value j
  contentOther : ∀ j ≠ .mac, j ≠ .gateway → b'.nvs.content j = b.nvs.content j

theorem load_gateway (fuel : ℕ) (b : Board) (h : b.nvs.Sound) {g : List UInt8}
    (hg : b.stored .gateway = .blob g) (hlen : g.length = 4) :
    ∃ b', load .gateway (fuel + 2) b = some b' ∧ GatewayLoaded g b b' := by
  have hr := readData_keyRead NvsVal.blobData .gateway
  obtain ⟨b₀, hrun, hram, htouches, hcontent, hb₀⟩ :=
    loadLoop_run hr (fun b => b.setMac b.scratch.buf8) fuel b h
  rw [hg] at hcontent
  let r := (readData NvsVal.blobData .gateway b₀).2
  have hread : Touches .gateway b r := htouches.trans ((hr.reads b₀).touches .gateway)
  have hs := setMac_persists r.scratch.buf8 r
  -- four bytes are written, by the read and perhaps before it by the default
  have hkeep (i : ℕ) (hi : 4 ≤ i) : b₀.scratch.buf8 i = b.scratch.buf8 i := by
    rcases hb₀ with rfl | ⟨hnone, rfl⟩
    · rfl
    · have hbuf : (readData NvsVal.blobData .gateway b).2.scratch.buf8 = b.scratch.buf8 := by
        rw [readData, NvsStore.readData_absent .gateway b.nvs NvsVal.blobData _ _ h hnone]
      change store (readData NvsVal.blobData .gateway b).2.scratch.buf8 0 _ i = _
      rw [hbuf, store_of_ge _ _ (by exact hi)]
  have hbuf := (readData_val NvsVal.blobData .gateway b₀ (htouches.sound h) hcontent rfl).1
  have hlast (i : ℕ) (hi : 4 ≤ i) : r.scratch.buf8 i = b.scratch.buf8 i := by
    rw [← hkeep i hi]
    change (readData NvsVal.blobData .gateway b₀).2.scratch.buf8 i = _
    rw [hbuf, store_of_ge _ _ (by omega)]
  have hfirst : take r.scratch.buf8 4 = g :=
    load_blob b₀ (htouches.sound h) .gateway hcontent hlen
  have hmac : take r.scratch.buf8 6 = g ++ [b.scratch.buf8 4, b.scratch.buf8 5] := by
    rw [take_six, hlast 4 le_rfl, hlast 5 (by omega), ← hfirst]
    rfl
  have hrc : r.nvs.content .gateway = some (.blob g) :=
    (congrFun (hr.reads b₀).content .gateway).trans hcontent
  have hrv : r.ram = b.ram := (hr.reads b₀).ram.trans hram
  refine ⟨_, hrun, hs.sound (hread.sound h), hs.initDone.trans hread.initDone,
    hs.up.trans hread.up, ?_, ?_, ?_, ?_, ?_⟩
  · rw [hs.valueAt, hmac]
  · rw [hs.contentAt (hread.sound h), hmac]
  · rw [hs.content .gateway (by decide), hrc]
  · intro j hj
    rw [hs.value j hj, hrv]
  · intro j hj hjg
    rw [hs.content j hj, hread.content j hjg]

/-- What the loader has done: the MAC address begins with the gateway, in RAM and in NVS,
and the variable of the gateway is as before. -/
structure Restored (m g : List UInt8) (b b' : Board) : Prop where
  sound : b'.nvs.Sound
  initDone : b'.initDone = b.initDone
  up : b'.netif.up = b.netif.up
  contentAt : ∀ j ∈ loadOrder, Fits j (b.stored j) → b'.nvs.content j = some (b.stored j)
  valueAt : ∀ j ∈ loadOrder, Fits j (b.stored j) →
    b'.ram.value j = b.accepted j (b.stored j) (b.ram.value j)
  contentMac : b'.nvs.content .mac = some (.blob (g ++ m.drop 4))
  valueMac : b'.ram.value .mac = some (.blob (g ++ m.drop 4))
  contentGateway : b'.nvs.content .gateway = some (.blob g)
  valueGateway : b'.ram.value .gateway = b.ram.value .gateway
  contentUUID : b'.nvs.content .ownUUID = b.nvs.content .ownUUID

theorem populate_restored (fuel : ℕ) (b : Board) (h : b.nvs.Sound) {m g : List UInt8}
    (hm : b.stored .mac = .blob m) (hmlen : m.length = 6) (hg : b.stored .gateway = .blob g)
    (hglen : g.length = 4) :
    ∃ b', populateAllDmxNvsValues (fuel + 2) b = some b' ∧ Restored m g b b' := by
  -- the sound blocks, then the MAC address, then the gateway over it
  obtain ⟨b₁, hrun₁, h₁⟩ := loadAll_loaded fuel loadOrder (by decide) (by decide) (by decide) b h
  obtain ⟨b₂, hrun₂, h₂⟩ := load_loaded .mac (by decide) (by decide) fuel b₁ h₁.sound
  have hm₁ : b₁.stored .mac = .blob m := by
    rw [stored, h₁.contentOther .mac (by decide), ← stored, hm]
  have hscratch := load_mac_scratch fuel b₁ b₂ h₁.sound hrun₂ hm₁ hmlen
  have hg₂ : b₂.stored .gateway = .blob g := by
    rw [stored, h₂.content .gateway (by decide), h₁.contentOther .gateway (by decide), ← stored, hg]
  obtain ⟨b₃, hrun₃, h₃⟩ := load_gateway fuel b₂ (h₂.sound h₁.sound) hg₂ hglen
  -- the gateway leaves the last two bytes that the MAC address has put in the buffer
  have hdrop : m.drop 4 = [b₂.scratch.buf8 4, b₂.scratch.buf8 5] := by rw [← hscratch]; rfl
  have hne {j : NvsKey} (hj : j ∈ loadOrder) : j ≠ .mac ∧ j ≠ .gateway := by
    constructor <;> rintro rfl <;> exact absurd hj (by decide)
  have hlast : loadAll (fuel + 2) [.mac, .gateway] b₁ = some b₃ :=
    loadAll_cons_iff.mpr ⟨b₂, hrun₂, loadAll_cons_iff.mpr ⟨b₃, hrun₃, rfl⟩⟩
  have hrun : populateAllDmxNvsValues (fuel + 2) b = some b₃ :=
    loadAll_append_iff.mpr ⟨b₁, hrun₁, hlast⟩
  refine ⟨b₃, hrun, h₃.sound, h₃.initDone.trans (h₂.initDone.trans h₁.initDone),
    h₃.up.trans (h₂.up.trans h₁.up), ?_, ?_, ?_, ?_, h₃.contentGateway, ?_, ?_⟩
  · intro j hj hf
    rw [h₃.contentOther j (hne hj).1 (hne hj).2, h₂.content j (hne hj).1, h₁.contentAt j hj hf]
  · intro j hj hf
    rw [h₃.valueOther j (hne hj).1, h₂.value j (hne hj).1, h₁.valueAt j hj hf]
  · rw [h₃.contentMac, hdrop]
  · rw [h₃.valueMac, hdrop]
  · rw [h₃.valueOther .gateway (by decide), h₂.value .gateway (by decide),
      h₁.valueOther .gateway (by decide)]
  · rw [h₃.contentOther .ownUUID (by decide) (by decide), h₂.content .ownUUID (by decide),
      h₁.contentOther .ownUUID (by decide)]

/-- Whatever is stored under the keys of the addresses at the end, the keys before them
are loaded. -/
theorem populate_loads (fuel : ℕ) (b : Board) (h : b.nvs.Sound) :
    ∃ b', populateAllDmxNvsValues (fuel + 2) b = some b' ∧
      ∀ j ∈ loadOrder, Fits j (b.stored j) →
        b'.ram.value j = b.accepted j (b.stored j) (b.ram.value j) := by
  obtain ⟨b₁, hrun₁, h₁⟩ := loadAll_loaded fuel loadOrder (by decide) (by decide) (by decide) b h
  obtain ⟨b₂, hrun₂, h₂⟩ := load_loaded .mac (by decide) (by decide) fuel b₁ h₁.sound
  have hread := readData_keyRead NvsVal.blobData .gateway
  obtain ⟨b₀, hrun₃, hram, -⟩ :=
    loadLoop_run hread (fun b => b.setMac b.scratch.buf8) fuel b₂ (h₂.sound h₁.sound)
  let r := (readData NvsVal.blobData .gateway b₀).2
  have hlast : loadAll (fuel + 2) [.mac, .gateway] b₁ = some (r.setMac r.scratch.buf8) :=
    loadAll_cons_iff.mpr ⟨b₂, hrun₂, loadAll_cons_iff.mpr ⟨_, hrun₃, rfl⟩⟩
  refine ⟨r.setMac r.scratch.buf8, loadAll_append_iff.mpr ⟨b₁, hrun₁, hlast⟩, ?_⟩
  intro j hj hf
  have hmac : j ≠ .mac := by rintro rfl; exact absurd hj (by decide)
  have hram₃ : r.ram = b₂.ram := (hread.reads b₀).ram.trans hram
  rw [(setMac_persists r.scratch.buf8 r).value j hmac, hram₃, h₂.value j hmac, h₁.valueAt j hj hf]

end Board

end BlizzardBridge
