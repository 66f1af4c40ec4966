import BlizzardBridge.Credentials

/-! The end of the WiFi portal: what was entered goes to the setters, and the board
restarts and loads it. -/
namespace BlizzardBridge
open CArray

namespace Board

-- `memset(&temp, 0, 64); s.toCharArray(temp, s.length() + 1);`
def toCharArray (s : CString) : Bytes := store (fun _ => 0) 0 (s.1 ++ [0])

-- `(uint8_t) s.length() + 1`, as an argument of type `uint8_t`.
def portalLength (s : CString) : ℕ := (s.1.length % 256 + 1) % 256

/-- `start_wifi_manager` from the end of its portal on, up to the restart. -/
def startWifiManager (ssid pass : CString) (b : Board) : Board :=
  let b := b.setSSID (toCharArray ssid) (portalLength ssid)
  let b := b.setPass (toCharArray pass) (portalLength pass)
  b.setWifiManagerEnable DISABLE

end Board

/-- Where the linker has put the two arrays. -/
structure Layout where
  ssid : ℕ
  pass : ℕ
  disjoint : ssid + SSID_MAX_LENGTH ≤ pass ∨ pass + PASS_MAX_LENGTH ≤ ssid

/-- A call of the setter whose array is at `base` stores into the other one. -/
def Strays (f : StringVar) (src : Bytes) (length : ℕ) (b : Board) (base other size : ℕ) : Prop :=
  ∃ j, StoresAt f src length b j ∧ other ≤ base + j ∧ base + j < other + size

/-- Each of the two calls leaves the array of the other alone. -/
structure Apart (l : Layout) (ssid pass : CString) (b : Board) : Prop where
  setSSID : ¬ Strays ssidVar (Board.toCharArray ssid) (Board.portalLength ssid) b l.ssid l.pass
    PASS_MAX_LENGTH
  setPass : ¬ Strays passVar (Board.toCharArray pass) (Board.portalLength pass)
    (b.setSSID (Board.toCharArray ssid) (Board.portalLength ssid)) l.pass l.ssid SSID_MAX_LENGTH

/-- What was entered is there after the restart. -/
def Reloaded (ssid pass : CString) (netif : Netif) (b : Board) : Prop :=
  ∀ fuel, ∃ r, Board.populateAllDmxNvsValues (fuel + 2) (Board.reset b.nvs netif) = some r ∧
    r.getSSID = ssid ∧ r.getPass = pass

section entered
variable {s : CString}

theorem portalLength_eq (hs : s.1.length < 255) : Board.portalLength s = s.1.length + 1 := by
  unfold Board.portalLength
  omega

theorem cString_toCharArray (s : CString) {n : ℕ} (hn : s.1.length ≤ n) :
    cString (Board.toCharArray s) n = s :=
  Subtype.ext (cstr_store_nul _ s.2 hn)

variable (f : StringVar) (b : Board)

theorem length_portal (hs : s.1.length < 255) : f.length (Board.portalLength s) = s.1.length + 1 := by
  rw [portalLength_eq hs]
  exact if_neg (Nat.succ_ne_zero _)

theorem portal_persists (hs : s.1.length ≤ f.max + 1) :
    Persists f.key (.str s) b (b.setString f (Board.toCharArray s) (Board.portalLength s)) := by
  have hmax := f.max_lt
  have hlt : s.1.length < 255 := by omega
  have hset := Board.setString_persists f (Board.toCharArray s) (Board.portalLength s) b
    (by rw [portalLength_eq hlt]; omega)
  rwa [length_portal f hlt, cString_toCharArray s (Nat.le_succ _)] at hset

theorem portal_refused (hs : f.max + 1 < s.1.length) (hlt : s.1.length < 255) :
    b.setString f (Board.toCharArray s) (Board.portalLength s) = b := by
  apply Board.setString_refuses
  rw [portalLength_eq hlt]
  omega

/-- The bytes up to the terminator are stored, and no others. -/
theorem portal_stores (hs : s.1.length ≤ f.max + 1) (hget : ∀ a s, f.get (f.set a s) = a) (j : ℕ) :
    StoresAt f (Board.toCharArray s) (Board.portalLength s) b j ↔ j ≤ s.1.length := by
  have hmax := f.max_lt
  have hlt : s.1.length < 255 := by omega
  have hlen : strnlen (Board.toCharArray s) (s.1.length + 1) = s.1.length :=
    strnlen_store_nul _ s.2 (Nat.le_succ _)
  rw [storesAt_iff f _ _ b hget, length_portal f hlt, hlen, portalLength_eq hlt]
  omega

end entered

theorem apart_of_short (l : Layout) (ssid pass : CString) (b : Board)
    (hssid : ssid.1.length < SSID_MAX_LENGTH)
    (hpass : pass.1.length < PASS_MAX_LENGTH ∨
      PASS_MAX_LENGTH + 1 < pass.1.length ∧ pass.1.length < 255) :
    Apart l ssid pass b := by
  have hdisjoint := l.disjoint
  constructor
  · rintro ⟨j, hs, hlo, hhi⟩
    rw [portal_stores ssidVar b (by change _ ≤ SSID_MAX_LENGTH + 1; omega) fun _ _ => rfl] at hs
    unfold SSID_MAX_LENGTH PASS_MAX_LENGTH at *
    omega
  · rintro ⟨j, hs, hlo, hhi⟩
    rcases hpass with hlt | ⟨hgt, hlt⟩
    · rw [portal_stores passVar _ (by change _ ≤ PASS_MAX_LENGTH + 1; omega) fun _ _ => rfl] at hs
      unfold SSID_MAX_LENGTH PASS_MAX_LENGTH at *
      omega
    · rw [storesAt_iff passVar _ _ _ fun _ _ => rfl, portalLength_eq hlt] at hs
      exact absurd hs.1 (by change ¬ _ ≤ PASS_MAX_LENGTH + 2; omega)

namespace Board

section portal
variable (ssid pass : CString) (b : Board) (h : b.nvs.Sound)
include h

theorem startWifiManager_ssid (hssid : ssid.1.length ≤ SSID_MAX_LENGTH + 1) :
    (b.startWifiManager ssid pass).nvs.Sound ∧
      (b.startWifiManager ssid pass).nvs.content .ssid = some (.str ssid) := by
  let b₁ := b.setSSID (toCharArray ssid) (portalLength ssid)
  let b₂ := b₁.setPass (toCharArray pass) (portalLength pass)
  have h₁ : Persists .ssid (.str ssid) b b₁ := portal_persists ssidVar b hssid
  have h₂ : Touches .pass b₁ b₂ := setString_touches passVar _ _ b₁
  have h₃ := (setByte_persists wifiManagerEnableVar DISABLE b₂).toTouches
  refine ⟨h₃.sound (h₂.sound (h₁.sound h)), ?_⟩
  calc
    _ = b₂.nvs.content .ssid := h₃.content .ssid (by decide)
    _ = b₁.nvs.content .ssid := h₂.content .ssid (by decide)
    _ = _ := h₁.contentAt h

theorem startWifiManager_pass (hpass : pass.1.length ≤ PASS_MAX_LENGTH + 1) :
    (b.startWifiManager ssid pass).nvs.content .pass = some (.str pass) := by
  let b₁ := b.setSSID (toCharArray ssid) (portalLength ssid)
  let b₂ := b₁.setPass (toCharArray pass) (portalLength pass)
  have h₁ : Touches .ssid b b₁ := setString_touches ssidVar _ _ b
  have h₂ : Persists .pass (.str pass) b₁ b₂ := portal_persists passVar b₁ hpass
  have h₃ := (setByte_persists wifiManagerEnableVar DISABLE b₂).toTouches
  calc
    _ = b₂.nvs.content .pass := h₃.content .pass (by decide)
    _ = _ := h₂.contentAt (h₁.sound h)

omit h in
/-- A passphrase that is too long leaves the old one where it was. -/
theorem startWifiManager_refused (hpass : PASS_MAX_LENGTH + 1 < pass.1.length)
    (hlt : pass.1.length < 255) :
    (b.startWifiManager ssid pass).getPass = b.getPass ∧
      (b.startWifiManager ssid pass).nvs.content .pass = b.nvs.content .pass := by
  let b₁ := b.setSSID (toCharArray ssid) (portalLength ssid)
  have h₁ : Touches .ssid b b₁ := setString_touches ssidVar _ _ b
  have hrefused : b₁.setPass (toCharArray pass) (portalLength pass) = b₁ :=
    portal_refused passVar b₁ hpass hlt
  have h₃ := (setByte_persists wifiManagerEnableVar DISABLE b₁).toTouches
  have heq : b.startWifiManager ssid pass = b₁.setWifiManagerEnable DISABLE :=
    congrArg (setWifiManagerEnable DISABLE) hrefused
  rw [heq]
  constructor
  · have hval : some (NvsVal.str (b₁.setWifiManagerEnable DISABLE).getPass) = some (.str b.getPass) :=
      (h₃.value .pass (by decide)).trans (h₁.value .pass (by decide))
    exact NvsVal.str.inj (Option.some.inj hval)
  · exact (h₃.content .pass (by decide)).trans (h₁.content .pass (by decide))

end portal

/-- A restart returns what NVS holds under the two keys. -/
theorem reloaded_of_content {s p : CString} (netif : Netif) (b : Board) (h : b.nvs.Sound)
    (hs : b.nvs.content .ssid = some (.str s)) (hslen : s.1.length ≤ SSID_MAX_LENGTH + 1)
    (hp : (reset b.nvs netif).stored .pass = .str p) (hplen : p.1.length ≤ PASS_MAX_LENGTH + 1) :
    Reloaded s p netif b := by
  intro fuel
  obtain ⟨r, hrun, hload⟩ := populate_loads fuel (reset b.nvs netif) h
  have hs' : (reset b.nvs netif).stored .ssid = .str s := stored_of_content hs
  have hssid := hload .ssid (by decide) (by rw [hs']; exact Nat.le_succ_of_le hslen)
  have hpass := hload .pass (by decide) (by rw [hp]; exact Nat.le_succ_of_le hplen)
  rw [hs', accepted, if_pos (Nat.succ_le_succ hslen)] at hssid
  rw [hp, accepted, if_pos (Nat.succ_le_succ hplen)] at hpass
  exact ⟨r, hrun, NvsVal.str.inj (Option.some.inj hssid), NvsVal.str.inj (Option.some.inj hpass)⟩

end Board

/-- Strings that leave room for a terminator are there after the restart, and neither setter
has touched the other's array. A passphrase of 34 bytes or more is refused: the old one stays. -/
theorem portal_reloads (l : Layout) (ssid pass : CString) (netif : Netif) (b : Board)
    (h : b.nvs.Sound) (hssid : ssid.1.length < SSID_MAX_LENGTH) :
    (pass.1.length < PASS_MAX_LENGTH →
      Reloaded ssid pass netif (b.startWifiManager ssid pass) ∧ Apart l ssid pass b) ∧
    (PASS_MAX_LENGTH + 1 < pass.1.length → pass.1.length ≤ 63 →
      (b.startWifiManager ssid pass).getPass = b.getPass ∧
      (b.startWifiManager ssid pass).nvs.content .pass = b.nvs.content .pass ∧
      (∀ old, b.stored .pass = .str old → old.1.length < PASS_MAX_LENGTH →
        Reloaded ssid old netif (b.startWifiManager ssid pass)) ∧
      Apart l ssid pass b) := by
  have hslen : ssid.1.length ≤ SSID_MAX_LENGTH + 1 := by omega
  obtain ⟨hsound, hs⟩ := Board.startWifiManager_ssid ssid pass b h hslen
  constructor
  · intro hlt
    have hplen : pass.1.length ≤ PASS_MAX_LENGTH + 1 := by omega
    have hp := Board.startWifiManager_pass ssid pass b h hplen
    refine ⟨Board.reloaded_of_content netif _ hsound hs hslen ?_ hplen, ?_⟩
    · exact Board.stored_of_content hp
    · exact apart_of_short l ssid pass b hssid (Or.inl hlt)
  · intro hgt hle
    have hlt : pass.1.length < 255 := by omega
    obtain ⟨hram, hnvs⟩ := Board.startWifiManager_refused ssid pass b hgt hlt
    refine ⟨hram, hnvs, fun old hold holen => ?_, ?_⟩
    · refine Board.reloaded_of_content netif _ hsound hs hslen ?_ (by omega)
      change (((b.startWifiManager ssid pass).nvs.content .pass).getD _) = _
      rw [hnvs]
      exact hold
    · exact apart_of_short l ssid pass b hssid (Or.inr ⟨hgt, hlt⟩)

def letters (n : ℕ) : CString := ⟨List.replicate n 97, by simp⟩

def unconfigured : Board := Board.reset (Board.storage fun _ => none) Board.station

theorem portal_reloads_letters :
    Reloaded (letters 31) (letters 31) Board.station
        (unconfigured.startWifiManager (letters 31) (letters 31)) ∧
      (unconfigured.startWifiManager (letters 31) (letters 63)).nvs.content .pass = none := by
  have hreload := portal_reloads ⟨0, 32, Or.inl le_rfl⟩ (letters 31) (letters 31) Board.station
    unconfigured (fun _ => rfl) (by decide)
  have hrefuse := portal_reloads ⟨0, 32, Or.inl le_rfl⟩ (letters 31) (letters 63) Board.station
    unconfigured (fun _ => rfl) (by decide)
  exact ⟨(hreload.1 (by decide)).1, (hrefuse.2 (by decide) (by decide)).2.1⟩

/-- A passphrase of 34 bytes is lost: the board restarts with the default. -/
theorem portal_loses_passphrase :
    ¬ ∀ (l : Layout) (ssid pass : CString) (netif : Netif) (b : Board), b.nvs.Sound →
      1 ≤ ssid.1.length → ssid.1.length ≤ 32 → 8 ≤ pass.1.length → pass.1.length ≤ 63 →
      Reloaded ssid pass netif (b.startWifiManager ssid pass) ∧ Apart l ssid pass b := by
  intro hall
  have hsound : unconfigured.nvs.Sound := fun _ => rfl
  obtain ⟨hreload, -⟩ := hall ⟨0, 32, Or.inl le_rfl⟩ (letters 1) (letters 34) Board.station
    unconfigured hsound (by decide) (by decide) (by decide) (by decide)
  obtain ⟨hsound', hs⟩ := Board.startWifiManager_ssid (letters 1) (letters 34) unconfigured hsound
    (by decide)
  have hnvs := (Board.startWifiManager_refused (letters 1) (letters 34) unconfigured (by decide)
    (by decide)).2
  have hdefault : Reloaded (letters 1) DEFAULT_PASS Board.station
      (unconfigured.startWifiManager (letters 1) (letters 34)) := by
    refine Board.reloaded_of_content Board.station _ hsound' hs (by decide) ?_ (by decide)
    change (((unconfigured.startWifiManager (letters 1) (letters 34)).nvs.content .pass).getD _) = _
    rw [hnvs]
    rfl
  -- both speak of the same restart
  obtain ⟨r, hrun, -, hpass⟩ := hreload 0
  obtain ⟨r', hrun', -, hpass'⟩ := hdefault 0
  have hrr : r = r' := Option.some.inj (hrun.symm.trans hrun')
  have hsame : letters 34 = DEFAULT_PASS := by rw [← hpass, hrr, hpass']
  exact absurd (congrArg (fun s : CString => s.1.length) hsame) (by decide)

end BlizzardBridge
