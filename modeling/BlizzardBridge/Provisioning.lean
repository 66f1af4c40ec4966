import BlizzardBridge.PowerCycle
import BlizzardBridge.WifiPortal

/-! The credentials over the life of a board that starts its connection manager behind the
loader: the portal asks for them, the station tries them, and an event handler sends the board
back to the portal. -/
namespace BlizzardBridge
open CArray EventMachine

-- The reasons of a disconnection that the handler tells apart.
def AUTH_EXPIRE : ℕ := 2
def AUTH_FAIL : ℕ := 202
def NO_AP_FOUND : ℕ := 201

/-- What the WiFi driver does: it has not started, it has nothing to do, it tries to connect,
or it is connected. -/
inductive Link where
  | off
  | idle
  | trying
  | up
  deriving DecidableEq, Repr

/-- The station, with what `start_blizzard_wifi` has copied to its configuration. -/
structure WifiStation where
  ssid : CString
  pass : CString
  link : Link
  -- CONNECTED_BIT
  connected : Bool
  -- `xEventGroupWaitBits` has returned
  released : Bool

inductive Phase where
  | portal
  | station (t : WifiStation)

structure Provision where
  board : Board
  phase : Phase

/-- Behind a restart, and when the power comes back, the interface is `netif`. -/
inductive WifiEvent where
  | powerCycle (netif : Netif)
  -- the portal returns, with what was entered or after its timeout
  | portalDone (entered : Option (CString × CString)) (netif : Netif)
  | staStart
  | staGotIP (netif : Netif)
  | staDisconnected (reason : ℕ) (netif : Netif)
  -- the main task goes on behind `start_blizzard_wifi`
  | proceed
  -- an operation of one of the tasks that start behind the connection manager
  | task (op : ConfigOp)

namespace Board

/-- The end of `start_connection_manager` behind the station. -/
def proceed (b : Board) : Board :=
  let b :=
    if b.ram.dhcpEnable = DISABLE then
      ((b.restoreAddress ipAddressVar).restoreAddress netmaskVar).restoreAddress gatewayVar
    else b
  { b with initDone := true }

theorem startConnectionManager_station (portal : Board → Board) (connect : Netif → Netif) (b : Board)
    (h : b.ram.wifiManagerEnable ≠ ENABLE) :
    b.startConnectionManager portal connect = { b with netif := connect b.netif }.proceed := by
  unfold startConnectionManager proceed
  rw [if_neg h]

end Board

namespace Provision

/-- `start_connection_manager`, up to where it waits. -/
def start (b : Board) : Provision :=
  if b.ram.wifiManagerEnable = ENABLE then ⟨b, .portal⟩
  else ⟨b, .station ⟨b.getSSID, b.getPass, .off, false, false⟩⟩

def boot (b : Board) (netif : Netif) : Provision := start ((b.appMain 2 netif).getD b)

-- `blizzard_event_handler` for SYSTEM_EVENT_STA_DISCONNECTED.
def disconnected (b : Board) (t : WifiStation) (reason : ℕ) (netif : Netif) : Provision :=
  if reason = AUTH_EXPIRE ∨ reason = NO_AP_FOUND then boot (b.setWifiManagerEnable ENABLE) netif
  else if reason = AUTH_FAIL then ⟨b, .station { t with link := .idle }⟩
  else ⟨b, .station { t with link := .trying, connected := false }⟩

/-- The driver reports what it does: nothing before its start, and no connection or
disconnection while it has nothing to do. -/
def step (toInt : List UInt8 → ℤ) (s : Provision) (e : WifiEvent) : Provision × List Empty :=
  match s.phase, e with
  | _, .powerCycle netif => (boot s.board netif, [])
  | .portal, .portalDone (some (ssid, pass)) netif => (boot (s.board.startWifiManager ssid pass) netif, [])
  | .portal, .portalDone none netif => (boot s.board netif, [])
  | .station t, .staStart =>
    (if t.link = .off then { s with phase := .station { t with link := .trying } } else s, [])
  | .station t, .staGotIP netif =>
    (if t.link = .trying ∨ t.link = .up then
      ⟨{ s.board with netif := netif }, .station { t with link := .up, connected := true, released := true }⟩
      else s, [])
  | .station t, .staDisconnected reason netif =>
    (if t.link = .trying ∨ t.link = .up then disconnected s.board t reason netif else s, [])
  | .station t, .proceed =>
    (if t.released ∧ s.board.initDone = false then { s with board := s.board.proceed } else s, [])
  | .station _, .task op =>
    (if s.board.initDone then { s with board := s.board.perform toInt op } else s, [])
  | _, _ => (s, [])

theorem step_powerCycle (toInt : List UInt8 → ℤ) (s : Provision) (netif : Netif) :
    (s.step toInt (.powerCycle netif)).1 = boot s.board netif := by
  obtain ⟨b, phase⟩ := s
  cases phase <;> rfl

/-- What the portal takes at the event. -/
def entered (s : Provision) (e : WifiEvent) : Option (CString × CString) :=
  match s.phase, e with
  | .portal, .portalDone c _ => c
  | _, _ => none

/-- The access point is gone, or it lets the board in no longer. -/
def LosesAccess (s : Provision) (e : WifiEvent) : Prop :=
  ∃ t reason netif, s.phase = .station t ∧ (t.link = .trying ∨ t.link = .up) ∧
    e = .staDisconnected reason netif ∧ (reason = AUTH_EXPIRE ∨ reason = NO_AP_FOUND)

/-- The app asks for the portal at V17. -/
def AppAsks (s : Provision) (e : WifiEvent) : Prop :=
  ∃ t op, s.phase = .station t ∧ s.board.initDone = true ∧ e = .task op ∧
    op.given .wifiManagerEnable ≠ none

def Asks (s : Provision) (e : WifiEvent) : Prop := s.LosesAccess e ∨ s.AppAsks e

/-- The credentials that were entered last, and `c` when none were. -/
def lastEntered (toInt : List UInt8 → ℤ) : CString × CString → Provision → List WifiEvent →
    CString × CString
  | c, _, [] => c
  | c, s, e :: es => lastEntered toInt ((s.entered e).getD c) (s.step toInt e).1 es

end Provision

/-- Both strings leave room for a terminator. -/
def Enterable (c : CString × CString) : Prop :=
  c.1.1.length < SSID_MAX_LENGTH ∧ c.2.1.length < PASS_MAX_LENGTH

/-- No task sets the credentials, and the flag only V17, which sets it to `ENABLE`. -/
def WifiEvent.Allowed : WifiEvent → Prop
  | .portalDone (some c) _ => Enterable c
  | .task op => op.given .ssid = none ∧ op.given .pass = none ∧
      ∀ v, op.given .wifiManagerEnable = some v → v = .u8 ENABLE
  | _ => True

/-- The board holds the credentials `c` and the flag `x`, in RAM and in NVS. -/
structure Credentials (c : CString × CString) (x : UInt8) (b : Board) : Prop where
  ssid : Kept .ssid (.str c.1) b
  pass : Kept .pass (.str c.2) b
  flag : Kept .wifiManagerEnable (.u8 x) b

section credentials
variable {c : CString × CString} {x : UInt8} {k key : NvsKey} {v w : NvsVal} {b b' : Board}

theorem Persists.fits_gateway (hp : Persists key w b b') (hkey : NvsKey.gateway ≠ key) (hs : b.nvs.Sound)
    (hg : Fits .gateway (b.stored .gateway)) : Fits .gateway (b'.stored .gateway) :=
  fits_stored (hp.toTouches.stores hkey) hs hg

theorem Persists.loadable (hp : Persists key w b b') (hb : b.nvs.Sound) (h : b.Loadable)
    (hw : key = .ssid ∨ key = .pass → Keepable key w) : b'.Loadable := by
  apply h.of_gives hb hp.gives hp.gives
  · intro w' hw'
    by_cases hkey : NvsKey.ssid = key
    · subst hkey
      rw [if_pos rfl] at hw'
      exact Option.some.inj hw' ▸ hw (Or.inl rfl)
    · rw [if_neg hkey] at hw'
      cases hw'
  · intro w' hw'
    by_cases hkey : NvsKey.pass = key
    · subst hkey
      rw [if_pos rfl] at hw'
      exact Option.some.inj hw' ▸ hw (Or.inr rfl)
    · rw [if_neg hkey] at hw'
      cases hw'

theorem Kept.of_persists (h : Kept k v b) (hp : Persists k w b b') (hkey : NvsKey.gateway ≠ k)
    (hw : Keepable k w) : Kept k w b' := by
  have hgives := hp.gives (k := k)
  rw [if_pos rfl] at hgives
  refine h.of_gives hgives (hp.fits_gateway hkey h.sound h.gateway)
    (hp.loadable h.sound h.loadable fun _ => hw) fun w' hw' => ?_
  rwa [← Option.some.inj hw']

theorem Kept.of_persists_other (h : Kept k v b) (hp : Persists key w b b') (hw : Keepable key w)
    (hkey : NvsKey.gateway ≠ key) (hne : k ≠ key) : Kept k v b' :=
  h.of_gives (hp.toTouches.gives hne) (hp.fits_gateway hkey h.sound h.gateway)
    (hp.loadable h.sound h.loadable fun _ => hw) nofun

theorem Credentials.boot (h : Credentials c x b) (netif : Netif) :
    Credentials c x ((b.appMain 2 netif).getD b) :=
  ⟨kept_powerCycle (fun _ => 0) (by decide) netif h.ssid,
    kept_powerCycle (fun _ => 0) (by decide) netif h.pass,
    kept_powerCycle (fun _ => 0) (by decide) netif h.flag⟩

theorem Credentials.setWifiManagerEnable (h : Credentials c x b) (y : UInt8) :
    Credentials c y (b.setWifiManagerEnable y) := by
  have hp : Persists .wifiManagerEnable (.u8 y) b (b.setWifiManagerEnable y) :=
    Board.setByte_persists wifiManagerEnableVar y b
  refine ⟨?_, ?_, ?_⟩
  · exact h.ssid.of_persists_other hp trivial (by decide) (by decide)
  · exact h.pass.of_persists_other hp trivial (by decide) (by decide)
  · exact h.flag.of_persists hp (by decide) trivial

/-- What was entered takes the place of the credentials, and the flag is cleared. -/
theorem Credentials.startWifiManager (h : Credentials c x b) {ssid pass : CString}
    (hssid : ssid.1.length < SSID_MAX_LENGTH) (hpass : pass.1.length < PASS_MAX_LENGTH) :
    Credentials (ssid, pass) DISABLE (b.startWifiManager ssid pass) := by
  let b₁ := b.setSSID (Board.toCharArray ssid) (Board.portalLength ssid)
  let b₂ := b₁.setPass (Board.toCharArray pass) (Board.portalLength pass)
  have h₁ : Persists .ssid (.str ssid) b b₁ :=
    portal_persists ssidVar b (Nat.le_succ_of_le (Nat.le_of_lt hssid))
  have h₂ : Persists .pass (.str pass) b₁ b₂ :=
    portal_persists passVar b₁ (Nat.le_succ_of_le (Nat.le_of_lt hpass))
  have hstored : Credentials (ssid, pass) x b₂ := by
    refine ⟨?_, ?_, ?_⟩
    · exact (h.ssid.of_persists h₁ (by decide) hssid).of_persists_other h₂ hpass (by decide) (by decide)
    · exact (h.pass.of_persists_other h₁ hssid (by decide) (by decide)).of_persists h₂ (by decide) hpass
    · have hflag₁ := h.flag.of_persists_other h₁ hssid (by decide) (by decide)
      exact hflag₁.of_persists_other h₂ hpass (by decide) (by decide)
  exact hstored.setWifiManagerEnable DISABLE

/-- Before `INIT_DONE` an address goes back to where it was read. -/
theorem Kept.restoreAddress (h : Kept k v b) (f : AddressVar) (hk : k ∈ durableKeys)
    (hf : ∀ l : List UInt8, l.length = 4 → Fits f.key (.blob l)) (hkey : f.key ∉ volatileKeys)
    (hdurable : f.key ∉ durableKeys) : Kept k v (b.restoreAddress f) := by
  have hgives {k : NvsKey} (hk : k ∈ durableKeys) : Gives k none b (b.restoreAddress f) :=
    (getAddress_gives b f (ne_of_durable hk hdurable)).none_trans
      (setAddress_gives _ f _ (ne_of_durable hk hdurable))
  have hloadable : (b.restoreAddress f).Loadable :=
    h.loadable.of_gives h.sound (hgives (by decide)) (hgives (by decide)) nofun nofun
  have hstores : Stores .gateway b (b.restoreAddress f) :=
    (getAddress_stores b f).trans (setAddress_stores _ f _ hf hkey)
  exact h.of_gives (hgives hk) (fits_stored hstores h.sound h.gateway) hloadable nofun

theorem Kept.proceed (h : Kept k v b) (hk : k ∈ durableKeys) : Kept k v b.proceed := by
  have hinit {b : Board} (h : Kept k v b) : Kept k v { b with initDone := true } :=
    ⟨h.sound, h.gateway, ⟨h.loadable.ssid, h.loadable.pass⟩, h.value, h.content, h.keepable⟩
  unfold Board.proceed
  split
  · have hip := h.restoreAddress ipAddressVar hk (fun _ hl => hl) (by decide) (by decide)
    have hmask := hip.restoreAddress netmaskVar hk (fun _ hl => hl) (by decide) (by decide)
    exact hinit (hmask.restoreAddress gatewayVar hk (fun _ hl => hl) (by decide) (by decide))
  · exact hinit h

theorem Credentials.proceed (h : Credentials c x b) : Credentials c x b.proceed :=
  ⟨h.ssid.proceed (by decide), h.pass.proceed (by decide), h.flag.proceed (by decide)⟩

theorem Credentials.setNetif (h : Credentials c x b) (netif : Netif) :
    Credentials c x { b with netif := netif } := by
  have hkeep {k : NvsKey} {v : NvsVal} (h : Kept k v b) : Kept k v { b with netif := netif } :=
    ⟨h.sound, h.gateway, ⟨h.loadable.ssid, h.loadable.pass⟩, h.value, h.content, h.keepable⟩
  exact ⟨hkeep h.ssid, hkeep h.pass, hkeep h.flag⟩

theorem Credentials.perform (h : Credentials c x b) (toInt : List UInt8 → ℤ) {op : ConfigOp}
    (hop : (WifiEvent.task op).Allowed) :
    Credentials c (if op.given .wifiManagerEnable = none then x else ENABLE) (b.perform toInt op) := by
  obtain ⟨hssid, hpass, hflag⟩ := hop
  have hcredential {j : NvsKey} (hj : j = .ssid ∨ j = .pass) (v : NvsVal) (hv : op.given j = some v) :
      Keepable j v := by
    rcases hj with rfl | rfl
    · rw [hssid] at hv
      cases hv
    · rw [hpass] at hv
      cases hv
  refine ⟨?_, ?_, ?_⟩
  · have hkept := kept_perform (k := .ssid) toInt (by decide) op nofun (hcredential (Or.inl rfl))
      hcredential h.ssid
    rwa [hssid] at hkept
  · have hkept := kept_perform (k := .pass) toInt (by decide) op nofun (hcredential (Or.inr rfl))
      hcredential h.pass
    rwa [hpass] at hkept
  · have hkept := kept_perform (k := .wifiManagerEnable) toInt (by decide) op nofun
      (fun v hv => by rw [hflag v hv]; trivial) hcredential h.flag
    cases hgiven : op.given .wifiManagerEnable with
    | none =>
      rw [hgiven] at hkept
      exact hkept
    | some v =>
      rw [hgiven, hflag v hgiven] at hkept
      exact hkept

end credentials

namespace Provision

/-- The board holds `c`, is at the portal only when the portal was asked for, and tries nothing
but `c` elsewhere. -/
structure Provisioned (c : CString × CString) (asked : Prop) (s : Provision) : Prop where
  board : ∃ x, Credentials c x s.board ∧ (x = ENABLE ↔ asked)
  portal : s.phase = .portal → asked
  station : ∀ t, s.phase = .station t → (t.ssid, t.pass) = c

section run
variable {c : CString × CString} {x : UInt8} {b : Board} {asked : Prop} {s : Provision}
  {t : WifiStation} {toInt : List UInt8 → ℤ}

theorem Provisioned.congr (h : Provisioned c asked s) {asked' : Prop} (hasked : asked ↔ asked') :
    Provisioned c asked' s := by
  rwa [← propext hasked]

/-- The start goes by what the loader has read. -/
theorem provisioned_start (h : Credentials c x b) :
    Provisioned c (x = ENABLE) (start b) ∧ ((start b).phase = .portal ↔ x = ENABLE) := by
  have hflag : b.ram.wifiManagerEnable = x := NvsVal.u8.inj (Option.some.inj h.flag.value)
  have hssid : b.getSSID = c.1 := NvsVal.str.inj (Option.some.inj h.ssid.value)
  have hpass : b.getPass = c.2 := NvsVal.str.inj (Option.some.inj h.pass.value)
  unfold Provision.start
  split_ifs with hen
  · rw [hflag] at hen
    refine ⟨⟨⟨x, h, Iff.rfl⟩, fun _ => hen, nofun⟩, iff_of_true rfl hen⟩
  · rw [hflag] at hen
    refine ⟨⟨⟨x, h, Iff.rfl⟩, nofun, ?_⟩, iff_of_false nofun hen⟩
    intro t ht
    obtain rfl := Phase.station.inj ht
    exact Prod.ext hssid hpass

theorem provisioned_boot (h : Credentials c x b) (netif : Netif) :
    Provisioned c (x = ENABLE) (boot b netif) ∧ ((boot b netif).phase = .portal ↔ x = ENABLE) :=
  provisioned_start (h.boot netif)

/-- A step may change the connection of the station, and the board as far as it keeps the credentials. -/
theorem Provisioned.keep {b₀ : Board} (h : Provisioned c asked ⟨b₀, .station t⟩) {link : Link}
    {connected released : Bool} (hb : Credentials c x b) {asked' : Prop} (hx : x = ENABLE ↔ asked') :
    Provisioned c asked' ⟨b, .station ⟨t.ssid, t.pass, link, connected, released⟩⟩ := by
  refine ⟨⟨x, hb, hx⟩, nofun, fun t' ht' => ?_⟩
  obtain rfl := Phase.station.inj ht'
  exact h.station t rfl

theorem provisioned_disconnected (h : Provisioned c asked ⟨b, .station t⟩) (reason : ℕ) (netif : Netif) :
    Provisioned c (reason = AUTH_EXPIRE ∨ reason = NO_AP_FOUND ∨ asked)
      (disconnected b t reason netif) := by
  obtain ⟨x, hb, hx⟩ := h.board
  unfold disconnected
  split_ifs with hlost hfail
  · apply (provisioned_boot (hb.setWifiManagerEnable ENABLE) netif).1.congr
    exact iff_of_true rfl (or_assoc.mp (Or.inl hlost))
  · have hkept : asked ↔ reason = AUTH_EXPIRE ∨ reason = NO_AP_FOUND ∨ asked := by
      rw [← or_assoc, or_iff_right hlost]
    exact h.keep hb (hx.trans hkept)
  · have hkept : asked ↔ reason = AUTH_EXPIRE ∨ reason = NO_AP_FOUND ∨ asked := by
      rw [← or_assoc, or_iff_right hlost]
    exact h.keep hb (hx.trans hkept)

/-- At the portal only the portal itself clears the flag. -/
theorem provisioned_step_portal (h : Provisioned c asked ⟨b, .portal⟩) {e : WifiEvent} (he : e.Allowed) :
    Provisioned ((entered ⟨b, .portal⟩ e).getD c) (asked ∧ entered ⟨b, .portal⟩ e = none)
      (step toInt ⟨b, .portal⟩ e).1 := by
  obtain ⟨x, hb, hx⟩ := h.board
  have hstay : asked ↔ asked ∧ (none : Option (CString × CString)) = none := (and_iff_left rfl).symm
  cases e with
  | powerCycle netif => exact (provisioned_boot hb netif).1.congr (hx.trans hstay)
  | portalDone entered netif =>
    cases entered with
    | none => exact (provisioned_boot hb netif).1.congr (hx.trans hstay)
    | some c' =>
      have hstored : Credentials c' DISABLE (b.startWifiManager c'.1 c'.2) := hb.startWifiManager he.1 he.2
      apply (provisioned_boot hstored netif).1.congr
      exact iff_of_false (by decide) (fun h => Option.some_ne_none _ h.2)
  | staStart => exact h.congr hstay
  | staGotIP netif => exact h.congr hstay
  | staDisconnected reason netif => exact h.congr hstay
  | proceed => exact h.congr hstay
  | task op => exact h.congr hstay

/-- At the station the flag is set by a disconnection, or by the app. -/
theorem provisioned_step_station (h : Provisioned c asked ⟨b, .station t⟩) {e : WifiEvent} (he : e.Allowed) :
    Provisioned c (Asks ⟨b, .station t⟩ e ∨ asked) (step toInt ⟨b, .station t⟩ e).1 := by
  obtain ⟨x, hb, hx⟩ := h.board
  have hstay (hnot : ¬ Asks ⟨b, .station t⟩ e) : asked ↔ Asks ⟨b, .station t⟩ e ∨ asked :=
    (or_iff_right hnot).symm
  cases e with
  | powerCycle netif =>
    exact (provisioned_boot hb netif).1.congr (hx.trans (hstay (by simp [Asks, LosesAccess, AppAsks])))
  | portalDone entered netif =>
    have hstay := hstay (by simp [Asks, LosesAccess, AppAsks])
    cases entered <;> exact h.congr hstay
  | staStart =>
    have hstay := hstay (by simp [Asks, LosesAccess, AppAsks])
    change Provisioned c _ (if _ then _ else _)
    split_ifs
    · exact h.keep hb (hx.trans hstay)
    · exact h.congr hstay
  | staGotIP netif =>
    have hstay := hstay (by simp [Asks, LosesAccess, AppAsks])
    change Provisioned c _ (if _ then _ else _)
    split_ifs
    · exact h.keep (hb.setNetif netif) (hx.trans hstay)
    · exact h.congr hstay
  | staDisconnected reason netif =>
    change Provisioned c _ (if _ then _ else _)
    split_ifs with hlink
    · apply (provisioned_disconnected h reason netif).congr
      have hasks : Asks ⟨b, .station t⟩ (.staDisconnected reason netif) ↔
          reason = AUTH_EXPIRE ∨ reason = NO_AP_FOUND := by
        simp [Asks, LosesAccess, AppAsks, hlink]
      rw [hasks, or_assoc]
    · apply h.congr (hstay _)
      simp [Asks, LosesAccess, AppAsks, hlink]
  | proceed =>
    have hstay := hstay (by simp [Asks, LosesAccess, AppAsks])
    change Provisioned c _ (if _ then _ else _)
    split_ifs
    · exact h.keep hb.proceed (hx.trans hstay)
    · exact h.congr hstay
  | task op =>
    have hasks : Asks ⟨b, .station t⟩ (.task op) ↔
        b.initDone = true ∧ op.given .wifiManagerEnable ≠ none := by
      simp [Asks, LosesAccess, AppAsks]
    change Provisioned c _ (if _ then _ else _)
    split_ifs with hinit
    · apply h.keep (hb.perform toInt he)
      rw [hasks]
      split_ifs with hgiven
      · simp [hgiven, hx]
      · exact iff_of_true rfl (Or.inl ⟨hinit, hgiven⟩)
    · apply h.congr (hstay _)
      rw [hasks]
      exact fun h => hinit h.1

theorem provisioned_step (h : Provisioned c asked s) {e : WifiEvent} (he : e.Allowed) :
    Provisioned ((s.entered e).getD c) (s.Asks e ∨ asked ∧ s.entered e = none) (s.step toInt e).1 := by
  obtain ⟨b, phase⟩ := s
  cases phase with
  | portal =>
    have hnot : ¬ Asks ⟨b, .portal⟩ e := by simp [Asks, LosesAccess, AppAsks]
    exact (provisioned_step_portal h he).congr (or_iff_right hnot).symm
  | station t =>
    have hnone : entered ⟨b, .station t⟩ e = none := rfl
    rw [hnone, and_iff_left rfl]
    exact provisioned_step_station h he

theorem provisioned_exec (h : Provisioned c asked s) {es : List WifiEvent} (hes : ∀ e ∈ es, e.Allowed) :
    Provisioned (lastEntered toInt c s es)
      (Settled (step toInt) Asks (fun s e => s.entered e ≠ none) asked s es) (exec (step toInt) s es) := by
  induction es generalizing s c asked with
  | nil => exact h
  | cons e es ih =>
    obtain ⟨he, hes⟩ := List.forall_mem_cons.mp hes
    apply ih _ hes
    apply (provisioned_step h he).congr
    rw [not_not]

end run

/-- What NVS holds, with the defaults for what is missing, is a gateway, credentials that fit,
and the flag. -/
structure Stocked (c : CString × CString) (x : UInt8) (b : Board) : Prop where
  sound : b.nvs.Sound
  gateway : Fits .gateway (b.stored .gateway)
  ssid : b.stored .ssid = .str c.1
  pass : b.stored .pass = .str c.2
  flag : b.stored .wifiManagerEnable = .u8 x
  enterable : Enterable c

theorem Stocked.credentials {c : CString × CString} {x : UInt8} {b : Board} (h : Stocked c x b)
    (netif : Netif) : Credentials c x ((b.appMain 2 netif).getD b) := by
  have hloadable : b.Loadable := by
    refine ⟨?_, ?_⟩
    · rw [h.ssid]
      exact h.enterable.1
    · rw [h.pass]
      exact h.enterable.2
  have hkept {k : NvsKey} {v : NvsVal} (hk : k ∈ durableKeys) (hstored : b.stored k = v)
      (hkeepable : Keepable k v) : Kept k v ((b.appMain 2 netif).getD b) :=
    kept_of_stored (fun _ => 0) hk netif h.sound h.gateway hloadable hstored hkeepable
  exact ⟨hkept (by decide) h.ssid h.enterable.1, hkept (by decide) h.pass h.enterable.2,
    hkept (by decide) h.flag trivial⟩

/-- From the first boot on the station uses the credentials that were entered last, also behind
power cycles at any moments. The board is at the portal only when the access was lost or the app
has asked for the portal since the portal last took credentials, and a power cycle then leads
to the portal and otherwise to the station. -/
theorem provisioned_life (toInt : List UInt8 → ℤ) (b : Board) (netif : Netif) {c : CString × CString}
    {x : UInt8} (h : Stocked c x b) (es : List WifiEvent) (hes : ∀ e ∈ es, e.Allowed) :
    let s₀ := boot b netif
    let s := exec (step toInt) s₀ es
    let asked := Settled (step toInt) Asks (fun s e => s.entered e ≠ none) (x = ENABLE) s₀ es
    (∀ t, s.phase = .station t → (t.ssid, t.pass) = lastEntered toInt c s₀ es) ∧
      (s.phase = .portal → asked) ∧
      ∀ netif', (s.step toInt (.powerCycle netif')).1.phase = .portal ↔ asked := by
  intro s₀ s asked
  have hs : Provisioned (lastEntered toInt c s₀ es) asked s :=
    provisioned_exec (provisioned_start (h.credentials netif)).1 hes
  refine ⟨hs.station, hs.portal, fun netif' => ?_⟩
  obtain ⟨y, hy, hasked⟩ := hs.board
  rw [step_powerCycle]
  exact (provisioned_boot hy netif').2.trans hasked

theorem stocked_new : Stocked (DEFAULT_SSID, DEFAULT_PASS) ENABLE newBoard where
  sound _ := rfl
  gateway := rfl
  ssid := rfl
  pass := rfl
  flag := rfl
  enterable := ⟨by decide, by decide⟩

/-- A new board starts at the portal, and loses the access point that it has been given. -/
theorem provisioned_life_new :
    let es : List WifiEvent := [.portalDone (some (letters 5, letters 8)) Board.station, .staStart,
      .staDisconnected NO_AP_FOUND Board.station]
    let s₀ := boot newBoard Board.station
    let s := exec (step fun _ => 0) s₀ es
    let asked := Settled (step fun _ => 0) Asks (fun s e => s.entered e ≠ none) (ENABLE = ENABLE) s₀ es
    (∀ t, s.phase = .station t →
      (t.ssid, t.pass) = lastEntered (fun _ => 0) (DEFAULT_SSID, DEFAULT_PASS) s₀ es) ∧
      (s.phase = .portal → asked) ∧
      ∀ netif', (s.step (fun _ => 0) (.powerCycle netif')).1.phase = .portal ↔ asked := by
  intro es
  apply provisioned_life (fun _ => 0) newBoard Board.station stocked_new es
  intro e he
  simp only [es, List.mem_cons, List.not_mem_nil, or_false] at he
  rcases he with rfl | rfl | rfl
  · exact ⟨by decide, by decide⟩
  · trivial
  · trivial

/-- The station has nothing to do, and is not connected. -/
def Halted (s : Provision) : Prop := ∃ t, s.phase = .station t ∧ t.link = .idle

def Online (s : Provision) : Prop := ∃ t, s.phase = .station t ∧ t.link = .up

section online
variable (toInt : List UInt8 → ℤ) {s : Provision}

/-- Nobody calls `esp_wifi_connect` again. -/
theorem halted_step (h : s.Halted) {e : WifiEvent} (he : ∀ netif, e ≠ .powerCycle netif) :
    (s.step toInt e).1.Halted := by
  obtain ⟨b, phase⟩ := s
  obtain ⟨t, rfl, hidle⟩ := h
  have hbusy : ¬ (t.link = .trying ∨ t.link = .up) := by
    rw [hidle]
    decide
  have hon : ¬ t.link = .off := by
    rw [hidle]
    decide
  cases e with
  | powerCycle netif => exact absurd rfl (he netif)
  | portalDone entered netif => cases entered <;> exact ⟨t, rfl, hidle⟩
  | staStart =>
    change (if _ then _ else _ : Provision).Halted
    rw [if_neg hon]
    exact ⟨t, rfl, hidle⟩
  | staGotIP netif =>
    change (if _ then _ else _ : Provision).Halted
    rw [if_neg hbusy]
    exact ⟨t, rfl, hidle⟩
  | staDisconnected reason netif =>
    change (if _ then _ else _ : Provision).Halted
    rw [if_neg hbusy]
    exact ⟨t, rfl, hidle⟩
  | proceed =>
    change (if _ then _ else _ : Provision).Halted
    split <;> exact ⟨t, rfl, hidle⟩
  | task op =>
    change (if _ then _ else _ : Provision).Halted
    split <;> exact ⟨t, rfl, hidle⟩

theorem halted_exec (h : s.Halted) {es : List WifiEvent} (hes : ∀ e ∈ es, ∀ netif, e ≠ .powerCycle netif) :
    (exec (step toInt) s es).Halted := by
  induction es generalizing s with
  | nil => exact h
  | cons e es ih =>
    obtain ⟨he, hes⟩ := List.forall_mem_cons.mp hes
    exact ih (halted_step toInt h he) hes

theorem not_online_of_halted (h : s.Halted) : ¬ s.Online := by
  rintro ⟨t, ht, hup⟩
  obtain ⟨t', ht', hidle⟩ := h
  obtain rfl := Phase.station.inj (ht.symm.trans ht')
  exact absurd (hup.symm.trans hidle) (by decide)

/-- The driver starts, and gets an address. -/
theorem online_of_off {b : Board} {t : WifiStation} (hoff : t.link = .off) :
    (exec (step toInt) ⟨b, .station t⟩ [.staStart, .staGotIP Board.station]).Online := by
  obtain ⟨ssid, pass, link, connected, released⟩ := t
  obtain rfl : link = .off := hoff
  exact ⟨_, rfl, rfl⟩

theorem boot_station {b : Board} {netif : Netif} (h : (boot b netif).phase ≠ .portal) :
    ∃ t, (boot b netif).phase = .station t ∧ t.link = .off := by
  unfold boot start at h ⊢
  split_ifs at h ⊢
  · exact absurd rfl h
  · exact ⟨_, rfl, rfl⟩

/-- The driver starts when it has not, and then it only needs an address. -/
theorem station_gets_online (b : Board) {t : WifiStation} (hidle : t.link ≠ .idle) :
    ∃ fs : List WifiEvent, (∀ e ∈ fs, e.Allowed ∧ ∀ netif, e ≠ .powerCycle netif) ∧
      (exec (step toInt) ⟨b, .station t⟩ fs).Online := by
  cases hlink : t.link with
  | off =>
    refine ⟨[.staStart, .staGotIP Board.station], ?_, online_of_off toInt hlink⟩
    intro e he
    simp only [List.mem_cons, List.not_mem_nil, or_false] at he
    rcases he with rfl | rfl <;> exact ⟨trivial, nofun⟩
  | idle => exact absurd hlink hidle
  | trying =>
    refine ⟨[.staGotIP Board.station], ?_, ?_⟩
    · intro e he
      rw [List.mem_singleton.mp he]
      exact ⟨trivial, nofun⟩
    · obtain ⟨ssid, pass, link, connected, released⟩ := t
      obtain rfl : link = .trying := hlink
      exact ⟨_, rfl, rfl⟩
  | up => exact ⟨[], nofun, t, rfl, hlink⟩

/-- Credentials that fit are entered, and the board restarts as a station. -/
theorem portal_gets_online {b : Board} {c : CString × CString} {x : UInt8} (h : Credentials c x b) :
    ∃ fs : List WifiEvent, (∀ e ∈ fs, e.Allowed ∧ ∀ netif, e ≠ .powerCycle netif) ∧
      (exec (step toInt) ⟨b, .portal⟩ fs).Online := by
  let c' : CString × CString := (DEFAULT_SSID, DEFAULT_PASS)
  have hfits : WifiEvent.Allowed (.portalDone (some c') Board.station) := ⟨by decide, by decide⟩
  have hstored : Credentials c' DISABLE (b.startWifiManager c'.1 c'.2) :=
    h.startWifiManager hfits.1 hfits.2
  have hboot := provisioned_boot hstored Board.station
  obtain ⟨t, ht, hoff⟩ := boot_station fun hportal => absurd (hboot.2.mp hportal) (by decide)
  have hidle : t.link ≠ .idle := by
    rw [hoff]
    decide
  obtain ⟨fs, hfs, honline⟩ :=
    station_gets_online toInt (boot (b.startWifiManager c'.1 c'.2) Board.station).board hidle
  refine ⟨.portalDone (some c') Board.station :: fs, ?_, ?_⟩
  · exact List.forall_mem_cons.mpr ⟨⟨hfits, nofun⟩, hfs⟩
  · rw [exec_cons]
    rw [← ht] at honline
    exact honline

/-- In whatever state a run leaves the board, it can get online without a power cycle unless the
station has been refused by AUTH_FAIL: the handler then neither connects again nor asks for
the portal. -/
theorem online_iff_not_halted (b : Board) (netif : Netif) {c : CString × CString} {x : UInt8}
    (h : Stocked c x b) (es : List WifiEvent) (hes : ∀ e ∈ es, e.Allowed) :
    let s := exec (step toInt) (boot b netif) es
    (∃ fs : List WifiEvent, (∀ e ∈ fs, e.Allowed ∧ ∀ netif, e ≠ .powerCycle netif) ∧
      (exec (step toInt) s fs).Online) ↔ ¬ s.Halted := by
  intro s
  have hs : Provisioned (lastEntered toInt c (boot b netif) es) _ s :=
    provisioned_exec (provisioned_start (h.credentials netif)).1 hes
  constructor
  · rintro ⟨fs, hfs, honline⟩ hhalted
    exact not_online_of_halted (halted_exec toInt hhalted fun e he => (hfs e he).2) honline
  · intro hrun
    clear_value s
    obtain ⟨b', phase⟩ := s
    cases phase with
    | portal =>
      obtain ⟨y, hy, _⟩ := hs.board
      exact portal_gets_online toInt hy
    | station t => exact station_gets_online toInt b' fun hidle => hrun ⟨t, rfl, hidle⟩

/-- A new board that has been given a wrong passphrase. -/
theorem online_iff_not_halted_new :
    let s := exec (step fun _ => 0) (boot newBoard Board.station)
      [.portalDone (some (letters 5, letters 8)) Board.station, .staStart,
        .staDisconnected AUTH_FAIL Board.station]
    (∃ fs : List WifiEvent, (∀ e ∈ fs, e.Allowed ∧ ∀ netif, e ≠ .powerCycle netif) ∧
      (exec (step fun _ => 0) s fs).Online) ↔ ¬ s.Halted := by
  apply online_iff_not_halted (fun _ => 0) newBoard Board.station stocked_new
  intro e he
  simp only [List.mem_cons, List.not_mem_nil, or_false] at he
  rcases he with rfl | rfl | rfl
  · exact ⟨by decide, by decide⟩
  · trivial
  · trivial

end online

end Provision

end BlizzardBridge
