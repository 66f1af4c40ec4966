import BlizzardBridge.ConfigSession
import BlizzardBridge.NvsPopulate

/-! The configuration over the life of a board. `app_main` writes the default MAC address and
loads the settings each time the power comes back; between two such moments the tasks change
the settings. -/
namespace BlizzardBridge
open CArray EventMachine

namespace Board

/-- `app_main` up to the start of the network. RAM begins with zeros, NVS is what it was. -/
def appMain (fuel : ℕ) (netif : Netif) (b : Board) : Option Board :=
  populateAllDmxNvsValues fuel ((reset b.nvs netif).initNvsKeyPairDefault .mac)

end Board

inductive PowerEvent where
  | op (op : ConfigOp)
  | powerCycle (netif : Netif)

/-- The loader needs two turns at most for each of its keys; see `appMain_booted`. -/
def powerMachine (toInt : List UInt8 → ℤ) (b : Board) : PowerEvent → Board × List Empty
  | .op op => (b.perform toInt op, [])
  | .powerCycle netif => ((b.appMain 2 netif).getD b, [])

section boot
variable {netif : Netif} {b : Board} {g : List UInt8}

/-- What a boot makes of the state before it. -/
structure Booted (g : List UInt8) (b b' : Board) : Prop where
  sound : b'.nvs.Sound
  initDone : b'.initDone = false
  contentAt : ∀ j ∈ Board.loadOrder, Fits j (b.stored j) → b'.nvs.content j = some (b.stored j)
  valueAt : ∀ j ∈ Board.loadOrder, Fits j (b.stored j) →
    ∃ (b₀ : Board) (old : Option NvsVal), b₀.initDone = false ∧ b'.ram.value j = b₀.accepted j (b.stored j) old
  contentGateway : b'.nvs.content .gateway = some (.blob g)
  valueMac : b'.ram.value .mac = some (.blob (g ++ [0x68, 0x43]))

/-- The loader returns, with two turns for each key. -/
theorem appMain_booted (fuel : ℕ) (netif : Netif) (h : b.nvs.Sound) (hg : b.stored .gateway = .blob g)
    (hlen : g.length = 4) : ∃ b', b.appMain (fuel + 2) netif = some b' ∧ Booted g b b' := by
  let b₀ := (Board.reset b.nvs netif).initNvsKeyPairDefault .mac
  have htouches : Touches .mac (Board.reset b.nvs netif) b₀ := Board.initNvsKeyPairDefault_touches .mac _
  have hstored (j : NvsKey) (hj : j ≠ .mac) : b₀.stored j = b.stored j := by
    rw [Board.stored, htouches.content j hj]
    rfl
  have hmac : b₀.stored .mac = defaultVal .mac := by
    apply Board.stored_of_content
    calc b₀.nvs.content .mac
        = Function.update b.nvs.content .mac (some (defaultVal .mac)) .mac :=
          congrFun (NvsStore.updateNvsVal_content NvsKey.mac (defaultVal .mac) b.nvs h) .mac
      _ = some (defaultVal .mac) := Function.update_self _ _ _
  have hgateway : b₀.stored .gateway = .blob g := (hstored .gateway (by decide)).trans hg
  have hne {j : NvsKey} (hj : j ∈ Board.loadOrder) : j ≠ .mac := by
    rintro rfl
    exact absurd hj (by decide)
  obtain ⟨b', hrun, hb'⟩ := Board.populate_restored fuel b₀ (htouches.sound h) hmac rfl hgateway hlen
  refine ⟨b', hrun, hb'.sound, hb'.initDone, ?_, ?_, hb'.contentGateway, hb'.valueMac⟩
  · intro j hj hfit
    rw [← hstored j (hne hj)] at hfit ⊢
    exact hb'.contentAt j hj hfit
  · intro j hj hfit
    rw [← hstored j (hne hj)] at hfit ⊢
    exact ⟨b₀, _, rfl, hb'.valueAt j hj hfit⟩

theorem powerCycle_booted (toInt : List UInt8 → ℤ) (netif : Netif) (h : b.nvs.Sound)
    (hg : b.stored .gateway = .blob g) (hlen : g.length = 4) :
    Booted g b (powerMachine toInt b (.powerCycle netif)).1 := by
  obtain ⟨b', hrun, hb'⟩ := appMain_booted 0 netif h hg hlen
  change Booted g b ((b.appMain 2 netif).getD b)
  rw [hrun]
  exact hb'

theorem fits_stored {k : NvsKey} {b b' : Board} (h : Stores k b b') (hb : b.nvs.Sound)
    (hfit : Fits k (b.stored k)) : Fits k (b'.stored k) := by
  rcases h.content hb with hsame | ⟨_, v, hv, hcontent⟩
  · rw [Board.stored, hsame]
    exact hfit
  · rw [Board.stored_of_content hcontent]
    exact hv

end boot

section durable
variable {k : NvsKey} {v : NvsVal} {b : Board}

/-- A value that the loader takes back, and that its array can hold. -/
def Keepable : NvsKey → NvsVal → Prop
  | .deviceName, .str s => s.1.length + 1 < NAME_MAX_LENGTH
  | .ssid, .str s => s.1.length < SSID_MAX_LENGTH
  | .pass, .str s => s.1.length < PASS_MAX_LENGTH
  | .inputMode, .u8 _ => True
  | .outputMode, .u8 _ => True
  | .dhcpEnable, .u8 _ => True
  | .wifiManagerEnable, .u8 _ => True
  | _, _ => False

theorem Keepable.fits (h : Keepable k v) : Fits k v := by
  cases k <;> cases v <;> first | exact h.elim | trivial | skip
  · exact Nat.lt_of_succ_lt h
  · exact Nat.le_trans (Nat.le_of_lt h) (Nat.le_add_right _ 2)
  · exact Nat.le_trans (Nat.le_of_lt h) (Nat.le_add_right _ 2)

theorem Keepable.accepted (h : Keepable k v) (old : Option NvsVal) : b.accepted k v old = some v := by
  cases k <;> cases v <;> first | exact h.elim | rfl | skip
  · exact if_pos h
  · exact if_pos (Nat.le_trans h (Nat.le_add_right _ 2))
  · exact if_pos (Nat.le_trans h (Nat.le_add_right _ 2))

theorem mem_loadOrder_of_durable (hk : k ∈ durableKeys) : k ∈ Board.loadOrder := by
  cases k <;> first | decide | exact absurd hk (by decide)

/-- The credentials that the loader finds are inside their arrays afterwards. -/
structure Board.Loadable (b : Board) : Prop where
  ssid : Keepable .ssid (b.stored .ssid)
  pass : Keepable .pass (b.stored .pass)

/-- RAM and NVS hold `v`, and NVS a gateway and credentials that can be loaded. -/
structure Kept (k : NvsKey) (v : NvsVal) (b : Board) : Prop where
  sound : b.nvs.Sound
  gateway : Fits .gateway (b.stored .gateway)
  loadable : b.Loadable
  value : b.ram.value k = some v
  content : b.nvs.content k = some v
  keepable : Keepable k v

def PowerEvent.given (k : NvsKey) : PowerEvent → Option NvsVal
  | .op o => o.given k
  | .powerCycle _ => none

/-- What an operation gives to `k` can be kept, and none gives it to NVS alone. Whether it is `k`
that it changes or not, the operation keeps to the arrays that it writes. -/
def PowerEvent.Endures (k : NvsKey) : PowerEvent → Prop
  | .op o => (∀ text, o = .terminal text → k = .deviceName → firstWord text.1 ≠ SETNAME) ∧
      (∀ v, o.given k = some v → Keepable k v) ∧ o.Within
  | .powerCycle _ => True

/-- The last value that an event has given, or the first one. -/
def lastGiven (k : NvsKey) (v : NvsVal) (es : List PowerEvent) : NvsVal :=
  es.foldl (fun v e => (e.given k).getD v) v

section change
variable {key : NvsKey} {w : NvsVal} {o o' : Option NvsVal} {b' : Board}

theorem Gives.keepable (h : Gives k o b b') (hb : b.nvs.Sound) (hk : Keepable k (b.stored k))
    (ho : ∀ w, o = some w → Keepable k w) : Keepable k (b'.stored k) := by
  rw [Board.stored, h.content hb]
  cases o with
  | none => exact hk
  | some w => exact ho w rfl

theorem Board.Loadable.of_gives (h : b.Loadable) (hb : b.nvs.Sound) (hssid : Gives .ssid o b b')
    (hpass : Gives .pass o' b b') (ho : ∀ w, o = some w → Keepable .ssid w)
    (ho' : ∀ w, o' = some w → Keepable .pass w) : b'.Loadable :=
  ⟨hssid.keepable hb h.ssid ho, hpass.keepable hb h.pass ho'⟩

theorem ConfigOp.Within.keepable {op : ConfigOp} (h : op.Within) (hk : k = .ssid ∨ k = .pass) (w : NvsVal)
    (hw : op.given k = some w) : Keepable k w := by
  cases w with
  | str s =>
    rcases hk with rfl | rfl
    · exact h.ssid s hw
    · exact h.pass s hw
  -- nothing but a string is given to a credential
  | _ => rcases hk with rfl | rfl <;> cases op <;> simp [ConfigOp.given] at hw

/-- A change that gives the setting a value, and the gateway and the credentials none that the
loader cannot read. -/
theorem Kept.of_gives (h : Kept k v b) (hgives : Gives k o b b')
    (hgateway : Fits .gateway (b'.stored .gateway)) (hloadable : b'.Loadable)
    (hkeepable : ∀ w, o = some w → Keepable k w) : Kept k (o.getD v) b' := by
  have hor : o.or (some v) = some (o.getD v) := by
    cases o <;> rfl
  refine ⟨hgives.sound h.sound, hgateway, hloadable, ?_, ?_, ?_⟩
  · rw [hgives.value, h.value, hor]
  · rw [hgives.content h.sound, h.content, hor]
  · cases o with
    | none => exact h.keepable
    | some w => exact hkeepable w rfl

end change

theorem kept_perform (toInt : List UInt8 → ℤ) (hk : k ∈ durableKeys) (op : ConfigOp)
    (hname : ∀ text, op = .terminal text → k = .deviceName → firstWord text.1 ≠ SETNAME)
    (hgiven : ∀ v, op.given k = some v → Keepable k v)
    (hcredential : ∀ {j}, j = .ssid ∨ j = .pass → ∀ v, op.given j = some v → Keepable j v)
    (h : Kept k v b) : Kept k ((op.given k).getD v) (b.perform toInt op) := by
  have hloadable : (b.perform toInt op).Loadable :=
    h.loadable.of_gives h.sound (perform_gives b toInt (by decide) op nofun)
      (perform_gives b toInt (by decide) op nofun) (hcredential (Or.inl rfl)) (hcredential (Or.inr rfl))
  apply h.of_gives (perform_gives b toInt hk op hname) _ hloadable hgiven
  -- it gives the gateway a blob of four bytes, or leaves it alone
  by_cases hinit : op = .setInitDone
  · subst hinit
    exact h.gateway
  · exact fits_stored (perform_stores b toInt (by decide) op hinit) h.sound h.gateway

/-- After a boot RAM and NVS hold what the loader can take from NVS. -/
theorem kept_of_stored (toInt : List UInt8 → ℤ) (hk : k ∈ durableKeys) (netif : Netif)
    (hsound : b.nvs.Sound) (hgateway : Fits .gateway (b.stored .gateway)) (hloadable : b.Loadable)
    (hstored : b.stored k = v) (hkeepable : Keepable k v) : Kept k v (powerMachine toInt b (.powerCycle netif)).1 := by
  obtain ⟨g, hg, hlen⟩ := Fits.blob (n := 4) rfl rfl hgateway
  have hb' := powerCycle_booted toInt netif hsound hg hlen
  have hfit : Fits k (b.stored k) := hstored ▸ hkeepable.fits
  obtain ⟨b₀, old, _, hvalue⟩ := hb'.valueAt k (mem_loadOrder_of_durable hk) hfit
  have hsame {j : NvsKey} (hj : j ∈ Board.loadOrder) (hfits : Fits j (b.stored j)) :
      (powerMachine toInt b (.powerCycle netif)).1.stored j = b.stored j :=
    Board.stored_of_content (hb'.contentAt j hj hfits)
  refine ⟨hb'.sound, ?_, ⟨?_, ?_⟩, ?_, ?_, hkeepable⟩
  · rw [Board.stored_of_content hb'.contentGateway]
    exact hlen
  · rw [hsame (by decide) hloadable.ssid.fits]
    exact hloadable.ssid
  · rw [hsame (by decide) hloadable.pass.fits]
    exact hloadable.pass
  · rw [hvalue, hstored]
    exact hkeepable.accepted old
  · rw [hb'.contentAt k (mem_loadOrder_of_durable hk) hfit, hstored]

theorem kept_powerCycle (toInt : List UInt8 → ℤ) (hk : k ∈ durableKeys) (netif : Netif)
    (h : Kept k v b) : Kept k v (powerMachine toInt b (.powerCycle netif)).1 :=
  kept_of_stored toInt hk netif h.sound h.gateway h.loadable (Board.stored_of_content h.content) h.keepable

/-- The power may go at any moments between two operations: names, credentials, modes and flags
are what was last set, in RAM and in NVS. -/
theorem durable_last (toInt : List UInt8 → ℤ) (hk : k ∈ durableKeys) (es : List PowerEvent)
    (hes : ∀ e ∈ es, e.Endures k) (h : Kept k v b) :
    Kept k (lastGiven k v es) (exec (powerMachine toInt) b es) := by
  -- the value that is kept moves with the events that give one
  induction es generalizing b v with
  | nil => exact h
  | cons e es ih =>
    apply ih fun e' he' => hes e' (List.mem_cons_of_mem e he')
    cases e with
    | op op =>
      obtain ⟨hname, hgiven, hwithin⟩ := hes _ List.mem_cons_self
      exact kept_perform toInt hk op hname hgiven hwithin.keepable h
    | powerCycle netif => exact kept_powerCycle toInt hk netif h

/-- A mode is set, the power goes, a name and a passphrase are set, and the power goes again. -/
def modeLife : List PowerEvent :=
  [.op (.setInputMode 7), .powerCycle Board.station, .op (.setName (fun _ => 65) 3),
    .op (.setPass (fun _ => 66) 31), .powerCycle Board.station]

def modeBoard : Board :=
  let b := Board.reset (Board.storage fun k => if k = .inputMode then some (.u8 5) else none) Board.station
  { b with ram := { b.ram with inputMode := 5 } }

theorem durable_last_mode : Kept .inputMode (.u8 7) (exec (powerMachine fun _ => 0) modeBoard modeLife) := by
  have hloadable : modeBoard.Loadable :=
    ⟨show DEFAULT_SSID.1.length < 32 by decide, show DEFAULT_PASS.1.length < 32 by decide⟩
  have hkept : Kept .inputMode (.u8 5) modeBoard := ⟨fun _ => rfl, rfl, hloadable, rfl, rfl, trivial⟩
  have hendures : ∀ e ∈ modeLife, e.Endures .inputMode := by
    intro e he
    simp only [modeLife, List.mem_cons, List.not_mem_nil, or_false] at he
    rcases he with rfl | rfl | rfl | rfl | rfl
    · refine ⟨nofun, fun v hv => ?_, nofun, nofun, nofun⟩
      obtain rfl : NvsVal.u8 7 = v := Option.some.inj hv
      trivial
    · trivial
    · exact ⟨nofun, nofun, nofun, nofun, nofun⟩
    · refine ⟨nofun, nofun, nofun, fun s hs => ?_, nofun⟩
      cases hs
      decide
    · trivial
  exact durable_last (fun _ => 0) (by decide) modeLife hendures hkept

end durable

section volatile
variable {k : NvsKey} {v : NvsVal} {b : Board}

/-- NVS holds `v` for `k`, or nothing and `v` is the default, and no event can change it. -/
structure Frozen (k : NvsKey) (v : NvsVal) (b : Board) : Prop where
  sound : b.nvs.Sound
  gateway : Fits .gateway (b.stored .gateway)
  stored : b.stored k = v
  unstored : Unstored k b

/-- The addresses are frozen as long as nothing sets `INIT_DONE`, which `app_main` never does. -/
def PowerEvent.Leaves (k : NvsKey) (e : PowerEvent) : Prop := e = .op .setInitDone → k ∈ volatileKeys

theorem frozen_perform (toInt : List UInt8 → ℤ) (op : ConfigOp) (hop : (PowerEvent.op op).Leaves k)
    (h : Frozen k v b) : Frozen k v (b.perform toInt op) := by
  have hk : k ≠ .deviceName := by
    rintro rfl
    rcases h.unstored with hmem | ⟨hmem, _⟩
    · exact absurd hmem (by decide)
    · exact absurd hmem (by decide)
  by_cases hinit : op = .setInitDone
  · subst hinit
    exact ⟨h.sound, h.gateway, h.stored, Or.inl (hop rfl)⟩
  · have hstores := perform_stores (k := k) b toInt hk op hinit
    have hgateway := perform_stores (k := .gateway) b toInt (by decide) op hinit
    refine ⟨hstores.sound h.sound, fits_stored hgateway h.sound h.gateway, ?_, ?_⟩
    · rcases hstores.content h.sound with hsame | ⟨hchanges, _⟩
      · rw [Board.stored, hsame]
        exact h.stored
      · exact absurd h.unstored hchanges
    · rw [Unstored, hstores.initDone]
      exact h.unstored

theorem frozen_powerCycle (toInt : List UInt8 → ℤ) (netif : Netif) (hfit : Fits k v) (h : Frozen k v b) :
    Frozen k v (powerMachine toInt b (.powerCycle netif)).1 := by
  obtain ⟨g, hg, hlen⟩ := Fits.blob (n := 4) rfl rfl h.gateway
  have hb' := powerCycle_booted toInt netif h.sound hg hlen
  have hfits : Fits .gateway (.blob g) := hlen
  refine ⟨hb'.sound, ?_, ?_, ?_⟩
  · rw [Board.stored_of_content hb'.contentGateway]
    exact hfits
  · by_cases hgw : k = .gateway
    · subst hgw
      rw [Board.stored_of_content hb'.contentGateway, ← hg]
      exact h.stored
    · have hmem : k ∈ Board.loadOrder := by
        rcases h.unstored with hmem | ⟨hmem, _⟩
        · cases k <;> first | decide | exact absurd hmem (by decide)
        · cases k <;> first | decide | exact absurd hmem (by decide) | exact absurd rfl hgw
      apply Board.stored_of_content
      rw [hb'.contentAt k hmem (h.stored.symm ▸ hfit), h.stored]
  · rcases h.unstored with hmem | ⟨hmem, _⟩
    · exact Or.inl hmem
    · exact Or.inr ⟨hmem, hb'.initDone⟩

theorem frozen_exec (toInt : List UInt8 → ℤ) (hfit : Fits k v) (es : List PowerEvent)
    (hes : ∀ e ∈ es, e.Leaves k) (h : Frozen k v b) : Frozen k v (exec (powerMachine toInt) b es) := by
  induction es generalizing b with
  | nil => exact h
  | cons e es ih =>
    apply ih fun e' he' => hes e' (List.mem_cons_of_mem e he')
    cases e with
    | op op => exact frozen_perform toInt op (hes _ List.mem_cons_self) h
    | powerCycle netif => exact frozen_powerCycle toInt netif hfit h

/-- The address, the universe, the slots and the number of the node are after each boot what they
were after the first, whatever has been set; so are the addresses without `INIT_DONE`. -/
theorem volatile_returns (toInt : List UInt8 → ℤ) (hk : k ≠ .gateway) (hfit : Fits k v)
    (hslots : ∀ n, v = .u16 n → k = .slots → DMX_MIN_SLOTS ≤ n.toNat ∧ n.toNat ≤ DMX_MAX_SLOTS)
    (es : List PowerEvent) (hes : ∀ e ∈ es, e.Leaves k) (netif : Netif) (h : Frozen k v b) :
    (exec (powerMachine toInt) b (es ++ [.powerCycle netif])).ram.value k = some (Board.asLoaded k v) := by
  have hmid : Frozen k v (exec (powerMachine toInt) b es) := frozen_exec toInt hfit es hes h
  obtain ⟨g, hg, hlen⟩ := Fits.blob (n := 4) rfl rfl hmid.gateway
  have hb' := powerCycle_booted toInt netif hmid.sound hg hlen
  have hmem : k ∈ Board.loadOrder ∧ k ∈ Board.numberKeys := by
    rcases h.unstored with hmem | ⟨hmem, _⟩
    · cases k <;> first | decide | exact absurd hmem (by decide)
    · cases k <;> first | decide | exact absurd hmem (by decide) | exact absurd rfl hk
  have hvalue := hb'.valueAt k hmem.1 (hmid.stored.symm ▸ hfit)
  rw [hmid.stored] at hvalue
  obtain ⟨b₀, old, hinit, hvalue⟩ := hvalue
  rw [exec_append]
  exact hvalue.trans (Board.accepted_eq b₀ k v old hmem.2 hfit hinit hslots)

def newBoard : Board := Board.reset (Board.storage fun _ => none) Board.station

theorem volatile_returns_address :
    (exec (powerMachine fun _ => 0) newBoard
      ([.op (.setOwnAddress 100), .op .setInitDone] ++ [.powerCycle Board.station])).ram.value .ownAddress =
        some (.u16 0) := by
  have hfrozen : Frozen .ownAddress (.u16 0) newBoard := ⟨fun _ => rfl, rfl, rfl, Or.inl (by decide)⟩
  have hfit : Fits .ownAddress (.u16 0) := trivial
  apply volatile_returns (fun _ => 0) (by decide) hfit _ _ _ Board.station hfrozen
  · exact fun _ _ hk => absurd hk (by decide)
  · exact fun _ _ _ => by decide

/-- After each boot the MAC address is made of the gateway and the end of the default address, and
no operation can change that without `INIT_DONE`. -/
theorem mac_returns (toInt : List UInt8 → ℤ) {g : List UInt8} (hlen : g.length = 4)
    (es : List PowerEvent) (hes : ∀ e ∈ es, e.Leaves .gateway) (netif : Netif)
    (h : Frozen .gateway (.blob g) b) :
    (exec (powerMachine toInt) b (es ++ [.powerCycle netif])).ram.value .mac =
      some (.blob (g ++ [0x68, 0x43])) := by
  have hfit : Fits .gateway (.blob g) := hlen
  have hmid : Frozen .gateway (.blob g) (exec (powerMachine toInt) b es) :=
    frozen_exec toInt hfit es hes h
  rw [exec_append]
  exact (powerCycle_booted toInt netif hmid.sound hmid.stored hlen).valueMac

theorem mac_returns_set :
    (exec (powerMachine fun _ => 0) newBoard
      ([.op (.setMac fun _ => 2)] ++ [.powerCycle Board.station])).ram.value .mac =
        some (.blob [1, 1, 168, 192, 0x68, 0x43]) := by
  have hfrozen : Frozen .gateway (.blob [1, 1, 168, 192]) newBoard :=
    ⟨fun _ => rfl, rfl, rfl, Or.inr ⟨by decide, rfl⟩⟩
  apply mac_returns (fun _ => 0) rfl _ _ Board.station hfrozen
  intro e he hinit
  rw [List.mem_singleton.mp he] at hinit
  cases hinit

end volatile

end BlizzardBridge
