import BlizzardBridge.EventMachine
import BlizzardBridge.WdmxExits

/-! The wireless module over a whole life of the app: from the start of the module on, the
handlers of the pins V13, V14 and V15, one after another. -/
namespace BlizzardBridge
open Program EventMachine

def HIGH : ℤ := 1
def LOW : ℤ := 0

theorem low_ne_high : LOW ≠ HIGH := by decide

namespace Wdmx

def stopWDMX : WdmxProg Unit := do
  turnOffWdmx
  modify fun s => { s with enable := false }

/-- The configuration of the pins comes before the levels. -/
def startWDMX : WdmxProg Unit := do
  if ← get Wdmx.enable then stopWDMX else pure ()
  modify fun s => { s with powerPin := false }
  modify fun s => { s with buttonPin := false }
  modify fun s => { s with enable := true }

-- `BLYNK_WRITE(V14)`.
def blynkWriteV14 (param : ℤ) : WdmxProg Unit := do
  if ← get isWDMXBusy then pure ()
  else if param = HIGH then turnOnWdmx
  else if param = LOW then turnOffWdmx
  else pure ()

-- `BLYNK_WRITE(V15)`.
def blynkWriteV15 (param : ℤ) : WdmxProg Unit := do
  if ← get isWDMXBusy then pure ()
  else if param = HIGH then switchWdmxButtonOn
  else if param = LOW then switchWdmxButtonOff
  else pure ()

end Wdmx

/-- The app has written a pin; a call of the handler of V13 may use that many turns of its loops. -/
inductive AppEvent where
  | v13 (fuel : ℕ) (param : ℤ)
  | v14 (param : ℤ)
  | v15 (param : ℤ)

/-- The module, with the position in which the app shows the switch V14. -/
structure Session where
  wdmx : Wdmx
  shown : ℤ

namespace Session
open Wdmx

/-- What `app_main` makes of the module, whatever the levels were before. -/
def boot (powerPin buttonPin : Bool) (v14 : ℕ) (shown : ℤ) : Session :=
  ⟨((startWDMX >>= fun _ => turnOnWdmx) ⟨false, false, false, powerPin, buttonPin, 0, v14⟩).state, shown⟩

/-- The switch follows the user, and what the handler of V13 writes to it. -/
def step (leds : ℕ → Leds) (s : Session) : AppEvent → Session × List String
  | .v13 fuel param =>
    let o := blynkWriteV13 leds fuel param s.wdmx
    (⟨o.state, if s.wdmx.busy = false ∧ param ≠ 0 then o.state.v14 else s.shown⟩, o.log)
  | .v14 param =>
    let o := blynkWriteV14 param s.wdmx
    (⟨o.state, param⟩, o.log)
  | .v15 param =>
    let o := blynkWriteV15 param s.wdmx
    (⟨o.state, s.shown⟩, o.log)

end Session

namespace AppEvent

/-- Easy connect is asked for. -/
def Connects : AppEvent → Prop
  | .v13 _ param => param ≠ 0
  | _ => False

/-- The handler returns. -/
def Returns (leds : ℕ → Leds) (s : Session) : AppEvent → Prop
  | .v13 fuel param => param ≠ 0 → EndsIn (fun _ _ => True) (Wdmx.easyWdmxConnect leds fuel) s.wdmx
  | _ => True

section words
variable (leds : ℕ → Leds) (s : Session) (e : AppEvent)

/-- The LEDs go off and turn white, and the power comes back. -/
def ComesBack : Prop := e.Connects ∧ ∃ q, Wdmx.TurnsWhite leds s.wdmx.polls q

/-- The module gets to its mode. -/
def Succeeds : Prop := e.Connects ∧ ∃ q, Wdmx.ReachesMode leds s.wdmx.polls q

def PowersOn : Prop := e = .v14 HIGH ∨ e.ComesBack leds s

def PowersOff : Prop := e = .v14 LOW ∨ e.Connects ∧ ¬ e.ComesBack leds s

/-- The switch is where the power is. -/
def SetsSwitch : Prop :=
  e = .v14 HIGH ∨ e = .v14 LOW ∨ e.Succeeds leds s ∨ e.Connects ∧ ¬ e.ComesBack leds s

def MovesSwitch : Prop := (∃ param, e = .v14 param) ∨ e.Connects

end words

end AppEvent

namespace Wdmx
variable {leds : ℕ → Leds} {p q : ℕ}

/-- The first two waits decide whether the power comes back. -/
theorem Exits.turnsWhite_iff {e : ConnectExit} (he : Exits leds p e q) :
    (∃ b, TurnsWhite leds p b) ↔ e ≠ .notOff ∧ e ≠ .notWhite := by
  constructor
  · rintro ⟨b, a, hoff, hwhite⟩
    constructor
    · rintro rfl
      exact Passes.not_timesOut hoff he.1
    · rintro rfl
      obtain ⟨a', hoff', htimes, _⟩ := he
      rw [passes_unique hoff' hoff] at htimes
      exact Passes.not_timesOut hwhite htimes
  · rintro ⟨hoff, hwhite⟩
    cases e with
    | notOff => exact absurd rfl hoff
    | notWhite => exact absurd rfl hwhite
    | stillWhite =>
      obtain ⟨b, hb, _⟩ := he
      exact ⟨b, hb⟩
    | noMode =>
      obtain ⟨c, ⟨b, hb, _⟩, _⟩ := he
      exact ⟨b, hb⟩
    | connected =>
      obtain ⟨d, ⟨c, ⟨b, hb, _⟩, _⟩, _⟩ := he
      exact ⟨b, hb⟩

theorem Exits.reachesMode_iff {e : ConnectExit} (he : Exits leds p e q) :
    (∃ d, ReachesMode leds p d) ↔ e = .connected := by
  constructor
  · rintro ⟨d, hd⟩
    exact (hd.connected he).1
  · rintro rfl
    obtain ⟨d, hd, _⟩ := he
    exact ⟨d, hd⟩

/-- What the handler writes to V14 behind that exit. -/
def ConnectExit.shows : ConnectExit → ℕ
  | connected => 1
  | _ => 0

end Wdmx

namespace Session
open Wdmx

/-- Between two handlers. -/
structure Sound (s : Session) : Prop where
  enable : s.wdmx.enable = true
  busy : s.wdmx.busy = false
  power : s.wdmx.powerPin = s.wdmx.powerOn

section handlers
variable {leds : ℕ → Leds} {s : Session} (hs : s.Sound)
include hs

theorem step_v13 {fuel : ℕ} {param : ℤ} (hparam : param ≠ 0)
    (hreturns : (AppEvent.v13 fuel param).Returns leds s) :
    ∃ e q, Exits leds s.wdmx.polls e q ∧ (s.step leds (.v13 fuel param)).1 =
      ⟨{ ConnectExit.leave s.wdmx q e with buttonPin := false, v14 := e.shows }, e.shows⟩ := by
  obtain ⟨r, s', hend, _⟩ := hreturns hparam
  obtain ⟨e, q, hexit, rfl, rfl⟩ := (returns_easyWdmxConnect hs.enable leds).mp ⟨fuel, hend⟩
  have hbusy : { s.wdmx with busy := false } = s.wdmx := by rw [← hs.busy]
  rw [hbusy] at hend
  have henable : (ConnectExit.leave s.wdmx q e).enable = true := by
    cases e <;> exact hs.enable
  have hhandler := ends_blynkWriteV13 hs.busy hparam hend henable
  have hstate : (blynkWriteV13 leds fuel param s.wdmx).state =
      { ConnectExit.leave s.wdmx q e with buttonPin := false, v14 := e.shows } := by
    rw [hhandler.2]
    cases e <;> rfl
  refine ⟨e, q, hexit, ?_⟩
  change Session.mk (blynkWriteV13 leds fuel param s.wdmx).state (if _ then _ else _) = _
  rw [if_pos ⟨hs.busy, hparam⟩, hstate]

theorem step_v13_zero (fuel : ℕ) : (s.step leds (.v13 fuel 0)).1 = s := by
  have hfree : ¬ s.wdmx.isWDMXBusy = true := Bool.eq_false_iff.mp hs.busy
  have hends : Ends (blynkWriteV13 leds fuel 0) s.wdmx () s.wdmx := by
    apply Ends.bind ends_step
    rw [if_neg hfree, if_neg (not_not.mpr rfl)]
    exact ends_pure
  change Session.mk (blynkWriteV13 leds fuel 0 s.wdmx).state (if _ then _ else _) = s
  rw [if_neg fun h => h.2 rfl, hends.2]

theorem step_v14 (param : ℤ) : (s.step leds (.v14 param)).1 =
    ⟨if param = HIGH then { s.wdmx with powerPin := true, powerOn := true }
      else if param = LOW then { s.wdmx with powerPin := false, powerOn := false } else s.wdmx, param⟩ := by
  have hfree : ¬ s.wdmx.isWDMXBusy = true := Bool.eq_false_iff.mp hs.busy
  have hends : Ends (blynkWriteV14 param) s.wdmx ()
      (if param = HIGH then { s.wdmx with powerPin := true, powerOn := true }
        else if param = LOW then { s.wdmx with powerPin := false, powerOn := false } else s.wdmx) := by
    apply Ends.bind ends_step
    rw [if_neg hfree]
    split_ifs
    · exact ends_turnOnWdmx hs.enable
    · exact ends_turnOffWdmx hs.enable
    · exact ends_pure
  exact congrArg (Session.mk · param) hends.2

theorem step_v15 (param : ℤ) : (s.step leds (.v15 param)).1 =
    ⟨if param = HIGH then { s.wdmx with buttonPin := true }
      else if param = LOW then { s.wdmx with buttonPin := false } else s.wdmx, s.shown⟩ := by
  have hfree : ¬ s.wdmx.isWDMXBusy = true := Bool.eq_false_iff.mp hs.busy
  have hends : Ends (blynkWriteV15 param) s.wdmx ()
      (if param = HIGH then { s.wdmx with buttonPin := true }
        else if param = LOW then { s.wdmx with buttonPin := false } else s.wdmx) := by
    apply Ends.bind ends_step
    rw [if_neg hfree]
    split_ifs
    · exact ends_switchWdmxButtonOn hs.enable
    · exact ends_switchWdmxButtonOff hs.enable
    · exact ends_pure
  exact congrArg (Session.mk · s.shown) hends.2

omit hs in
theorem not_connects_iff {fuel : ℕ} {param : ℤ} : ¬ (AppEvent.v13 fuel param).Connects ↔ param = 0 := not_not

theorem sound_step {e : AppEvent} (hreturns : e.Returns leds s) : (s.step leds e).1.Sound := by
  cases e with
  | v13 fuel param =>
    by_cases hparam : param = 0
    · rw [hparam, step_v13_zero hs]
      exact hs
    · obtain ⟨e, q, _, hnext⟩ := step_v13 hs hparam hreturns
      rw [hnext]
      cases e <;> exact ⟨hs.enable, hs.busy, rfl⟩
  | v14 param =>
    rw [step_v14 hs]
    split_ifs
    · exact ⟨hs.enable, hs.busy, rfl⟩
    · exact ⟨hs.enable, hs.busy, rfl⟩
    · exact ⟨hs.enable, hs.busy, hs.power⟩
  | v15 param =>
    rw [step_v15 hs]
    split_ifs <;> exact ⟨hs.enable, hs.busy, hs.power⟩

theorem power_step {e : AppEvent} (hreturns : e.Returns leds s) :
    (s.step leds e).1.wdmx.powerOn = true ↔
      e.PowersOn leds s ∨ s.wdmx.powerOn = true ∧ ¬ e.PowersOff leds s := by
  unfold AppEvent.PowersOn AppEvent.PowersOff
  cases e with
  | v13 fuel param =>
    by_cases hparam : param = 0
    · have hnot : ¬ (AppEvent.v13 fuel param).Connects := not_connects_iff.mpr hparam
      have hback : ¬ (AppEvent.v13 fuel param).ComesBack leds s := fun h => hnot h.1
      rw [hparam, step_v13_zero hs, ← hparam]
      simp [hnot, hback]
    · obtain ⟨e, q, hexit, hnext⟩ := step_v13 hs hparam hreturns
      have hconnects : (AppEvent.v13 fuel param).Connects := hparam
      have hback : (AppEvent.v13 fuel param).ComesBack leds s ↔ e ≠ .notOff ∧ e ≠ .notWhite :=
        (and_iff_right hconnects).trans hexit.turnsWhite_iff
      rw [hnext, hback]
      cases e <;> simp [ConnectExit.leave, hconnects]
  | v14 param =>
    have hnot : ¬ (AppEvent.v14 param).Connects := id
    have hback : ¬ (AppEvent.v14 param).ComesBack leds s := fun h => hnot h.1
    rw [step_v14 hs]
    simp only [AppEvent.v14.injEq, hnot, hback, or_false, false_and]
    split_ifs with hhigh hlow
    · simp [hhigh]
    · simp [hlow, low_ne_high]
    · simp [hhigh, hlow]
  | v15 param =>
    have hnot : ¬ (AppEvent.v15 param).Connects := id
    have hback : ¬ (AppEvent.v15 param).ComesBack leds s := fun h => hnot h.1
    rw [step_v15 hs]
    split_ifs <;> simp [hnot, hback]

theorem button_step {e : AppEvent} (hreturns : e.Returns leds s) :
    (s.step leds e).1.wdmx.buttonPin = true ↔
      e = .v15 HIGH ∨ s.wdmx.buttonPin = true ∧ ¬ (e = .v15 LOW ∨ e.Connects) := by
  cases e with
  | v13 fuel param =>
    by_cases hparam : param = 0
    · have hnot : ¬ (AppEvent.v13 fuel param).Connects := not_connects_iff.mpr hparam
      rw [hparam, step_v13_zero hs, ← hparam]
      simp [hnot]
    · obtain ⟨e, q, hexit, hnext⟩ := step_v13 hs hparam hreturns
      have hconnects : (AppEvent.v13 fuel param).Connects := hparam
      rw [hnext]
      simp [hconnects]
  | v14 param =>
    have hnot : ¬ (AppEvent.v14 param).Connects := id
    rw [step_v14 hs]
    split_ifs <;> simp [hnot]
  | v15 param =>
    have hnot : ¬ (AppEvent.v15 param).Connects := id
    rw [step_v15 hs]
    simp only [AppEvent.v15.injEq, hnot, or_false]
    split_ifs with hhigh hlow
    · simp [hhigh]
    · simp [hlow, low_ne_high]
    · simp [hhigh, hlow]

theorem switch_step {e : AppEvent} (hreturns : e.Returns leds s) :
    (s.step leds e).1.shown = (s.step leds e).1.wdmx.isWDMXOn ↔
      e.SetsSwitch leds s ∨ s.shown = s.wdmx.isWDMXOn ∧ ¬ e.MovesSwitch := by
  unfold AppEvent.SetsSwitch AppEvent.MovesSwitch
  cases e with
  | v13 fuel param =>
    by_cases hparam : param = 0
    · have hnot : ¬ (AppEvent.v13 fuel param).Connects := not_connects_iff.mpr hparam
      have hsucceeds : ¬ (AppEvent.v13 fuel param).Succeeds leds s := fun h => hnot h.1
      rw [hparam, step_v13_zero hs, ← hparam]
      simp [hnot, hsucceeds]
    · obtain ⟨e, q, hexit, hnext⟩ := step_v13 hs hparam hreturns
      have hconnects : (AppEvent.v13 fuel param).Connects := hparam
      have hback : (AppEvent.v13 fuel param).ComesBack leds s ↔ e ≠ .notOff ∧ e ≠ .notWhite :=
        (and_iff_right hconnects).trans hexit.turnsWhite_iff
      have hsucceeds : (AppEvent.v13 fuel param).Succeeds leds s ↔ e = .connected :=
        (and_iff_right hconnects).trans hexit.reachesMode_iff
      rw [hnext, hback, hsucceeds]
      cases e <;> simp [ConnectExit.leave, ConnectExit.shows, isWDMXOn, hconnects]
  | v14 param =>
    have hnot : ¬ (AppEvent.v14 param).Connects := id
    have hsucceeds : ¬ (AppEvent.v14 param).Succeeds leds s := fun h => hnot h.1
    rw [step_v14 hs]
    simp only [AppEvent.v14.injEq, hnot, hsucceeds]
    split_ifs with hhigh hlow
    · simp [hhigh, isWDMXOn, HIGH]
    · simp [hlow, isWDMXOn, LOW]
    · -- The power is neither of the two values that the switch does not show.
      have hpower : (s.wdmx.isWDMXOn : ℤ) = HIGH ∨ (s.wdmx.isWDMXOn : ℤ) = LOW := by
        unfold isWDMXOn
        cases s.wdmx.powerOn
        · exact Or.inr rfl
        · exact Or.inl rfl
      have hapart : param ≠ s.wdmx.isWDMXOn := by
        rintro rfl
        exact hpower.elim hhigh hlow
      simp [hhigh, hlow, hapart]
  | v15 param =>
    have hnot : ¬ (AppEvent.v15 param).Connects := id
    have hsucceeds : ¬ (AppEvent.v15 param).Succeeds leds s := fun h => hnot h.1
    rw [step_v15 hs]
    split_ifs <;> simp [hnot, hsucceeds, isWDMXOn]

end handlers

theorem boot_eq (powerPin buttonPin : Bool) (v14 : ℕ) (shown : ℤ) :
    boot powerPin buttonPin v14 shown = ⟨⟨true, true, false, true, false, 0, v14⟩, shown⟩ := rfl

/-- In every run of handlers that return the module stays ready for the next one. The power and
the button are as the last event that moves them has left them, and the switch in the app agrees
with the power as long as the last event that moves either has set both. -/
theorem session_settled (leds : ℕ → Leds) (powerPin buttonPin : Bool) (v14 : ℕ) (shown : ℤ)
    (es : List AppEvent)
    (hreturns : Along (step leds) (fun s e => e.Returns leds s) (boot powerPin buttonPin v14 shown) es) :
    let s₀ := boot powerPin buttonPin v14 shown
    let s := exec (step leds) s₀ es
    s.Sound ∧
      (s.wdmx.powerOn = true ↔ Settled (step leds) (fun s e => e.PowersOn leds s)
        (fun s e => e.PowersOff leds s) True s₀ es) ∧
      (s.wdmx.buttonPin = true ↔ Settled (step leds) (fun _ e => e = .v15 HIGH)
        (fun _ e => e = .v15 LOW ∨ e.Connects) False s₀ es) ∧
      (s.shown = s.wdmx.isWDMXOn ↔ Settled (step leds) (fun s e => e.SetsSwitch leds s)
        (fun _ e => e.MovesSwitch) (shown = HIGH) s₀ es) := by
  intro s₀ s
  have hs₀ : s₀.Sound := ⟨rfl, rfl, rfl⟩
  have hsound : ∀ (s : Session) (e : AppEvent), s.Sound → e.Returns leds s → (s.step leds e).1.Sound :=
    fun _ _ hs hreturns => sound_step hs hreturns
  have hpower := settled_iff_along (I := fun s => s.wdmx.powerOn = true) hsound
    (fun _ _ hs h => power_step hs h) hs₀ hreturns
  have hbutton := settled_iff_along (I := fun s => s.wdmx.buttonPin = true) hsound
    (fun _ _ hs h => button_step hs h) hs₀ hreturns
  have hswitch := settled_iff_along (I := fun s => s.shown = s.wdmx.isWDMXOn) hsound
    (fun _ _ hs h => switch_step hs h) hs₀ hreturns
  have hon : (s₀.wdmx.powerOn = true) = True := eq_true rfl
  have hreleased : (s₀.wdmx.buttonPin = true) = False := eq_false Bool.false_ne_true
  rw [hon] at hpower
  rw [hreleased] at hbutton
  exact ⟨exec_invariant hsound hs₀ hreturns, hpower.symm, hbutton.symm, hswitch.symm⟩

/-- The switch goes to the position off behind an error that leaves the power on. -/
theorem session_settled_red :
    let es := [AppEvent.v14 HIGH, AppEvent.v13 60 1]
    let s₀ := boot false false 0 0
    let s := exec (step (settlesOn red)) s₀ es
    s.Sound ∧
      (s.wdmx.powerOn = true ↔ Settled (step (settlesOn red)) (fun s e => e.PowersOn (settlesOn red) s)
        (fun s e => e.PowersOff (settlesOn red) s) True s₀ es) ∧
      (s.wdmx.buttonPin = true ↔ Settled (step (settlesOn red)) (fun _ e => e = .v15 HIGH)
        (fun _ e => e = .v15 LOW ∨ e.Connects) False s₀ es) ∧
      (s.shown = s.wdmx.isWDMXOn ↔ Settled (step (settlesOn red))
        (fun s e => e.SetsSwitch (settlesOn red) s) (fun _ e => e.MovesSwitch) (0 = HIGH) s₀ es) := by
  intro es
  apply session_settled
  refine ⟨trivial, fun _ => ?_, trivial⟩
  rw [boot_eq, step_v14 ⟨rfl, rfl, rfl⟩, if_pos rfl]
  exact endsIn_of_ends settlesOn_red_returns trivial

end Session

end BlizzardBridge
