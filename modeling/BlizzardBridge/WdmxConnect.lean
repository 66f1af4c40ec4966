import BlizzardBridge.Wdmx

/-! What `easy_wdmx_connect` does for each sequence of readings: where it leaves, after how
many polls, and what the pins and the app show then. -/
namespace BlizzardBridge
open Program

namespace Wdmx

section readings
variable (leds : ℕ → Leds)

/-- The wait that begins with the poll `p` sees the test give `shown` in time; the next poll
is `q`. -/
def Passes (index : ℕ) (shown : Bool) (p q : ℕ) : Prop :=
  ∃ i ≤ CONNECT_TIMEOUT + 1, IsLeast {i | (leds (p + i)).shows index = shown} i ∧ q = p + i + 1

def TimesOut (index : ℕ) (shown : Bool) (p : ℕ) : Prop :=
  ∀ i ≤ CONNECT_TIMEOUT + 1, ¬ (leds (p + i)).shows index = shown

/-- The search for the mode, which polls twice a turn behind its first poll. -/
def FindsMode (mode p q : ℕ) : Prop :=
  ∃ i ≤ WDMX_MAX_MODES + 1, IsLeast {i | (leds (p + 1 + 2 * i)).shows mode = true} i ∧
    q = p + 1 + 2 * i + 1

def LacksMode (mode p : ℕ) : Prop :=
  ∀ i ≤ WDMX_MAX_MODES + 1, ¬ (leds (p + 1 + 2 * i)).shows mode = true

/-- The LEDs go off after the power, as they shall. -/
def GoesOff (p q : ℕ) : Prop := Passes leds WDMX_COLOR_OFF true p q

/-- Then they turn white while the button is held. -/
def TurnsWhite (p q : ℕ) : Prop := ∃ a, GoesOff leds p a ∧ Passes leds WDMX_COLOR_WHITE true a q

/-- Then, with the power on, they turn to another colour. -/
def EntersConfig (p q : ℕ) : Prop :=
  ∃ b, TurnsWhite leds p b ∧ Passes leds WDMX_COLOR_WHITE false b q

/-- Then the presses of the button lead to the mode; what is left is the last loop. -/
def ReachesMode (p q : ℕ) : Prop :=
  ∃ c, EntersConfig leds p c ∧ FindsMode leds WDMX_MODE_TRANSMIT c q

/-- Where `easy_wdmx_connect` leaves: after one of its waits, without the mode, or with it. -/
inductive ConnectExit where
  | notOff
  | notWhite
  | stillWhite
  | noMode
  | connected
  deriving DecidableEq, Repr

/-- The readings from the poll `p` on lead to that exit; the next poll is `q`. -/
def Exits (p : ℕ) : ConnectExit → ℕ → Prop
  | .notOff, q => TimesOut leds WDMX_COLOR_OFF true p ∧ q = p + (CONNECT_TIMEOUT + 2)
  | .notWhite, q => ∃ a, GoesOff leds p a ∧ TimesOut leds WDMX_COLOR_WHITE true a ∧
      q = a + (CONNECT_TIMEOUT + 2)
  | .stillWhite, q => ∃ b, TurnsWhite leds p b ∧ TimesOut leds WDMX_COLOR_WHITE false b ∧
      q = b + (CONNECT_TIMEOUT + 2)
  | .noMode, q => ∃ c, EntersConfig leds p c ∧ LacksMode leds WDMX_MODE_TRANSMIT c ∧
      q = c + 1 + 2 * (WDMX_MAX_MODES + 2)
  | .connected, q => ∃ d, ReachesMode leds p d ∧
      ∃ i, IsLeast {i | (leds (d + i)).shows WDMX_COLOR_WHITE = true} i ∧ q = d + i + 1

namespace ConnectExit

def result : ConnectExit → ℕ
  | connected => CONNECT_SUCCESS
  | _ => CONNECT_ERROR

/-- How the exit leaves the pins, from the state `s` at the call. -/
def leave (s : Wdmx) (q : ℕ) : ConnectExit → Wdmx
  | notOff => { s with powerPin := false, powerOn := false, polls := q }
  | notWhite => { s with powerPin := false, powerOn := false, buttonPin := true, polls := q }
  | _ => { s with powerPin := true, powerOn := true, buttonPin := false, polls := q }

end ConnectExit

end readings

section fuel
variable (leds : ℕ → Leds)

theorem fuelMono_valueEnabled {α : Type} {X : ℕ → WdmxProg α} (hX : FuelMono X) :
    FuelMono fun n => valueEnabled (X n) := fuelMono_const.bind fun _ => hX.ite fuelMono_const

theorem fuelMono_wait_then {index : ℕ} {shown : Bool} {Y : ℕ → WdmxProg ℕ} (hY : FuelMono Y) :
    FuelMono fun n => waitColor leds index shown n >>= fun w =>
      if w ≠ CONNECT_SUCCESS then pure CONNECT_ERROR else Y n :=
  FuelMono.bind (fuelMono_whileLoop _ 0) fun _ => fuelMono_const.ite hY

theorem fuelMono_leaveWhite : FuelMono fun n => turnOnWdmx >>= fun _ => switchWdmxButtonOff >>= fun _ =>
    waitColor leds WDMX_COLOR_WHITE false n >>= fun w =>
      if w ≠ CONNECT_SUCCESS then pure CONNECT_ERROR else pure CONNECT_SUCCESS := by
  apply fuelMono_const.bind fun _ => ?_
  apply fuelMono_const.bind fun _ => ?_
  exact fuelMono_wait_then leds fuelMono_const

theorem fuelMono_turnWhite : FuelMono fun n => switchWdmxButtonOn >>= fun _ =>
    waitColor leds WDMX_COLOR_WHITE true n >>= fun white =>
      if white ≠ CONNECT_SUCCESS then pure CONNECT_ERROR
      else turnOnWdmx >>= fun _ => switchWdmxButtonOff >>= fun _ =>
        waitColor leds WDMX_COLOR_WHITE false n >>= fun w =>
          if w ≠ CONNECT_SUCCESS then pure CONNECT_ERROR else pure CONNECT_SUCCESS :=
  fuelMono_const.bind fun _ => fuelMono_wait_then leds (fuelMono_leaveWhite leds)

theorem fuelMono_enterWdmxConfigMode : FuelMono (enterWdmxConfigMode leds) :=
  fuelMono_valueEnabled (fuelMono_const.bind fun _ => fuelMono_wait_then leds (fuelMono_turnWhite leds))

/-- What follows the mode. -/
theorem fuelMono_modeFound : FuelMono fun n => switchWdmxButtonOn >>= fun _ =>
    whileLoop (whiteTurn leds) n () >>= fun _ => switchWdmxButtonOff >>= fun _ => pure CONNECT_SUCCESS := by
  apply fuelMono_const.bind fun _ => ?_
  exact FuelMono.bind (fuelMono_whileLoop _ ()) fun _ => fuelMono_const

theorem fuelMono_selectWdmxMode (mode : ℕ) : FuelMono (selectWdmxMode leds mode) := by
  apply fuelMono_valueEnabled
  apply fuelMono_const.bind fun _ => ?_
  apply FuelMono.bind (fuelMono_whileLoop _ 0) fun _ => ?_
  exact fuelMono_const.ite (fuelMono_modeFound leds)

end fuel

/-- A function that goes on only when the one before has not failed. -/
theorem returns_unless_error {X E Y : ℕ → WdmxProg ℕ} {ok out : Wdmx → Prop}
    {s u : Wdmx} {r : ℕ} (hX : FuelMono X) (hE : FuelMono E) (hY : FuelMono Y)
    (h : ∀ w t, Returns X s w t ↔ w = CONNECT_SUCCESS ∧ ok t ∨ w = CONNECT_ERROR ∧ out t) :
    Returns (fun n => X n >>= fun w => if w ≠ CONNECT_SUCCESS then E n else Y n) s r u ↔
      (∃ t, ok t ∧ Returns Y t r u) ∨ ∃ t, out t ∧ Returns E t r u := by
  have herror : CONNECT_ERROR ≠ CONNECT_SUCCESS := by decide
  have hsuccess : ¬ CONNECT_SUCCESS ≠ CONNECT_SUCCESS := fun hne => hne rfl
  rw [returns_bind_iff hX fun _ => hE.ite hY]
  constructor
  · rintro ⟨w, t, hw, hend⟩
    rcases (h w t).mp hw with ⟨rfl, hok⟩ | ⟨rfl, hout⟩
    · simp only [if_neg hsuccess] at hend
      exact Or.inl ⟨t, hok, hend⟩
    · simp only [if_pos herror] at hend
      exact Or.inr ⟨t, hout, hend⟩
  · rintro (⟨t, hok, hend⟩ | ⟨t, hout, hend⟩)
    · refine ⟨CONNECT_SUCCESS, t, (h _ t).mpr (Or.inl ⟨rfl, hok⟩), ?_⟩
      simp only [if_neg hsuccess]
      exact hend
    · refine ⟨CONNECT_ERROR, t, (h _ t).mpr (Or.inr ⟨rfl, hout⟩), ?_⟩
      simp only [if_pos herror]
      exact hend

section enabled
variable {α : Type} {s u : Wdmx} (hs : s.enable = true)
include hs

theorem ends_whenEnabled {x : WdmxProg Unit} (h : Ends x s () u) : Ends (whenEnabled x) s () u := by
  apply Ends.bind ends_step
  rw [if_pos hs]
  exact h

theorem returns_valueEnabled {X : ℕ → WdmxProg α} {a : α} :
    Returns (fun n => valueEnabled (X n)) s a u ↔ Returns X s a u := by
  apply (returns_bind_of_ends ends_step).trans
  simp only [hs, if_true]

theorem ends_valueEnabled {x : WdmxProg α} {a : α} (h : Ends x s a u) : Ends (valueEnabled x) s a u := by
  apply Ends.bind ends_step
  rw [if_pos hs]
  exact h

theorem ends_turnOnWdmx : Ends turnOnWdmx s () { s with powerPin := true, powerOn := true } :=
  ends_whenEnabled hs (Ends.bind ends_step ends_step)

theorem ends_turnOffWdmx : Ends turnOffWdmx s () { s with powerPin := false, powerOn := false } :=
  ends_whenEnabled hs (Ends.bind ends_step ends_step)

theorem ends_switchWdmxButtonOn : Ends switchWdmxButtonOn s () { s with buttonPin := true } :=
  ends_whenEnabled hs ends_step

theorem ends_switchWdmxButtonOff : Ends switchWdmxButtonOff s () { s with buttonPin := false } :=
  ends_whenEnabled hs ends_step

theorem ends_pressWdmxButton : Ends pressWdmxButton s () { s with buttonPin := false } :=
  ends_whenEnabled hs (Ends.bind ends_step ends_step)

variable (leds : ℕ → Leds)

theorem ends_checkWdmxColor (index : ℕ) : Ends (checkWdmxColor leds index) s
    ((leds s.polls).shows index) { s with polls := s.polls + 1 } := ends_valueEnabled hs ends_step

theorem ends_getWdmxColor : Ends (getWdmxColor leds) s (leds s.polls).color
    { s with polls := s.polls + 1 } := ends_valueEnabled hs ends_step

theorem returns_waitColor {index : ℕ} {shown : Bool} {r : ℕ} :
    Returns (waitColor leds index shown) s r u ↔
      r = CONNECT_SUCCESS ∧ (∃ q, Passes leds index shown s.polls q ∧ u = { s with polls := q }) ∨
        r = CONNECT_ERROR ∧ TimesOut leds index shown s.polls ∧
          u = { s with polls := s.polls + (CONNECT_TIMEOUT + 2) } := by
  -- Before the turn `i` nothing but the number of polls has changed.
  let at' (i : ℕ) : Wdmx := { s with polls := s.polls + i }
  have htest (i : ℕ) : Ends (checkWdmxColor leds index) (at' i) ((leds (s.polls + i)).shows index)
      (at' (i + 1)) := ends_checkWdmxColor (s := at' i) hs leds index
  have hit (i : ℕ) (hP : (leds (s.polls + i)).shows index = shown) :
      Ends (waitTurn leds index shown i) (at' i) (Sum.inr CONNECT_SUCCESS) (at' (i + 1)) := by
    apply (htest i).bind
    rw [if_pos hP]
    exact ends_pure
  have miss (i : ℕ) (hi : i < CONNECT_TIMEOUT + 1) (hP : ¬ (leds (s.polls + i)).shows index = shown) :
      Ends (waitTurn leds index shown i) (at' i) (Sum.inl (i + 1)) (at' (i + 1)) := by
    apply (htest i).bind
    rw [if_neg hP, if_neg (by omega)]
    exact ends_pure
  -- `timeout++ > CONNECT_TIMEOUT` first holds at the turn after `CONNECT_TIMEOUT`.
  have out (hP : ¬ (leds (s.polls + (CONNECT_TIMEOUT + 1))).shows index = shown) :
      Ends (waitTurn leds index shown (CONNECT_TIMEOUT + 1)) (at' (CONNECT_TIMEOUT + 1))
        (Sum.inr CONNECT_ERROR) (at' (CONNECT_TIMEOUT + 2)) := by
    apply (htest (CONNECT_TIMEOUT + 1)).bind
    rw [if_neg hP, if_pos (Nat.lt_succ_self CONNECT_TIMEOUT)]
    exact ends_pure
  apply (returns_search (c := fun i => i) (S := at') hit miss out).trans
  constructor
  · rintro (⟨i, hi, hleast, hr, hu⟩ | ⟨hnone, hr, hu⟩)
    · exact Or.inl ⟨hr, _, ⟨i, hi, hleast, rfl⟩, hu⟩
    · exact Or.inr ⟨hr, hnone, hu⟩
  · rintro (⟨hr, _, ⟨i, hi, hleast, rfl⟩, hu⟩ | ⟨hr, hnone, hu⟩)
    · exact Or.inl ⟨i, hi, hleast, hr, hu⟩
    · exact Or.inr ⟨hnone, hr, hu⟩

/-- A wait that returns the error when it times out. -/
theorem returns_wait_then {index : ℕ} {shown : Bool} {Y : ℕ → WdmxProg ℕ} (hY : FuelMono Y) {r : ℕ} :
    Returns (fun n => waitColor leds index shown n >>= fun w =>
        if w ≠ CONNECT_SUCCESS then pure CONNECT_ERROR else Y n) s r u ↔
      (∃ q, Passes leds index shown s.polls q ∧ Returns Y { s with polls := q } r u) ∨
        r = CONNECT_ERROR ∧ TimesOut leds index shown s.polls ∧
          u = { s with polls := s.polls + (CONNECT_TIMEOUT + 2) } := by
  apply (returns_unless_error (fuelMono_whileLoop _ 0) fuelMono_const hY
    fun _ _ => returns_waitColor hs leds).trans
  simp only [returns_const_iff, ends_pure_iff]
  constructor
  · rintro (⟨t, ⟨q, hq, rfl⟩, hend⟩ | ⟨t, ⟨hout, rfl⟩, hr, rfl⟩)
    · exact Or.inl ⟨q, hq, hend⟩
    · exact Or.inr ⟨hr, hout, rfl⟩
  · rintro (⟨q, hq, hend⟩ | ⟨hr, hout, hu⟩)
    · exact Or.inl ⟨_, ⟨q, hq, rfl⟩, hend⟩
    · exact Or.inr ⟨_, ⟨hout, rfl⟩, hr, hu⟩

/-- From the moment the LEDs are white on. -/
theorem returns_leaveWhite {r : ℕ} : Returns (fun n => do
      turnOnWdmx
      switchWdmxButtonOff
      let notWhite ← waitColor leds WDMX_COLOR_WHITE false n
      if notWhite ≠ CONNECT_SUCCESS then pure CONNECT_ERROR else pure CONNECT_SUCCESS) s r u ↔
    (∃ q, Passes leds WDMX_COLOR_WHITE false s.polls q ∧ r = CONNECT_SUCCESS ∧
        u = ConnectExit.connected.leave s q) ∨
      r = CONNECT_ERROR ∧ TimesOut leds WDMX_COLOR_WHITE false s.polls ∧
        u = ConnectExit.stillWhite.leave s (s.polls + (CONNECT_TIMEOUT + 2)) := by
  apply (returns_bind_of_ends (ends_turnOnWdmx hs)).trans
  apply (returns_bind_of_ends (ends_switchWdmxButtonOff
    (s := { s with powerPin := true, powerOn := true }) hs)).trans
  apply (returns_wait_then (s := { s with powerPin := true, powerOn := true, buttonPin := false })
    hs leds fuelMono_const).trans
  simp only [returns_const_iff, ends_pure_iff]
  rfl

/-- From the moment the LEDs are off on. -/
theorem returns_turnWhite {r : ℕ} : Returns (fun n => do
      switchWdmxButtonOn
      let white ← waitColor leds WDMX_COLOR_WHITE true n
      if white ≠ CONNECT_SUCCESS then pure CONNECT_ERROR
      else do
        turnOnWdmx
        switchWdmxButtonOff
        let notWhite ← waitColor leds WDMX_COLOR_WHITE false n
        if notWhite ≠ CONNECT_SUCCESS then pure CONNECT_ERROR else pure CONNECT_SUCCESS) s r u ↔
    (∃ b, Passes leds WDMX_COLOR_WHITE true s.polls b ∧
      ((∃ q, Passes leds WDMX_COLOR_WHITE false b q ∧ r = CONNECT_SUCCESS ∧
          u = ConnectExit.connected.leave s q) ∨
        r = CONNECT_ERROR ∧ TimesOut leds WDMX_COLOR_WHITE false b ∧
          u = ConnectExit.stillWhite.leave s (b + (CONNECT_TIMEOUT + 2)))) ∨
      r = CONNECT_ERROR ∧ TimesOut leds WDMX_COLOR_WHITE true s.polls ∧
        u = { s with buttonPin := true, polls := s.polls + (CONNECT_TIMEOUT + 2) } := by
  apply (returns_bind_of_ends (ends_switchWdmxButtonOn hs)).trans
  apply (returns_wait_then (s := { s with buttonPin := true }) hs leds (fuelMono_leaveWhite leds)).trans
  apply or_congr_left
  apply exists_congr fun b => and_congr_right fun _ => ?_
  exact returns_leaveWhite (s := { s with buttonPin := true, polls := b }) hs leds

theorem returns_enterWdmxConfigMode {r : ℕ} : Returns (enterWdmxConfigMode leds) s r u ↔
    r = CONNECT_SUCCESS ∧ (∃ q, EntersConfig leds s.polls q ∧ u = ConnectExit.connected.leave s q) ∨
      r = CONNECT_ERROR ∧ ∃ e q, e ≠ .noMode ∧ e ≠ .connected ∧ Exits leds s.polls e q ∧
        u = ConnectExit.leave s q e := by
  have hturn (a : ℕ) := returns_turnWhite (r := r) (u := u)
    (s := { s with powerPin := false, powerOn := false, polls := a }) hs leds
  apply (returns_valueEnabled hs).trans
  apply (returns_bind_of_ends (ends_turnOffWdmx hs)).trans
  apply (returns_wait_then (s := { s with powerPin := false, powerOn := false }) hs leds
    (fuelMono_turnWhite leds)).trans
  constructor
  · rintro (⟨a, ha, hend⟩ | ⟨hr, hout, hu⟩)
    · rcases (hturn a).mp hend with ⟨b, hb, ⟨q, hq, hr, hu⟩ | ⟨hr, hout, hu⟩⟩ | ⟨hr, hout, hu⟩
      · exact Or.inl ⟨hr, q, ⟨b, ⟨a, ha, hb⟩, hq⟩, hu⟩
      · exact Or.inr ⟨hr, .stillWhite, _, by decide, by decide, ⟨b, ⟨a, ha, hb⟩, hout, rfl⟩, hu⟩
      · exact Or.inr ⟨hr, .notWhite, _, by decide, by decide, ⟨a, ha, hout, rfl⟩, hu⟩
    · exact Or.inr ⟨hr, .notOff, _, by decide, by decide, ⟨hout, rfl⟩, hu⟩
  · rintro (⟨hr, q, ⟨b, ⟨a, ha, hb⟩, hq⟩, hu⟩ | ⟨hr, e, q, hmode, hconn, hexit, hu⟩)
    · exact Or.inl ⟨a, ha, (hturn a).mpr (Or.inl ⟨b, hb, Or.inl ⟨q, hq, hr, hu⟩⟩)⟩
    · cases e with
      | notOff =>
        obtain ⟨hout, rfl⟩ := hexit
        exact Or.inr ⟨hr, hout, hu⟩
      | notWhite =>
        obtain ⟨a, ha, hout, rfl⟩ := hexit
        exact Or.inl ⟨a, ha, (hturn a).mpr (Or.inr ⟨hr, hout, hu⟩)⟩
      | stillWhite =>
        obtain ⟨b, ⟨a, ha, hb⟩, hout, rfl⟩ := hexit
        exact Or.inl ⟨a, ha, (hturn a).mpr (Or.inl ⟨b, hb, Or.inr ⟨hr, hout, hu⟩⟩)⟩
      | noMode => exact absurd rfl hmode
      | connected => exact absurd rfl hconn

section select
variable (hbutton : s.buttonPin = false)
include hbutton

/-- Behind a test that fails a turn polls once more, and the press leaves the button as it was. -/
theorem ends_press_bind {r : ℕ ⊕ ℕ} {x : WdmxProg (ℕ ⊕ ℕ)} (h : Ends x { s with polls := s.polls + 1 } r u) :
    Ends (do
      let _ ← getWdmxColor leds
      pressWdmxButton
      x) s r u := by
  have hpress := ends_pressWdmxButton (s := { s with polls := s.polls + 1 }) hs
  have hsame : ({ s with polls := s.polls + 1 } : Wdmx) =
      { s with buttonPin := false, polls := s.polls + 1 } := by
    rw [← hbutton]
  rw [hsame] at h
  exact (ends_getWdmxColor hs leds).bind (hpress.bind h)

theorem returns_findMode (mode : ℕ) {r : ℕ} : Returns (fun n => whileLoop (modeTurn leds mode) n 0) s r u ↔
    r = CONNECT_SUCCESS ∧ (∃ i ≤ WDMX_MAX_MODES + 1,
        IsLeast {i | (leds (s.polls + 2 * i)).shows mode = true} i ∧
          u = { s with polls := s.polls + 2 * i + 1 }) ∨
      r = CONNECT_ERROR ∧ (∀ i ≤ WDMX_MAX_MODES + 1, ¬ (leds (s.polls + 2 * i)).shows mode = true) ∧
        u = { s with polls := s.polls + 2 * (WDMX_MAX_MODES + 2) } := by
  -- A turn that misses polls twice, and changes nothing else.
  let at' (i : ℕ) : Wdmx := { s with polls := s.polls + 2 * i }
  let tested (i : ℕ) : Wdmx := { s with polls := s.polls + 2 * i + 1 }
  have htest (i : ℕ) : Ends (checkWdmxColor leds mode) (at' i) ((leds (s.polls + 2 * i)).shows mode)
      (tested i) := ends_checkWdmxColor (s := at' i) hs leds mode
  have hit (i : ℕ) (hP : (leds (s.polls + 2 * i)).shows mode = true) :
      Ends (modeTurn leds mode i) (at' i) (Sum.inr CONNECT_SUCCESS) (tested i) := by
    apply (htest i).bind
    rw [if_pos hP]
    exact ends_pure
  have miss (i : ℕ) (hi : i < WDMX_MAX_MODES + 1) (hP : ¬ (leds (s.polls + 2 * i)).shows mode = true) :
      Ends (modeTurn leds mode i) (at' i) (Sum.inl (i + 1)) (at' (i + 1)) := by
    apply (htest i).bind
    rw [if_neg hP, if_neg (by omega)]
    exact ends_press_bind (s := tested i) hs leds hbutton ends_pure
  -- `i++ > WDMX_MAX_MODES` first holds at the turn after `WDMX_MAX_MODES`, behind a last press.
  have out (hP : ¬ (leds (s.polls + 2 * (WDMX_MAX_MODES + 1))).shows mode = true) :
      Ends (modeTurn leds mode (WDMX_MAX_MODES + 1)) (at' (WDMX_MAX_MODES + 1))
        (Sum.inr CONNECT_ERROR) (at' (WDMX_MAX_MODES + 2)) := by
    apply (htest _).bind
    rw [if_neg hP, if_pos (Nat.lt_succ_self WDMX_MAX_MODES)]
    exact ends_press_bind (s := tested _) hs leds hbutton ends_pure
  apply (returns_search (c := fun i => i) (S := at') hit miss out).trans
  constructor
  · rintro (⟨i, hi, hleast, hr, hu⟩ | ⟨hnone, hr, hu⟩)
    · exact Or.inl ⟨hr, i, hi, hleast, hu⟩
    · exact Or.inr ⟨hr, hnone, hu⟩
  · rintro (⟨hr, i, hi, hleast, hu⟩ | ⟨hr, hnone, hu⟩)
    · exact Or.inl ⟨i, hi, hleast, hr, hu⟩
    · exact Or.inr ⟨hnone, hr, hu⟩

omit hbutton in
/-- The last loop has no timeout: it returns only when the LEDs turn white. -/
theorem returns_waitWhite : Returns (fun n => whileLoop (whiteTurn leds) n ()) s () u ↔
    ∃ i, IsLeast {i | (leds (s.polls + i)).shows WDMX_COLOR_WHITE = true} i ∧
      u = { s with polls := s.polls + i + 1 } := by
  let at' (i : ℕ) : Wdmx := { s with polls := s.polls + i }
  have htest (i : ℕ) : Ends (checkWdmxColor leds WDMX_COLOR_WHITE) (at' i)
      ((leds (s.polls + i)).shows WDMX_COLOR_WHITE) (at' (i + 1)) :=
    ends_checkWdmxColor (s := at' i) hs leds WDMX_COLOR_WHITE
  have hit (i : ℕ) (hP : (leds (s.polls + i)).shows WDMX_COLOR_WHITE = true) :
      Ends (whiteTurn leds ()) (at' i) (Sum.inr ()) (at' (i + 1)) := by
    apply (htest i).bind
    rw [if_pos hP]
    exact ends_pure
  have miss (i : ℕ) (hP : ¬ (leds (s.polls + i)).shows WDMX_COLOR_WHITE = true) :
      Ends (whiteTurn leds ()) (at' i) (Sum.inl ()) (at' (i + 1)) := by
    apply (htest i).bind
    rw [if_neg hP]
    exact ends_pure
  apply (returns_search_forever (c := fun _ => ()) (S := at') hit miss).trans
  exact exists_congr fun i => and_congr_right fun _ => and_iff_right rfl

/-- Behind the mode the button is held until the LEDs turn white. -/
theorem returns_modeFound {r : ℕ} : Returns (fun n => do
      switchWdmxButtonOn
      whileLoop (whiteTurn leds) n ()
      switchWdmxButtonOff
      pure CONNECT_SUCCESS) s r u ↔
    ∃ i, IsLeast {i | (leds (s.polls + i)).shows WDMX_COLOR_WHITE = true} i ∧ r = CONNECT_SUCCESS ∧
      u = { s with polls := s.polls + i + 1 } := by
  have hoff (i : ℕ) : Ends (switchWdmxButtonOff >>= fun _ => (pure CONNECT_SUCCESS : WdmxProg ℕ))
      { s with buttonPin := true, polls := s.polls + i + 1 } CONNECT_SUCCESS
      { s with polls := s.polls + i + 1 } := by
    have hsame : ({ s with polls := s.polls + i + 1 } : Wdmx) =
        { s with buttonPin := false, polls := s.polls + i + 1 } := by
      rw [← hbutton]
    rw [hsame]
    exact (ends_switchWdmxButtonOff (s := { s with buttonPin := true, polls := s.polls + i + 1 }) hs).bind
      ends_pure
  have hwhite {t : Wdmx} := returns_waitWhite (s := { s with buttonPin := true }) (u := t) hs leds
  apply (returns_bind_of_ends (ends_switchWdmxButtonOn hs)).trans
  rw [returns_bind_iff (fuelMono_whileLoop _ ()) fun _ => fuelMono_const]
  constructor
  · rintro ⟨_, t, ht, hend⟩
    obtain ⟨i, hi, rfl⟩ := hwhite.mp ht
    exact ⟨i, hi, (returns_const_iff.mp hend).unique (hoff i)⟩
  · rintro ⟨i, hi, rfl, rfl⟩
    exact ⟨(), _, hwhite.mpr ⟨i, hi, rfl⟩, returns_const_iff.mpr (hoff i)⟩

theorem returns_selectWdmxMode (mode : ℕ) {r : ℕ} : Returns (selectWdmxMode leds mode) s r u ↔
    r = CONNECT_SUCCESS ∧ (∃ d, FindsMode leds mode s.polls d ∧
      ∃ i, IsLeast {i | (leds (d + i)).shows WDMX_COLOR_WHITE = true} i ∧
        u = { s with polls := d + i + 1 }) ∨
      r = CONNECT_ERROR ∧ LacksMode leds mode s.polls ∧
        u = { s with polls := s.polls + 1 + 2 * (WDMX_MAX_MODES + 2) } := by
  have hfound (d : ℕ) := returns_modeFound (s := { s with polls := d }) (u := u) (r := r) hs leds hbutton
  apply (returns_valueEnabled hs).trans
  apply (returns_bind_of_ends (ends_getWdmxColor hs leds)).trans
  apply (returns_unless_error (fuelMono_whileLoop _ 0) fuelMono_const (fuelMono_modeFound leds)
    fun _ _ => returns_findMode (s := { s with polls := s.polls + 1 }) hs leds hbutton mode).trans
  simp only [returns_const_iff, ends_pure_iff]
  constructor
  · rintro (⟨t, ⟨i, hi, hleast, rfl⟩, hend⟩ | ⟨t, ⟨hlacks, rfl⟩, hr, hu⟩)
    · obtain ⟨k, hwhite, hr, hu⟩ := (hfound _).mp hend
      exact Or.inl ⟨hr, _, ⟨i, hi, hleast, rfl⟩, k, hwhite, hu⟩
    · exact Or.inr ⟨hr, hlacks, hu⟩
  · rintro (⟨hr, _, ⟨i, hi, hleast, rfl⟩, k, hwhite, hu⟩ | ⟨hr, hlacks, hu⟩)
    · exact Or.inl ⟨_, ⟨i, hi, hleast, rfl⟩, (hfound _).mpr ⟨k, hwhite, hr, hu⟩⟩
    · exact Or.inr ⟨_, ⟨hlacks, rfl⟩, hr, hu⟩

end select

/-- Behind `enter_wdmx_config_mode`, with the flag set and the first poll `c`. -/
theorem returns_selected {c r : ℕ} : Returns (fun n => do
      let selected ← selectWdmxMode leds WDMX_MODE_TRANSMIT n
      modify fun s => { s with busy := false }
      if selected ≠ CONNECT_SUCCESS then pure CONNECT_ERROR else pure CONNECT_SUCCESS)
      (ConnectExit.connected.leave { s with busy := true } c) r u ↔
    (∃ d, FindsMode leds WDMX_MODE_TRANSMIT c d ∧
      ∃ i, IsLeast {i | (leds (d + i)).shows WDMX_COLOR_WHITE = true} i ∧ r = CONNECT_SUCCESS ∧
        u = ConnectExit.connected.leave { s with busy := false } (d + i + 1)) ∨
      LacksMode leds WDMX_MODE_TRANSMIT c ∧ r = CONNECT_ERROR ∧
        u = ConnectExit.noMode.leave { s with busy := false } (c + 1 + 2 * (WDMX_MAX_MODES + 2)) := by
  have herror : CONNECT_ERROR ≠ CONNECT_SUCCESS := by decide
  have hclose (w : ℕ) (t : Wdmx) (hw : w = CONNECT_SUCCESS ∨ w = CONNECT_ERROR) :
      Ends (do
        modify fun s => { s with busy := false }
        if w ≠ CONNECT_SUCCESS then pure CONNECT_ERROR else pure CONNECT_SUCCESS : WdmxProg ℕ)
        t w { t with busy := false } := by
    apply Ends.bind ends_step
    rcases hw with rfl | rfl
    · rw [if_neg (not_not.mpr rfl)]
      exact ends_pure
    · rw [if_pos herror]
      exact ends_pure
  have hselect {w : ℕ} {t : Wdmx} := returns_selectWdmxMode (r := w) (u := t)
    (s := ConnectExit.connected.leave { s with busy := true } c) hs leds rfl WDMX_MODE_TRANSMIT
  refine (returns_bind_iff (fuelMono_selectWdmxMode leds WDMX_MODE_TRANSMIT) ?_).trans ?_
  · exact fun _ => fuelMono_const
  -- The flag is cleared behind the call, whatever it returns.
  constructor
  · rintro ⟨w, t, ht, hend⟩
    rcases hselect.mp ht with ⟨rfl, d, hd, i, hi, rfl⟩ | ⟨rfl, hlacks, rfl⟩
    · exact Or.inl ⟨d, hd, i, hi, (returns_const_iff.mp hend).unique (hclose _ _ (Or.inl rfl))⟩
    · exact Or.inr ⟨hlacks, (returns_const_iff.mp hend).unique (hclose _ _ (Or.inr rfl))⟩
  · rintro (⟨d, hd, i, hi, rfl, rfl⟩ | ⟨hlacks, rfl, rfl⟩)
    · exact ⟨_, _, hselect.mpr (Or.inl ⟨rfl, d, hd, i, hi, rfl⟩),
        returns_const_iff.mpr (hclose _ _ (Or.inl rfl))⟩
    · exact ⟨_, _, hselect.mpr (Or.inr ⟨rfl, hlacks, rfl⟩),
        returns_const_iff.mpr (hclose _ _ (Or.inr rfl))⟩

/-- `easy_wdmx_connect` returns just where the readings lead it to an exit. -/
theorem returns_easyWdmxConnect {r : ℕ} : Returns (easyWdmxConnect leds) s r u ↔
    ∃ e q, Exits leds s.polls e q ∧ r = e.result ∧
      u = ConnectExit.leave { s with busy := false } q e := by
  have hclose (t : Wdmx) : Ends (do
      modify fun s => { s with busy := false }
      pure CONNECT_ERROR : WdmxProg ℕ) t CONNECT_ERROR { t with busy := false } :=
    Ends.bind ends_step ends_pure
  apply (returns_valueEnabled hs).trans
  apply (returns_bind_of_ends ends_step).trans
  refine (returns_unless_error (fuelMono_enterWdmxConfigMode leds) fuelMono_const ?_
    fun _ _ => returns_enterWdmxConfigMode (s := { s with busy := true }) hs leds).trans ?_
  · exact (fuelMono_selectWdmxMode leds WDMX_MODE_TRANSMIT).bind fun _ => fuelMono_const
  -- The exits of `enter_wdmx_config_mode` go through CON_ERROR, the other two through `select_wdmx_mode`.
  constructor
  · rintro (⟨t, ⟨c, hc, rfl⟩, hend⟩ | ⟨t, ⟨e, q, hmode, hconn, hexit, rfl⟩, hend⟩)
    · rcases (returns_selected hs leds).mp hend with ⟨d, hd, i, hi, hr, hu⟩ | ⟨hlacks, hr, hu⟩
      · exact ⟨.connected, _, ⟨d, ⟨c, hc, hd⟩, i, hi, rfl⟩, hr, hu⟩
      · exact ⟨.noMode, _, ⟨c, hc, hlacks, rfl⟩, hr, hu⟩
    · obtain ⟨rfl, rfl⟩ := (returns_const_iff.mp hend).unique (hclose _)
      refine ⟨e, q, hexit, ?_, ?_⟩
      · cases e <;> first | rfl | exact absurd rfl hconn
      · cases e <;> rfl
  · rintro ⟨e, q, hexit, rfl, rfl⟩
    cases e with
    | notOff =>
      exact Or.inr ⟨_, ⟨.notOff, q, by decide, by decide, hexit, rfl⟩, returns_const_iff.mpr (hclose _)⟩
    | notWhite =>
      exact Or.inr ⟨_, ⟨.notWhite, q, by decide, by decide, hexit, rfl⟩, returns_const_iff.mpr (hclose _)⟩
    | stillWhite =>
      exact Or.inr ⟨_, ⟨.stillWhite, q, by decide, by decide, hexit, rfl⟩, returns_const_iff.mpr (hclose _)⟩
    | noMode =>
      obtain ⟨c, hc, hlacks, rfl⟩ := hexit
      exact Or.inl ⟨_, ⟨c, hc, rfl⟩, (returns_selected hs leds).mpr (Or.inr ⟨hlacks, rfl, rfl⟩)⟩
    | connected =>
      obtain ⟨d, ⟨c, hc, hd⟩, i, hi, rfl⟩ := hexit
      exact Or.inl ⟨_, ⟨c, hc, rfl⟩, (returns_selected hs leds).mpr (Or.inl ⟨d, hd, i, hi, rfl, rfl⟩)⟩

end enabled

end Wdmx

end BlizzardBridge
