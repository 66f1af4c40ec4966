import BlizzardBridge.WdmxConnect
import Mathlib.Order.Nat

/-! Whether `easy_wdmx_connect` returns, and what its exits leave. -/
namespace BlizzardBridge
open Program

namespace Wdmx

section readings
variable {leds : ℕ → Leds} {index : ℕ} {shown : Bool} {mode p q q' : ℕ}

theorem Passes.not_timesOut (h : Passes leds index shown p q) : ¬ TimesOut leds index shown p := by
  obtain ⟨i, hle, hi, _⟩ := h
  exact fun hout => hout i hle hi.1

theorem Passes.le (h : Passes leds index shown p q) : q ≤ p + (CONNECT_TIMEOUT + 2) := by
  obtain ⟨i, hle, _, rfl⟩ := h
  omega

theorem FindsMode.not_lacksMode (h : FindsMode leds mode p q) : ¬ LacksMode leds mode p := by
  obtain ⟨i, hle, hi, _⟩ := h
  exact fun hlacks => hlacks i hle hi.1

theorem FindsMode.le (h : FindsMode leds mode p q) : q ≤ p + 1 + 2 * (WDMX_MAX_MODES + 2) := by
  obtain ⟨i, hle, _, rfl⟩ := h
  omega

/-- The first of the indices that meet `P` comes no later than any of them. -/
theorem exists_first {P : ℕ → Prop} {m : ℕ} (h : P m) : ∃ i ≤ m, IsLeast {i | P i} i := by
  classical
  exact ⟨Nat.find ⟨m, h⟩, Nat.find_min' _ h, Nat.isLeast_find ⟨m, h⟩⟩

theorem exists_first_or_none (P : ℕ → Prop) (n : ℕ) :
    (∃ i ≤ n, IsLeast {i | P i} i) ∨ ∀ i ≤ n, ¬ P i := by
  by_cases h : ∃ m ≤ n, P m
  · obtain ⟨m, hm, hP⟩ := h
    obtain ⟨i, hi, hleast⟩ := exists_first hP
    exact Or.inl ⟨i, Nat.le_trans hi hm, hleast⟩
  · exact Or.inr fun m hm hP => h ⟨m, hm, hP⟩

theorem passes_or_timesOut (leds : ℕ → Leds) (index : ℕ) (shown : Bool) (p : ℕ) :
    (∃ q, Passes leds index shown p q) ∨ TimesOut leds index shown p := by
  apply (exists_first_or_none (fun i => (leds (p + i)).shows index = shown) (CONNECT_TIMEOUT + 1)).imp_left
  rintro ⟨i, hi, hleast⟩
  exact ⟨_, i, hi, hleast, rfl⟩

theorem findsMode_or_lacksMode (leds : ℕ → Leds) (mode p : ℕ) :
    (∃ q, FindsMode leds mode p q) ∨ LacksMode leds mode p := by
  apply (exists_first_or_none (fun i => (leds (p + 1 + 2 * i)).shows mode = true)
    (WDMX_MAX_MODES + 1)).imp_left
  rintro ⟨i, hi, hleast⟩
  exact ⟨_, i, hi, hleast, rfl⟩

/-- The readings decide where each part ends, and so where they end one after another. -/
theorem seq_unique {R S : ℕ → ℕ → Prop} (hR : Relator.RightUnique R) (hS : Relator.RightUnique S) :
    Relator.RightUnique fun p q => ∃ a, R p a ∧ S a q := by
  intro p q q' h h'
  obtain ⟨a, ha, hq⟩ := h
  obtain ⟨b, hb, hq'⟩ := h'
  obtain rfl : a = b := hR ha hb
  exact hS hq hq'

theorem passes_unique : Relator.RightUnique (Passes leds index shown) := by
  intro p q q' h h'
  obtain ⟨i, _, hi, rfl⟩ := h
  obtain ⟨j, _, hj, rfl⟩ := h'
  rw [hi.unique hj]

theorem findsMode_unique : Relator.RightUnique (FindsMode leds mode) := by
  intro p q q' h h'
  obtain ⟨i, _, hi, rfl⟩ := h
  obtain ⟨j, _, hj, rfl⟩ := h'
  rw [hi.unique hj]

theorem turnsWhite_unique : Relator.RightUnique (TurnsWhite leds) := seq_unique passes_unique passes_unique

theorem entersConfig_unique : Relator.RightUnique (EntersConfig leds) :=
  seq_unique turnsWhite_unique passes_unique

theorem reachesMode_unique : Relator.RightUnique (ReachesMode leds) :=
  seq_unique entersConfig_unique findsMode_unique

/-- Behind the first four loops there is one exit left. -/
theorem ReachesMode.connected (h : ReachesMode leds p q) {e : ConnectExit} (he : Exits leds p e q') :
    e = .connected ∧
      ∃ i, IsLeast {i | (leds (q + i)).shows WDMX_COLOR_WHITE = true} i ∧ q' = q + i + 1 := by
  -- Every other exit needs a loop to fail that has passed, at the same poll.
  have hreach := h
  obtain ⟨c, ⟨b, ⟨a, ha, hb⟩, hc⟩, hq⟩ := h
  cases e with
  | notOff => exact absurd he.1 ha.not_timesOut
  | notWhite =>
    obtain ⟨a', ha', hout, _⟩ := he
    obtain rfl : a = a' := passes_unique ha ha'
    exact absurd hout hb.not_timesOut
  | stillWhite =>
    obtain ⟨b', hb', hout, _⟩ := he
    obtain rfl : b = b' := turnsWhite_unique ⟨a, ha, hb⟩ hb'
    exact absurd hout hc.not_timesOut
  | noMode =>
    obtain ⟨c', hc', hlacks, _⟩ := he
    obtain rfl : c = c' := entersConfig_unique ⟨b, ⟨a, ha, hb⟩, hc⟩ hc'
    exact absurd hlacks hq.not_lacksMode
  | connected =>
    obtain ⟨d, hd, hwhite⟩ := he
    obtain rfl : q = d := reachesMode_unique hreach hd
    exact ⟨rfl, hwhite⟩

theorem Exits.notOff {e : ConnectExit} (he : Exits leds p e q)
    (hout : TimesOut leds WDMX_COLOR_OFF true p) : e = .notOff := by
  cases e with
  | notOff => rfl
  | notWhite =>
    obtain ⟨a, ha, _⟩ := he
    exact absurd hout (Passes.not_timesOut ha)
  | stillWhite =>
    obtain ⟨b, ⟨a, ha, _⟩, _⟩ := he
    exact absurd hout (Passes.not_timesOut ha)
  | noMode =>
    obtain ⟨c, ⟨b, ⟨a, ha, _⟩, _⟩, _⟩ := he
    exact absurd hout (Passes.not_timesOut ha)
  | connected =>
    obtain ⟨d, ⟨c, ⟨b, ⟨a, ha, _⟩, _⟩, _⟩, _⟩ := he
    exact absurd hout (Passes.not_timesOut ha)

/-- The polls of the first four loops, when each of them polls as often as it may. -/
def boundedPolls : ℕ := 3 * (CONNECT_TIMEOUT + 2) + (1 + 2 * (WDMX_MAX_MODES + 2))

/-- An error comes in time, unless the first four loops pass. -/
theorem exits_or_reachesMode (leds : ℕ → Leds) (p : ℕ) :
    (∃ e q, Exits leds p e q ∧ q ≤ p + boundedPolls) ∨ ∃ q, ReachesMode leds p q := by
  have hbounded : boundedPolls = 3 * (CONNECT_TIMEOUT + 2) + (1 + 2 * (WDMX_MAX_MODES + 2)) := rfl
  rcases passes_or_timesOut leds WDMX_COLOR_OFF true p with ⟨a, ha⟩ | hout
  · have hlea := ha.le
    rcases passes_or_timesOut leds WDMX_COLOR_WHITE true a with ⟨b, hb⟩ | hout
    · have hleb := hb.le
      rcases passes_or_timesOut leds WDMX_COLOR_WHITE false b with ⟨c, hc⟩ | hout
      · have hlec := hc.le
        rcases findsMode_or_lacksMode leds WDMX_MODE_TRANSMIT c with ⟨d, hd⟩ | hlacks
        · exact Or.inr ⟨d, c, ⟨b, ⟨a, ha, hb⟩, hc⟩, hd⟩
        · exact Or.inl ⟨.noMode, _, ⟨c, ⟨b, ⟨a, ha, hb⟩, hc⟩, hlacks, rfl⟩, by omega⟩
      · exact Or.inl ⟨.stillWhite, _, ⟨b, ⟨a, ha, hb⟩, hout, rfl⟩, by omega⟩
    · exact Or.inl ⟨.notWhite, _, ⟨a, ha, hout, rfl⟩, by omega⟩
  · exact Or.inl ⟨.notOff, _, ⟨hout, rfl⟩, by omega⟩

end readings

/-- From `s` the call returns within `N` polls. -/
def ReturnsWithin (leds : ℕ → Leds) (N : ℕ) (s : Wdmx) : Prop :=
  ∃ fuel, EndsIn (fun _ s' => s'.polls ≤ s.polls + N) (easyWdmxConnect leds fuel) s

section connect
variable {leds : ℕ → Leds} {s : Wdmx}

theorem returnsWithin_iff_exits (hs : s.enable = true) (N : ℕ) :
    ReturnsWithin leds N s ↔ ∃ e q, Exits leds s.polls e q ∧ q ≤ s.polls + N := by
  have hpolls (t : Wdmx) (q : ℕ) (e : ConnectExit) : (e.leave t q).polls = q := by cases e <;> rfl
  constructor
  · rintro ⟨fuel, r, s', hend, hle⟩
    obtain ⟨e, q, hexit, rfl, rfl⟩ := (returns_easyWdmxConnect hs leds).mp ⟨fuel, hend⟩
    rw [hpolls] at hle
    exact ⟨e, q, hexit, hle⟩
  · rintro ⟨e, q, hexit, hle⟩
    obtain ⟨fuel, hend⟩ := (returns_easyWdmxConnect hs leds).mpr ⟨e, q, hexit, rfl, rfl⟩
    refine ⟨fuel, endsIn_of_ends hend ?_⟩
    rw [hpolls]
    exact hle

/-- The call returns within `N` polls exactly when the LEDs turn white within them, should the
readings lead through the first four loops. -/
theorem easyWdmxConnect_returnsWithin_iff (leds : ℕ → Leds) (s : Wdmx) (hs : s.enable = true) (N : ℕ)
    (hN : boundedPolls ≤ N) : ReturnsWithin leds N s ↔
      ∀ q, ReachesMode leds s.polls q →
        ∃ m, q ≤ m ∧ m < s.polls + N ∧ (leds m).shows WDMX_COLOR_WHITE = true := by
  rw [returnsWithin_iff_exits hs]
  constructor
  · rintro ⟨e, q, hexit, hle⟩ d hreach
    obtain ⟨_, i, hleast, rfl⟩ := hreach.connected hexit
    exact ⟨d + i, Nat.le_add_right d i, hle, hleast.1⟩
  · intro hwhite
    rcases exits_or_reachesMode leds s.polls with ⟨e, q, hexit, hle⟩ | ⟨d, hreach⟩
    · exact ⟨e, q, hexit, Nat.le_trans hle (Nat.add_le_add_left hN _)⟩
    -- The last loop stops at the first white reading, which is no later than the one given.
    · obtain ⟨m, hdm, hm, hshows⟩ := hwhite d hreach
      obtain ⟨k, rfl⟩ := Nat.exists_eq_add_of_le hdm
      obtain ⟨i, hi, hleast⟩ := exists_first
        (P := fun i => (leds (d + i)).shows WDMX_COLOR_WHITE = true) hshows
      refine ⟨.connected, _, ⟨d, hreach, i, hleast, rfl⟩, ?_⟩
      omega

end connect

-- The levels of the LED pins for the colours off, white, blue and red.
def off : Leds := ⟨true, true, true⟩
def white : Leds := ⟨false, false, false⟩
def blue : Leds := ⟨true, true, false⟩
def red : Leds := ⟨false, true, true⟩

/-- The LEDs go off, turn white, and then keep to one colour. -/
def settlesOn (l : Leds) (n : ℕ) : Leds :=
  if n = 0 then off else if n = 1 then white else l

def started : Wdmx := ⟨true, true, false, true, false, 0, 0⟩

/-- The mode is found at the poll 4, and each of the four loops passes at its first test. -/
theorem reachesMode_first {leds : ℕ → Leds} (hoff : leds 0 = off) (hwhite : leds 1 = white)
    (hgone : leds 2 = blue) (hmode : leds 4 = blue) : ReachesMode leds started.polls 5 := by
  -- a test that is met at once is the first
  have hfirst {P : ℕ → Prop} (h : P 0) : IsLeast {i | P i} 0 := ⟨h, fun i _ => Nat.zero_le i⟩
  have hpassOff : Passes leds WDMX_COLOR_OFF true 0 1 := ⟨0, by decide, hfirst (by rw [hoff]; rfl), rfl⟩
  have hpassWhite : Passes leds WDMX_COLOR_WHITE true 1 2 :=
    ⟨0, by decide, hfirst (by rw [hwhite]; rfl), rfl⟩
  have hpassGone : Passes leds WDMX_COLOR_WHITE false 2 3 :=
    ⟨0, by decide, hfirst (by rw [hgone]; rfl), rfl⟩
  have hfinds : FindsMode leds WDMX_MODE_TRANSMIT 3 5 := ⟨0, by decide, hfirst (by rw [hmode]; rfl), rfl⟩
  exact ⟨3, ⟨2, ⟨1, hpassOff, hpassWhite⟩, hpassGone⟩, hfinds⟩

/-- The module shows the mode, and turns white again at the poll 40. -/
def acknowledges (n : ℕ) : Leds := if n = 40 then white else settlesOn blue n

theorem easyWdmxConnect_returnsWithin_iff_white : started.enable = true ∧ boundedPolls ≤ 179 ∧
    ReachesMode acknowledges started.polls 5 ∧ ReturnsWithin acknowledges 179 started := by
  have hreach : ReachesMode acknowledges started.polls 5 := reachesMode_first rfl rfl rfl rfl
  have hbounded : boundedPolls ≤ 179 := by decide
  refine ⟨rfl, hbounded, hreach, ?_⟩
  apply (easyWdmxConnect_returnsWithin_iff acknowledges started rfl 179 hbounded).mpr
  intro q hq
  obtain rfl : 5 = q := reachesMode_unique hreach hq
  exact ⟨40, by decide, by decide, rfl⟩

/-- The LEDs never turn white behind the fourth loop. -/
theorem easyWdmxConnect_never_returns : ¬ ∃ N, ∀ (leds : ℕ → Leds) (s : Wdmx), s.enable = true →
    ReturnsWithin leds N s := by
  rintro ⟨N, hall⟩
  have hreach : ReachesMode (settlesOn blue) started.polls 5 := reachesMode_first rfl rfl rfl rfl
  obtain ⟨e, q, hexit, _⟩ := (returnsWithin_iff_exits rfl N).mp (hall (settlesOn blue) started rfl)
  obtain ⟨_, i, hwhite, _⟩ := hreach.connected hexit
  have hblue : settlesOn blue (5 + i) = blue := by
    rw [settlesOn, if_neg (by omega), if_neg (by omega)]
  have hdark : (settlesOn blue (5 + i)).shows WDMX_COLOR_WHITE = false := by
    rw [hblue]
    rfl
  exact absurd hwhite.1 (Bool.eq_false_iff.mp hdark)

/-- `easy_wdmx_connect` leaves the flag cleared and the button released, and the handler that
has called it leaves V14 at the power. -/
def LeavesClean (leds : ℕ → Leds) (fuel : ℕ) (param : ℤ) (s : Wdmx) : Prop :=
  EndsIn (fun _ s' => s'.busy = false ∧ s'.buttonPin = false) (easyWdmxConnect leds fuel) s ∧
    EndsIn (fun _ s' => s'.v14 = s'.isWDMXOn) (blynkWriteV13 leds fuel param) s

section handler
variable {leds : ℕ → Leds} {fuel : ℕ} {param : ℤ} {s s' : Wdmx} {r : ℕ}

theorem ends_blynkWriteV13 (hbusy : s.busy = false) (hparam : param ≠ 0)
    (h : Ends (easyWdmxConnect leds fuel) s r s') (hs' : s'.enable = true) :
    Ends (blynkWriteV13 leds fuel param) s ()
      (if r ≠ 0 then { s' with buttonPin := false, v14 := 0 } else { s' with v14 := 1 }) := by
  -- The flag is tested before the call, and is clear.
  apply Ends.bind ends_step
  have hfree : ¬ s.isWDMXBusy = true := Bool.eq_false_iff.mp hbusy
  rw [if_neg hfree, if_pos hparam]
  apply h.bind
  -- The notification changes nothing.
  apply Ends.bind ends_step
  by_cases hr : r ≠ 0
  · rw [if_pos hr, if_pos hr]
    exact (ends_switchWdmxButtonOff hs').bind ends_step
  · rw [if_neg hr, if_neg hr]
    exact ends_step

/-- What each exit leaves: behind an error V14 is 0, with the power on or off. -/
theorem leavesClean_iff_exit (hs : s.enable = true) (hbusy : s.busy = false) (hparam : param ≠ 0)
    {e : ConnectExit} {q : ℕ} (h : Ends (easyWdmxConnect leds fuel) s e.result
      (ConnectExit.leave { s with busy := false } q e)) :
    LeavesClean leds fuel param s ↔ e = .connected ∨ e = .notOff ∧ s.buttonPin = false := by
  have henable : (ConnectExit.leave { s with busy := false } q e).enable = true := by
    cases e <;> exact hs
  rw [LeavesClean, endsIn_iff_of_ends h, endsIn_iff_of_ends (ends_blynkWriteV13 hbusy hparam h henable)]
  cases e with
  | notOff =>
    constructor
    · exact fun hclean => Or.inr ⟨rfl, hclean.1.2⟩
    · rintro (hconn | ⟨_, hbutton⟩)
      · exact ConnectExit.noConfusion hconn
      · exact ⟨⟨rfl, hbutton⟩, rfl⟩
  | notWhite =>
    -- The button is still held.
    refine iff_of_false (fun hclean => ?_) (by simp)
    have hheld : true = false := hclean.1.2
    exact Bool.false_ne_true hheld.symm
  | stillWhite =>
    -- The power is on, and the handler writes 0.
    refine iff_of_false (fun hclean => ?_) (by simp)
    have hshown : 0 = 1 := hclean.2
    exact Nat.zero_ne_one hshown
  | noMode =>
    refine iff_of_false (fun hclean => ?_) (by simp)
    have hshown : 0 = 1 := hclean.2
    exact Nat.zero_ne_one hshown
  | connected => exact iff_of_true ⟨⟨rfl, rfl⟩, rfl⟩ (Or.inl rfl)

/-- On every exit the flag is cleared, and the handler releases the button. -/
theorem blynkWriteV13_releases (hs : s.enable = true) (hbusy : s.busy = false) (hparam : param ≠ 0)
    (h : Ends (easyWdmxConnect leds fuel) s r s') :
    EndsIn (fun _ t => t.busy = false ∧ t.buttonPin = false) (blynkWriteV13 leds fuel param) s := by
  obtain ⟨e, q, _, rfl, rfl⟩ := (returns_easyWdmxConnect hs leds).mp ⟨fuel, h⟩
  have henable : (ConnectExit.leave { s with busy := false } q e).enable = true := by
    cases e <;> exact hs
  apply endsIn_of_ends (ends_blynkWriteV13 hbusy hparam h henable)
  cases e <;> exact ⟨rfl, rfl⟩

end handler

/-- What the calls leave is clean exactly when the readings lead to the last loop, or the LEDs
do not go off and the button was released before. -/
theorem blynkWriteV13_leavesClean_iff (leds : ℕ → Leds) (fuel : ℕ) (param : ℤ) (s : Wdmx)
    (hs : s.enable = true) (hbusy : s.busy = false) (hparam : param ≠ 0)
    (hreturns : EndsIn (fun _ _ => True) (easyWdmxConnect leds fuel) s) :
    LeavesClean leds fuel param s ↔ (∃ q, ReachesMode leds s.polls q) ∨
      TimesOut leds WDMX_COLOR_OFF true s.polls ∧ s.buttonPin = false := by
  obtain ⟨r, s', hend, _⟩ := hreturns
  obtain ⟨e, q, hexit, rfl, rfl⟩ := (returns_easyWdmxConnect hs leds).mp ⟨fuel, hend⟩
  have hconn : e = .connected ↔ ∃ d, ReachesMode leds s.polls d := by
    constructor
    · rintro rfl
      exact ⟨_, hexit.choose_spec.1⟩
    · rintro ⟨d, hd⟩
      exact (hd.connected hexit).1
  have hoff : e = .notOff ↔ TimesOut leds WDMX_COLOR_OFF true s.polls := by
    constructor
    · rintro rfl
      exact hexit.1
    · exact hexit.notOff
  rw [leavesClean_iff_exit hs hbusy hparam hend, hconn, hoff]

/-- The LEDs never show the colour of the mode: an error with the power on. -/
theorem settlesOn_red_returns : Ends (easyWdmxConnect (settlesOn red) 60) started CONNECT_ERROR
    { started with powerOn := true, polls := 26 } := ⟨by decide +kernel, by decide +kernel⟩

theorem blynkWriteV13_leavesClean_iff_red : started.enable = true ∧ started.busy = false ∧
    EndsIn (fun _ _ => True) (easyWdmxConnect (settlesOn red) 60) started ∧
      (LeavesClean (settlesOn red) 60 1 started ↔ (∃ q, ReachesMode (settlesOn red) started.polls q) ∨
        TimesOut (settlesOn red) WDMX_COLOR_OFF true started.polls ∧ started.buttonPin = false) := by
  have hreturns : EndsIn (fun _ _ => True) (easyWdmxConnect (settlesOn red) 60) started :=
    endsIn_of_ends settlesOn_red_returns trivial
  exact ⟨rfl, rfl, hreturns,
    blynkWriteV13_leavesClean_iff (settlesOn red) 60 1 started rfl rfl (by decide) hreturns⟩

/-- There V14 says that the module is off, and it is on. -/
theorem blynkWriteV13_shows_off : ¬ ∀ (leds : ℕ → Leds) (fuel : ℕ) (param : ℤ) (s : Wdmx),
    s.enable = true → s.busy = false → param ≠ 0 →
      EndsIn (fun _ _ => True) (easyWdmxConnect leds fuel) s → LeavesClean leds fuel param s := by
  intro hall
  have hclean := hall (settlesOn red) 60 1 started rfl rfl (by decide)
    (endsIn_of_ends settlesOn_red_returns trivial)
  have hhandler := ends_blynkWriteV13 (s := started) rfl (by decide : (1 : ℤ) ≠ 0)
    settlesOn_red_returns rfl
  have hshown : 0 = 1 := (endsIn_iff_of_ends hhandler).mp hclean.2
  exact Nat.zero_ne_one hshown

end Wdmx

end BlizzardBridge
