import BlizzardBridge.ArtnetTasks

/-! When the handshake over `send_active` keeps the sending tasks apart. The flag is set
by the new task itself, so it says nothing about a task that has not run yet. -/
namespace BlizzardBridge
open EventMachine

/-- A task that is past its first step. -/
def LoopStep.started (l : LoopStep) : Bool := l ≠ .created

namespace NodeTasks

/-- No task is created beside another one, and RECEIVE is not asked for a second time
while a send that was decided on before is still to come. -/
def InTurn (s : NodeTasks) : TaskEvent → Prop
  | .control => s.control = .creating → s.loops = []
  | .changeDirectionArtnet .receive =>
    s.control = .idle → s.direction = .receive → .sending ∉ s.loops
  | _ => True

instance decidableInTurn (s : NodeTasks) : ∀ e, Decidable (s.InTurn e)
  | .control => inferInstanceAs (Decidable (s.control = .creating → s.loops = []))
  | .changeDirectionArtnet .receive =>
    inferInstanceAs (Decidable (s.control = .idle → s.direction = .receive → .sending ∉ s.loops))
  | .changeDirectionArtnet .send => instDecidableTrue
  | .startDMXArtnet _ => instDecidableTrue
  | .loop _ => instDecidableTrue

/-- `changeDirectionArtnet(RECEIVE)` returns. -/
def Returns (s : NodeTasks) (e : TaskEvent) : Prop :=
  e = .changeDirectionArtnet .receive ∧ s.control = .idle ∧ s.direction = .receive ∨
    e = .control ∧ s.control = .waiting ∧ s.sendActive = false

/-- A call that sets the direction to SEND. -/
def SetsSend (s : NodeTasks) (e : TaskEvent) : Prop :=
  s.control = .idle ∧ (e = .startDMXArtnet .send ∨ e = .changeDirectionArtnet .send)

structure OneLoop (s : NodeTasks) : Prop where
  loops : s.loops = [] ∨ ∃ l, s.loops = [l]
  active : s.sendActive = true ↔ ∃ l ∈ s.loops, l ≠ .created
  waiting : s.control = .waiting → s.direction = .receive

structure Quiet (s : NodeTasks) : Prop where
  direction : s.direction = .receive
  sending : .sending ∉ s.loops
  creating : s.control ≠ .creating
  starting : s.control ≠ .starting .send

section step
variable {s : NodeTasks}

theorem loopStep_none (i : ℕ) (h : s.loops[i]? = none) : s.loopStep i = (s, []) := by
  rw [loopStep, h]

/-- With one task at most, a step is that of the task or none at all. -/
theorem loop_cases (hs : s.OneLoop) (i : ℕ) :
    s.loopStep i = (s, []) ∨ ∃ l, s.loops = [l] ∧ i = 0 := by
  rcases hs.loops with hnil | ⟨l, hl⟩
  · left
    apply loopStep_none
    rw [hnil]
    exact List.getElem?_nil
  · rcases i with _ | i
    · exact Or.inr ⟨l, hl, rfl⟩
    · left
      apply loopStep_none
      rw [hl]
      rfl

theorem loopStep_created (h : s.loops = [.created]) :
    s.loopStep 0 = ({ s with sendActive := true, loops := [.testing] }, []) := by
  simp only [loopStep, h, List.getElem?_cons_zero, List.set_cons_zero]

theorem loopStep_testing (h : s.loops = [.testing]) : s.loopStep 0 =
    ({ s with loops := [if s.direction = .send then .sending else .ending] }, []) := by
  simp only [loopStep, h, List.getElem?_cons_zero, List.set_cons_zero]

theorem loopStep_sending (h : s.loops = [.sending]) : s.loopStep 0 =
    ({ s with loops := [.testing] }, if s.enabled then [.artDmx] else []) := by
  simp only [loopStep, h, List.getElem?_cons_zero, List.set_cons_zero]

theorem loopStep_ending (h : s.loops = [.ending]) :
    s.loopStep 0 = ({ s with sendActive := false, loops := [] }, []) := by
  simp only [loopStep, h, List.getElem?_cons_zero, List.eraseIdx_zero, List.tail_cons]

theorem controlStep_idle (h : s.control = .idle) : s.controlStep = s := by
  simp only [controlStep, h]

theorem controlStep_starting {dir : Direction} (h : s.control = .starting dir) :
    s.controlStep = { s with direction := dir, control := .enabling } := by
  simp only [controlStep, h]

theorem controlStep_enabling (h : s.control = .enabling) : s.controlStep =
    { s with enabled := true, control := if s.direction = .send then .creating else .idle } := by
  simp only [controlStep, h]

theorem controlStep_creating (h : s.control = .creating) :
    s.controlStep = { s with loops := s.loops ++ [.created], control := .idle } := by
  simp only [controlStep, h, createLoop]

theorem controlStep_waiting (h : s.control = .waiting) :
    s.controlStep = if s.sendActive then s else { s with control := .idle } := by
  simp only [controlStep, h]

/-- A start goes to work only while no other call does. -/
theorem start_cases (dir : Direction) : (s.step (.startDMXArtnet dir)).1 = s ∨ s.control = .idle ∧
    (s.step (.startDMXArtnet dir)).1 = { s with enabled := false, control := .starting dir } := by
  by_cases hidle : s.control = .idle
  · exact Or.inr ⟨hidle, if_pos hidle⟩
  · exact Or.inl (if_neg hidle)

theorem OneLoop.active_iff (hs : s.OneLoop) {l : LoopStep} (hl : s.loops = [l]) :
    s.sendActive = true ↔ l ≠ .created := by
  rw [hs.active, hl]
  simp only [List.mem_singleton, exists_eq_left]

theorem oneLoop_loop (hs : s.OneLoop) (i : ℕ) : (s.loopStep i).1.OneLoop := by
  rcases loop_cases hs i with hsame | ⟨l, hl, rfl⟩
  · rw [hsame]
    exact hs
  · have hactive := hs.active_iff hl
    cases l with
    | created =>
      rw [loopStep_created hl]
      exact ⟨Or.inr ⟨_, rfl⟩, by simp, hs.waiting⟩
    | testing =>
      have hrun : s.sendActive = true := hactive.mpr (by decide)
      rw [loopStep_testing hl]
      refine ⟨Or.inr ⟨_, rfl⟩, ?_, hs.waiting⟩
      split <;> simp [hrun]
    | sending =>
      have hrun : s.sendActive = true := hactive.mpr (by decide)
      rw [loopStep_sending hl]
      exact ⟨Or.inr ⟨_, rfl⟩, by simp [hrun], hs.waiting⟩
    | ending =>
      rw [loopStep_ending hl]
      exact ⟨Or.inl rfl, by simp, hs.waiting⟩

theorem oneLoop_control (hs : s.OneLoop) (hturn : s.InTurn .control) : s.controlStep.OneLoop := by
  cases hc : s.control with
  | idle =>
    rw [controlStep_idle hc]
    exact hs
  | starting dir =>
    rw [controlStep_starting hc]
    exact ⟨hs.loops, hs.active, nofun⟩
  | enabling =>
    rw [controlStep_enabling hc]
    refine ⟨hs.loops, hs.active, fun hwait => ?_⟩
    change (if s.direction = .send then ControlStep.creating else .idle) = .waiting at hwait
    split at hwait <;> cases hwait
  | creating =>
    -- the new task is the only one
    have hnone : s.loops = [] := hturn hc
    have hidle : s.sendActive = false := by
      have hactive := hs.active
      rw [hnone] at hactive
      simpa using hactive
    rw [controlStep_creating hc, hnone, List.nil_append]
    exact ⟨Or.inr ⟨_, rfl⟩, by simp [hidle], nofun⟩
  | waiting =>
    rw [controlStep_waiting hc]
    split
    · exact hs
    · exact ⟨hs.loops, hs.active, nofun⟩

theorem oneLoop_step (s : NodeTasks) (e : TaskEvent) (hs : s.OneLoop) (hturn : s.InTurn e) :
    (s.step e).1.OneLoop := by
  cases e with
  | startDMXArtnet dir =>
    rcases start_cases (s := s) dir with hsame | ⟨_, hnext⟩
    · rw [hsame]
      exact hs
    · rw [hnext]
      exact ⟨hs.loops, hs.active, nofun⟩
  | changeDirectionArtnet dir =>
    by_cases hskip : s.control ≠ .idle ∨ dir = s.direction
    · have hsame : (s.step (.changeDirectionArtnet dir)).1 = s := if_pos hskip
      rw [hsame]
      exact hs
    · have hnext : (s.step (.changeDirectionArtnet dir)).1 =
          { s with direction := dir, control := if dir = .send then .creating else .waiting } :=
        if_neg hskip
      rw [hnext]
      refine ⟨hs.loops, hs.active, fun hwait => ?_⟩
      cases dir with
      | send => cases hwait
      | receive => rfl
  | control => exact oneLoop_control hs hturn
  | loop i => exact oneLoop_loop hs i

/-- Only a task that has found the direction SEND sends. -/
theorem sends_only_sending (s : NodeTasks) (e : TaskEvent) (h : .sending ∉ s.loops) :
    .artDmx ∉ (s.step e).2 := by
  cases e with
  | loop i =>
    change .artDmx ∉ (s.loopStep i).2
    unfold loopStep
    cases hl : s.loops[i]? with
    | none => exact List.not_mem_nil
    | some l =>
      cases l with
      | sending => exact absurd (List.mem_of_getElem? hl) h
      | _ => exact List.not_mem_nil
  | _ => exact List.not_mem_nil

theorem quiet_loop (hq : s.Quiet) (i : ℕ) : (s.loopStep i).1.Quiet := by
  unfold loopStep
  cases hl : s.loops[i]? with
  | none => exact hq
  | some l =>
    have hmem : l ∈ s.loops := List.mem_of_getElem? hl
    have hset (l' : LoopStep) (hne : l' ≠ .sending) : .sending ∉ s.loops.set i l' := by
      intro hin
      rcases List.mem_or_eq_of_mem_set hin with hold | hnew
      · exact hq.sending hold
      · exact hne hnew.symm
    cases l with
    | created => exact ⟨hq.direction, hset _ (by decide), hq.creating, hq.starting⟩
    | testing =>
      -- the direction is RECEIVE, so the task is about to end
      have hstop : (if s.direction = .send then LoopStep.sending else .ending) = .ending :=
        if_neg (by rw [hq.direction]; decide)
      refine ⟨hq.direction, ?_, hq.creating, hq.starting⟩
      change .sending ∉ s.loops.set i (if s.direction = .send then .sending else .ending)
      rw [hstop]
      exact hset _ (by decide)
    | sending => exact absurd hmem hq.sending
    | ending =>
      have herase : .sending ∉ s.loops.eraseIdx i := fun hin => hq.sending (List.mem_of_mem_eraseIdx hin)
      exact ⟨hq.direction, herase, hq.creating, hq.starting⟩

theorem quiet_control (hq : s.Quiet) : s.controlStep.Quiet := by
  cases hc : s.control with
  | idle =>
    rw [controlStep_idle hc]
    exact hq
  | starting dir =>
    have hdir : dir = .receive := by
      cases dir with
      | send => exact absurd hc hq.starting
      | receive => rfl
    rw [controlStep_starting hc]
    exact ⟨hdir, hq.sending, nofun, nofun⟩
  | enabling =>
    have hreceive : ¬ s.direction = .send := by rw [hq.direction]; decide
    rw [controlStep_enabling hc, if_neg hreceive]
    exact ⟨hq.direction, hq.sending, nofun, nofun⟩
  | creating => exact absurd hc hq.creating
  | waiting =>
    rw [controlStep_waiting hc]
    split
    · exact hq
    · exact ⟨hq.direction, hq.sending, nofun, nofun⟩

/-- The calls that set the direction to SEND apart, nothing makes a task send again. -/
theorem quiet_step (s : NodeTasks) (e : TaskEvent) (hq : s.Quiet) (hkeep : ¬ s.SetsSend e) :
    (s.step e).1.Quiet := by
  cases e with
  | startDMXArtnet dir =>
    rcases start_cases (s := s) dir with hsame | ⟨hidle, hnext⟩
    · rw [hsame]
      exact hq
    · rw [hnext]
      refine ⟨hq.direction, hq.sending, nofun, fun hsend => ?_⟩
      cases hsend
      exact hkeep ⟨hidle, Or.inl rfl⟩
  | changeDirectionArtnet dir =>
    have hsame : (s.step (.changeDirectionArtnet dir)).1 = s := by
      apply if_pos
      by_cases hidle : s.control = .idle
      · cases dir with
        | send => exact absurd ⟨hidle, Or.inr rfl⟩ hkeep
        | receive => exact Or.inr hq.direction.symm
      · exact Or.inl hidle
    rw [hsame]
    exact hq
  | control => exact quiet_control hq
  | loop i => exact quiet_loop hq i

/-- A return from `changeDirectionArtnet(RECEIVE)` leaves no task that is to send. -/
theorem quiet_of_returns (s : NodeTasks) (e : TaskEvent) (hs : s.OneLoop) (hturn : s.InTurn e)
    (hret : s.Returns e) : (s.step e).1.Quiet := by
  rcases hret with ⟨rfl, hidle, hdir⟩ | ⟨rfl, hwait, hrun⟩
  · have hsame : (s.step (.changeDirectionArtnet .receive)).1 = s := if_pos (Or.inr hdir.symm)
    rw [hsame]
    exact ⟨hdir, hturn hidle hdir, by rw [hidle]; decide, by rw [hidle]; decide⟩
  · have hnext : (s.step .control).1 = { s with control := .idle } := by
      change s.controlStep = _
      rw [controlStep_waiting hwait, hrun]
      rfl
    have hsending : .sending ∉ s.loops := by
      intro hin
      have hactive := hs.active.mpr ⟨_, hin, by decide⟩
      exact absurd (hrun.symm.trans hactive) (by decide)
    rw [hnext]
    exact ⟨hs.waiting hwait, hsending, nofun, nofun⟩

end step

theorem oneLoop_boot : boot.OneLoop := ⟨Or.inl rfl, by decide, nofun⟩

/-- At most one task is past its first step, and behind a return from RECEIVE none sends. -/
def Separate (es : List TaskEvent) : Prop :=
  ((exec step boot es).loops.filter LoopStep.started).length ≤ 1 ∧
    (Settled step Returns SetsSend False boot es → ∀ e, .artDmx ∉ (step (exec step boot es) e).2)

theorem separate_of_inTurn (es : List TaskEvent) (hturn : Along step InTurn boot es) : Separate es := by
  have hone : (exec step boot es).OneLoop := exec_invariant oneLoop_step oneLoop_boot hturn
  constructor
  · have hlength : (exec step boot es).loops.length ≤ 1 := by
      rcases hone.loops with h | ⟨l, h⟩
      · rw [h]
        exact Nat.zero_le 1
      · rw [h]
        exact le_rfl
    exact le_trans (List.length_filter_le _ _) hlength
  · intro hsettled e
    have hquiet : (exec step boot es).Quiet :=
      exec_of_settled_along oneLoop_step quiet_of_returns
        (fun s e _ hq _ hkeep => quiet_step s e hq hkeep) oneLoop_boot False.elim hturn hsettled
    exact sends_only_sending _ e hquiet.sending

/-- A task beside a new one: both get past their first steps. -/
theorem both_start (s : NodeTasks) (l : LoopStep) (h : s.loops = [l, .created]) :
    ∃ es, ((exec step s es).loops.filter LoopStep.started).length = 2 := by
  by_cases hl : l = .created
  · refine ⟨[.loop 0, .loop 1], ?_⟩
    simp [step, loopStep, h, hl, LoopStep.started]
  · refine ⟨[.loop 1], ?_⟩
    simp [step, loopStep, h, hl, LoopStep.started]

/-- A send that was decided on leaves the node, once it is enabled. -/
theorem late_send (s : NodeTasks) (h : s.loops = [.sending]) (hidle : s.control = .idle) :
    ∃ es, Settled step Returns SetsSend True s es ∧ .artDmx ∈ (step (exec step s es) (.loop 0)).2 := by
  refine ⟨[.startDMXArtnet .receive, .control, .control], ?_, ?_⟩
  · simp [Settled, SetsSend, step, controlStep, hidle]
  · simp [step, controlStep, loopStep, h, hidle]

/-- A step out of turn can be followed by what the handshake is to prevent. -/
theorem not_separate_of_not_inTurn (es : List TaskEvent) (hturn : Along step InTurn boot es)
    (e : TaskEvent) (hbreak : ¬ (exec step boot es).InTurn e) : ∃ es', ¬ Separate (es ++ e :: es') := by
  let s := exec step boot es
  have hone : s.OneLoop := exec_invariant oneLoop_step oneLoop_boot hturn
  cases e with
  | startDMXArtnet dir => exact absurd trivial hbreak
  | loop i => exact absurd trivial hbreak
  | control =>
    obtain ⟨hcreating, hloops⟩ := Classical.not_imp.mp hbreak
    obtain ⟨l, hl⟩ := hone.loops.resolve_left hloops
    have hcontrol : s.control = .creating := hcreating
    have hnext : (s.step .control).1.loops = [l, .created] := by
      change s.controlStep.loops = _
      rw [controlStep_creating hcontrol, hl]
      rfl
    obtain ⟨es', htwo⟩ := both_start _ l hnext
    refine ⟨es', fun hsep => ?_⟩
    have hone' := hsep.1
    rw [exec_append, exec_cons, htwo] at hone'
    omega
  | changeDirectionArtnet dir =>
    cases dir with
    | send => exact absurd trivial hbreak
    | receive =>
      obtain ⟨hidle, hrest⟩ := Classical.not_imp.mp hbreak
      obtain ⟨hdir, hsending⟩ := Classical.not_imp.mp hrest
      have hloops : s.loops = [.sending] := by
        rcases hone.loops with hnil | ⟨l, hl⟩
        · exact absurd (hnil ▸ not_not.mp hsending) List.not_mem_nil
        · have hmem : .sending ∈ s.loops := not_not.mp hsending
          rw [hl] at hmem ⊢
          rw [List.mem_singleton.mp hmem]
      have hsame : (s.step (.changeDirectionArtnet .receive)).1 = s := if_pos (Or.inr hdir.symm)
      obtain ⟨es', hsettled, hsent⟩ := late_send s hloops hidle
      refine ⟨es', fun hsep => ?_⟩
      have hnone := hsep.2
      rw [exec_append, exec_cons, hsame, settled_append] at hnone
      -- the call returns at once, and the start of a receiver is no call that sets SEND
      have hret : s.Returns (.changeDirectionArtnet .receive) := Or.inl ⟨rfl, hidle, hdir⟩
      refine hnone ?_ (.loop 0) hsent
      change Settled step Returns SetsSend (_ ∨ _) (s.step (.changeDirectionArtnet .receive)).1 es'
      rw [hsame]
      have htrue : (s.Returns (.changeDirectionArtnet .receive) ∨ Settled step Returns SetsSend False boot es ∧
          ¬ s.SetsSend (.changeDirectionArtnet .receive)) = True := eq_true (Or.inl hret)
      rw [htrue]
      exact hsettled

/-- While every task is created alone and RECEIVE is not repeated over a pending send, the
handshake does its work; the first step that is out of turn can undo it. -/
theorem separate_while_inTurn (es : List TaskEvent) (hturn : Along step InTurn boot es) :
    Separate es ∧ ∀ e, ¬ (exec step boot es).InTurn e → ∃ es', ¬ Separate (es ++ e :: es') :=
  ⟨separate_of_inTurn es hturn, not_separate_of_not_inTurn es hturn⟩

/-- One task sends and is then stopped in order. -/
def stoppedRun : List TaskEvent :=
  [.startDMXArtnet .send, .control, .control, .control, .loop 0, .loop 0,
    .changeDirectionArtnet .receive, .control, .loop 0, .loop 0, .loop 0, .control]

theorem separate_while_inTurn_stopped : Separate stoppedRun := by
  have hturn : Along step InTurn boot stoppedRun := by decide
  exact (separate_while_inTurn stoppedRun hturn).1

/-- RECEIVE and SEND again before the first task has run: two tasks send. -/
def twoLoopsRun : List TaskEvent :=
  [.changeDirectionArtnet .send, .control, .changeDirectionArtnet .receive, .control,
    .changeDirectionArtnet .send, .control, .loop 0, .loop 1]

theorem two_loops : ¬ ∀ es : List TaskEvent, Separate es := by
  intro hall
  have hone := (hall twoLoopsRun).1
  exact absurd hone (by decide)

end NodeTasks

end BlizzardBridge
