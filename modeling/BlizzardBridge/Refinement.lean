import BlizzardBridge.EventMachine

/-! Refinement between two machines with the same outputs. Each event of the one below does
what a list of events of the one above does, which may be empty. -/
namespace EventMachine
variable {σ τ ε δ ω : Type*}

def outputs (m : σ → ε → σ × List ω) (s : σ) (es : List ε) : List ω :=
  (trace m s es).map Prod.snd

/-- What the events of a run stand for, in order: each adds a list that depends on the state
which it finds. -/
def linearize (c : σ → ε → σ × List ω) (lin : σ → ε → List δ) : σ → List ε → List δ
  | _, [] => []
  | s, e :: es => lin s e ++ linearize c lin (c s e).1 es

/-- From the states in `I`, an event of `c` and the events `lin` of `a` lead to the same
state above and have the same outputs. -/
structure Refines (c : σ → ε → σ × List ω) (a : τ → δ → τ × List ω) (I : σ → Prop) (abs : σ → τ)
    (lin : σ → ε → List δ) : Prop where
  keep : ∀ s e, I s → I (c s e).1
  state : ∀ s e, I s → exec a (abs s) (lin s e) = abs (c s e).1
  output : ∀ s e, I s → outputs a (abs s) (lin s e) = (c s e).2

/-- As `Refines`, for states that are only related. -/
structure Tracks (c : σ → ε → σ × List ω) (a : τ → δ → τ × List ω) (R : σ → τ → Prop)
    (lin : σ → ε → List δ) : Prop where
  state : ∀ s t e, R s t → R (c s e).1 (exec a t (lin s e))
  output : ∀ s t e, R s t → outputs a t (lin s e) = (c s e).2

section rules
variable {c : σ → ε → σ × List ω} {a : τ → δ → τ × List ω} {I : σ → Prop} {abs : σ → τ}
  {R : σ → τ → Prop} {lin : σ → ε → List δ}

@[simp] theorem outputs_nil (m : σ → ε → σ × List ω) (s : σ) : outputs m s [] = [] := rfl

@[simp] theorem outputs_cons (m : σ → ε → σ × List ω) (s : σ) (e : ε) (es : List ε) :
    outputs m s (e :: es) = (m s e).2 ++ outputs m (m s e).1 es := by
  have hsnd : ((m s e).2.map (Prod.mk s)).map Prod.snd = (m s e).2 := by
    rw [List.map_map]
    exact List.map_id _
  rw [outputs, trace_cons, List.map_append, hsnd]
  rfl

theorem outputs_singleton (m : σ → ε → σ × List ω) (s : σ) (e : ε) : outputs m s [e] = (m s e).2 := by
  rw [outputs_cons, outputs_nil, List.append_nil]

theorem outputs_append (m : σ → ε → σ × List ω) (s : σ) (es fs : List ε) :
    outputs m s (es ++ fs) = outputs m s es ++ outputs m (exec m s es) fs := by
  rw [outputs, trace_append, List.map_append]
  rfl

theorem Tracks.exec_rel (h : Tracks c a R lin) {s : σ} {t : τ} (hst : R s t) (es : List ε) :
    R (exec c s es) (exec a t (linearize c lin s es)) := by
  induction es generalizing s t with
  | nil => exact hst
  | cons e es ih =>
    rw [linearize, exec_append]
    exact ih (h.state s t e hst)

theorem Tracks.outputs_eq (h : Tracks c a R lin) {s : σ} {t : τ} (hst : R s t) (es : List ε) :
    outputs a t (linearize c lin s es) = outputs c s es := by
  induction es generalizing s t with
  | nil => rfl
  | cons e es ih =>
    calc outputs a t (lin s e ++ linearize c lin (c s e).1 es)
        = (c s e).2 ++ outputs a (exec a t (lin s e)) (linearize c lin (c s e).1 es) := by
          rw [outputs_append, h.output s t e hst]
      _ = (c s e).2 ++ outputs c (c s e).1 es := by rw [ih (h.state s t e hst)]
      _ = outputs c s (e :: es) := (outputs_cons c s e es).symm

theorem Refines.tracks (h : Refines c a I abs lin) : Tracks c a (fun s t => I s ∧ t = abs s) lin where
  state s t e hst := by
    obtain ⟨hs, rfl⟩ := hst
    exact ⟨h.keep s e hs, h.state s e hs⟩
  output s t e hst := by
    obtain ⟨hs, rfl⟩ := hst
    exact h.output s e hs

theorem Refines.exec_eq (h : Refines c a I abs lin) {s : σ} (hs : I s) (es : List ε) :
    exec a (abs s) (linearize c lin s es) = abs (exec c s es) :=
  (h.tracks.exec_rel ⟨hs, rfl⟩ es).2

theorem Refines.outputs_eq (h : Refines c a I abs lin) {s : σ} (hs : I s) (es : List ε) :
    outputs a (abs s) (linearize c lin s es) = outputs c s es :=
  h.tracks.outputs_eq ⟨hs, rfl⟩ es

theorem linearize_append (s : σ) (es fs : List ε) :
    linearize c lin s (es ++ fs) = linearize c lin s es ++ linearize c lin (exec c s es) fs := by
  induction es generalizing s with
  | nil => rfl
  | cons e es ih =>
    rw [List.cons_append, linearize, ih, linearize, List.append_assoc]
    rfl

theorem linearize_none (s : σ) (es : List ε) : linearize c (fun _ _ => ([] : List δ)) s es = [] := by
  induction es generalizing s with
  | nil => rfl
  | cons e es ih => exact ih _

theorem flatMap_linearize {β : Type*} (f : δ → List β) (s : σ) (es : List ε) :
    (linearize c lin s es).flatMap f = linearize c (fun s e => (lin s e).flatMap f) s es := by
  induction es generalizing s with
  | nil => rfl
  | cons e es ih =>
    rw [linearize, List.flatMap_append, ih]
    rfl

/-- What goes in with each event and what comes out, when the state keeps the rest. -/
theorem linearize_conserve {β : Type*} {f g : σ → ε → List β} {k : σ → List β}
    (hinv : ∀ s e, I s → I (c s e).1)
    (hstep : ∀ s e, I s → k s ++ f s e = g s e ++ k (c s e).1) {s : σ} (hs : I s)
    (es : List ε) :
    k s ++ linearize c f s es = linearize c g s es ++ k (exec c s es) := by
  induction es generalizing s with
  | nil => exact List.append_nil _
  | cons e es ih =>
    calc k s ++ (f s e ++ linearize c f (c s e).1 es)
        = g s e ++ (k (c s e).1 ++ linearize c f (c s e).1 es) := by
          rw [← List.append_assoc, hstep s e hs, List.append_assoc]
      _ = g s e ++ (linearize c g (c s e).1 es ++ k (exec c (c s e).1 es)) := by
          rw [ih (hinv s e hs)]
      _ = linearize c g s (e :: es) ++ k (exec c s (e :: es)) := (List.append_assoc _ _ _).symm

/-- What no event of the run raises, and each event in `p` lowers, bounds how many there are. -/
theorem countP_le_variant {C : σ → ε → Prop} {v : σ → ℕ} {p : ε → Bool}
    (hinv : ∀ s e, I s → C s e → I (c s e).1)
    (hlower : ∀ s e, I s → C s e → p e = true → v (c s e).1 < v s)
    (hkeep : ∀ s e, I s → C s e → p e = false → v (c s e).1 ≤ v s) {s : σ} {es : List ε} (hs : I s)
    (hC : Along c C s es) : es.countP p ≤ v s := by
  induction es generalizing s with
  | nil => exact Nat.zero_le _
  | cons e es ih =>
    have hrest : es.countP p ≤ v (c s e).1 := ih (hinv s e hs hC.1) hC.2
    cases hp : p e with
    | true =>
      have hlt := hlower s e hs hC.1 hp
      rw [List.countP_cons_of_pos hp]
      omega
    | false =>
      have hle := hkeep s e hs hC.1 hp
      rw [List.countP_cons_of_neg (by simp [hp])]
      exact Nat.le_trans hrest hle

end rules

end EventMachine
