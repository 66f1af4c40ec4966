import Mathlib.Data.List.Basic
import Mathlib.Data.List.Iterate
import Mathlib.Tactic.Common

/-! Deterministic machines driven by a list of events: each event takes the
state it finds to a next state and a list of outputs. A condition on the run is
a condition on every event together with the state in which it is delivered. -/
namespace EventMachine
variable {σ ε ω : Type*}

def exec (m : σ → ε → σ × List ω) : σ → List ε → σ
  | s, [] => s
  | s, e :: es => exec m (m s e).1 es

/-- The outputs of a run in order, each with the state its event has found. -/
def trace (m : σ → ε → σ × List ω) : σ → List ε → List (σ × ω)
  | _, [] => []
  | s, e :: es => (m s e).2.map (Prod.mk s) ++ trace m (m s e).1 es

/-- Every event of the run meets `C` in the state that it finds. -/
def Along (m : σ → ε → σ × List ω) (C : σ → ε → Prop) : σ → List ε → Prop
  | _, [] => True
  | s, e :: es => C s e ∧ Along m C (m s e).1 es

instance decidableAlong (m : σ → ε → σ × List ω) (C : σ → ε → Prop)
    [∀ s e, Decidable (C s e)] : ∀ s es, Decidable (Along m C s es)
  | _, [] => instDecidableTrue
  | s, e :: es => @instDecidableAnd _ _ _ (decidableAlong m C (m s e).1 es)

/-- What is known of a property that the events of `W` establish and those of `L` may
lose: whether the last such event is one of `W`, or, without any, `ok`. -/
def Settled (m : σ → ε → σ × List ω) (W L : σ → ε → Prop) : Prop → σ → List ε → Prop
  | ok, _, [] => ok
  | ok, s, e :: es => Settled m W L (W s e ∨ ok ∧ ¬ L s e) (m s e).1 es

/-- The event changes nothing that is read by `f`. -/
def Rests {α : Type*} (m : σ → ε → σ × List ω) (f : σ → α) (s : σ) (e : ε) : Prop := f (m s e).1 = f s

section rules
variable (m : σ → ε → σ × List ω)

@[simp] theorem exec_nil (s : σ) : exec m s [] = s := rfl

@[simp] theorem exec_cons (s : σ) (e : ε) (es : List ε) :
    exec m s (e :: es) = exec m (m s e).1 es := rfl

@[simp] theorem trace_nil (s : σ) : trace m s [] = [] := rfl

@[simp] theorem trace_cons (s : σ) (e : ε) (es : List ε) :
    trace m s (e :: es) = (m s e).2.map (Prod.mk s) ++ trace m (m s e).1 es := rfl

@[simp] theorem along_nil (C : σ → ε → Prop) (s : σ) : Along m C s [] := trivial

@[simp] theorem along_cons (C : σ → ε → Prop) (s : σ) (e : ε) (es : List ε) :
    Along m C s (e :: es) ↔ C s e ∧ Along m C (m s e).1 es := Iff.rfl

theorem exec_append (s : σ) (es fs : List ε) :
    exec m s (es ++ fs) = exec m (exec m s es) fs := by
  induction es generalizing s with
  | nil => rfl
  | cons e es ih => exact ih _

theorem trace_append (s : σ) (es fs : List ε) :
    trace m s (es ++ fs) = trace m s es ++ trace m (exec m s es) fs := by
  induction es generalizing s with
  | nil => rfl
  | cons e es ih => simp only [List.cons_append, trace_cons, exec_cons, ih, List.append_assoc]

theorem along_append (C : σ → ε → Prop) (s : σ) (es fs : List ε) :
    Along m C s (es ++ fs) ↔ Along m C s es ∧ Along m C (exec m s es) fs := by
  induction es generalizing s with
  | nil => simp
  | cons e es ih => simp only [List.cons_append, along_cons, exec_cons, ih, and_assoc]

variable {m} {C D : σ → ε → Prop} {I : σ → Prop}

/-- The invariant rule: what every delivered event preserves holds at the end. -/
theorem exec_invariant (hstep : ∀ s e, I s → C s e → I (m s e).1) {s : σ} {es : List ε}
    (hs : I s) (hC : Along m C s es) : I (exec m s es) := by
  induction es generalizing s with
  | nil => exact hs
  | cons e es ih => exact ih (hstep s e hs hC.1) hC.2

theorem along_congr (hstep : ∀ s e, I s → C s e → I (m s e).1)
    {E : σ → ε → Prop} (hDE : ∀ s e, I s → C s e → (D s e ↔ E s e)) {s : σ} {es : List ε}
    (hs : I s) (hC : Along m C s es) : Along m D s es ↔ Along m E s es := by
  induction es generalizing s with
  | nil => exact Iff.rfl
  | cons e es ih =>
    exact and_congr (hDE s e hs hC.1) (ih (hstep s e hs hC.1) hC.2)

theorem along_mono (hstep : ∀ s e, I s → C s e → I (m s e).1)
    (hCD : ∀ s e, I s → C s e → D s e) {s : σ} {es : List ε}
    (hs : I s) (hC : Along m C s es) : Along m D s es := by
  induction es generalizing s with
  | nil => trivial
  | cons e es ih => exact ⟨hCD s e hs hC.1, ih (hstep s e hs hC.1) hC.2⟩

theorem along_imp (hCD : ∀ s e, C s e → D s e) {s : σ} {es : List ε} (hC : Along m C s es) :
    Along m D s es :=
  along_mono (I := fun _ => True) (fun _ _ _ _ => trivial) (fun s e _ => hCD s e) trivial hC

/-- An invariant of every event holds in each state that an event finds. -/
theorem along_invariant (hstep : ∀ s e, I s → I (m s e).1) {s : σ} (hs : I s) (es : List ε) :
    Along m (fun s _ => I s) s es := by
  induction es generalizing s with
  | nil => trivial
  | cons e es ih => exact ⟨hs, ih (hstep s e hs)⟩

theorem along_of_forall (hC : ∀ s e, C s e) (s : σ) (es : List ε) : Along m C s es := by
  induction es generalizing s with
  | nil => trivial
  | cons e es ih => exact ⟨hC s e, ih _⟩

/-- As `along_imp`, for a list of which the events are known. -/
theorem along_imp_mem {s : σ} {es : List ε} (hCD : ∀ e ∈ es, ∀ s, C s e → D s e)
    (hC : Along m C s es) : Along m D s es := by
  induction es generalizing s with
  | nil => trivial
  | cons e es ih =>
    have hrest := ih (fun e' he' => hCD e' (List.mem_cons_of_mem e he')) hC.2
    exact ⟨hCD e List.mem_cons_self s hC.1, hrest⟩

theorem along_of_mem {es : List ε} (hC : ∀ e ∈ es, ∀ s, C s e) (s : σ) : Along m C s es :=
  along_imp_mem (C := fun _ _ => True) (fun e he s _ => hC e he s)
    (along_of_forall (fun _ _ => trivial) s es)

theorem along_and {s : σ} {es : List ε} :
    Along m (fun s e => C s e ∧ D s e) s es ↔ Along m C s es ∧ Along m D s es := by
  induction es generalizing s with
  | nil => simp
  | cons e es ih => simp only [along_cons, ih]; tauto

theorem trace_forall_iff (P : σ → ω → Prop) (s : σ) (es : List ε) :
    (∀ x ∈ trace m s es, P x.1 x.2) ↔ Along m (fun s e => ∀ o ∈ (m s e).2, P s o) s es := by
  induction es generalizing s with
  | nil => simp
  | cons e es ih =>
    rw [trace_cons, List.forall_mem_append, ih, along_cons]
    simp only [List.forall_mem_map]

/-- The invariant rule for the states in which the outputs of a run were made. -/
theorem trace_invariant (hstep : ∀ s e, I s → C s e → I (m s e).1) {s : σ} {es : List ε} (hs : I s)
    (hC : Along m C s es) : ∀ x ∈ trace m s es, I x.1 := by
  have hall : Along m (fun s _ => I s) s es := along_mono hstep (fun s e h _ => h) hs hC
  exact (trace_forall_iff (fun s _ => I s) s es).mpr (along_imp (fun s e h o _ => h) hall)

theorem rests_exec {α : Type*} {f : σ → α} {s : σ} {es : List ε} (h : Along m (Rests m f) s es) :
    f (exec m s es) = f s :=
  exec_invariant (I := fun t => f t = f s) (fun _ _ ht hrest => hrest.trans ht) rfl h

/-- A machine that stamps each output with a counter, and moves the counter on when it has:
the stamps of a run are the counter's values in order. -/
theorem stamps_eq_iterate {κ : Type*} (cur : σ → κ) (next : κ → κ) (stamp : ω → κ)
    (hinv : ∀ s e, I s → I (m s e).1)
    (hstep : ∀ s e, I s → ((m s e).2 = [] ∧ cur (m s e).1 = cur s) ∨
      ∃ o, (m s e).2 = [o] ∧ stamp o = cur s ∧ cur (m s e).1 = next (cur s))
    {s : σ} (hs : I s) (es : List ε) :
    (trace m s es).map (fun x => stamp x.2) = List.iterate next (cur s) (trace m s es).length := by
  induction es generalizing s with
  | nil => rfl
  | cons e es ih =>
    have hrest := ih (hinv s e hs)
    rcases hstep s e hs with ⟨hnone, hcur⟩ | ⟨o, hone, hstamp, hcur⟩
    · rw [trace_cons, hnone, List.map_nil, List.nil_append, hrest, hcur]
    · rw [trace_cons, hone, List.map_singleton, List.singleton_append, List.map_cons, hrest, hcur,
        hstamp]
      rfl

theorem length_trace {p : ε → Bool} (hinv : ∀ s e, I s → I (m s e).1)
    (hlength : ∀ s e, I s → (m s e).2.length = if p e then 1 else 0) {s : σ} (hs : I s)
    (es : List ε) : (trace m s es).length = es.countP p := by
  induction es generalizing s with
  | nil => rfl
  | cons e es ih =>
    rw [trace_cons, List.length_append, List.length_map, hlength s e hs, ih (hinv s e hs),
      List.countP_cons, Nat.add_comm]

/-- The invariant rule for an invariant of the state and of the outputs so far. -/
theorem exec_trace_invariant {J : σ → List (σ × ω) → Prop}
    (hstep : ∀ s ts e, J s ts → C s e → J (m s e).1 (ts ++ (m s e).2.map (Prod.mk s)))
    {s : σ} {ts : List (σ × ω)} {es : List ε} (hs : J s ts) (hC : Along m C s es) :
    J (exec m s es) (ts ++ trace m s es) := by
  induction es generalizing s ts with
  | nil => simpa only [exec_nil, trace_nil, List.append_nil] using hs
  | cons e es ih =>
    have h := ih (hstep s ts e hs hC.1) hC.2
    simpa only [exec_cons, trace_cons, List.append_assoc] using h

theorem settled_append {W L : σ → ε → Prop} (ok : Prop) (s : σ) (es fs : List ε) :
    Settled m W L ok s (es ++ fs) ↔ Settled m W L (Settled m W L ok s es) (exec m s es) fs := by
  induction es generalizing s ok with
  | nil => exact Iff.rfl
  | cons e es ih => exact ih _ _

/-- A property that an event of the run loses for good exactly when it does not meet `D`. -/
theorem exec_iff_along (hstep : ∀ s e, C s e → (I (m s e).1 ↔ I s ∧ D s e)) {s : σ} {es : List ε}
    (hC : Along m C s es) : I (exec m s es) ↔ I s ∧ Along m D s es := by
  induction es generalizing s with
  | nil => exact (and_iff_left trivial).symm
  | cons e es ih =>
    calc I (exec m s (e :: es))
        ↔ I (m s e).1 ∧ Along m D (m s e).1 es := ih hC.2
      _ ↔ (I s ∧ D s e) ∧ Along m D (m s e).1 es := and_congr_left' (hstep s e hC.1)
      _ ↔ I s ∧ Along m D s (e :: es) := and_assoc

/-- A property of every state reached, against a condition that each event meets exactly
when it keeps the property. -/
theorem forall_prefix_iff_along (hkeep : ∀ s e, C s e → I s → (I (m s e).1 ↔ D s e)) {s : σ}
    {es : List ε} (hC : Along m C s es) :
    (∀ fs, fs <+: es → I (exec m s fs)) ↔ I s ∧ Along m D s es := by
  induction es generalizing s with
  | nil =>
    constructor
    · intro h
      exact ⟨h [] List.nil_prefix, trivial⟩
    · intro h fs hfs
      rw [List.prefix_nil.mp hfs]
      exact h.1
  | cons e es ih =>
    have hsplit : (∀ fs, fs <+: e :: es → I (exec m s fs)) ↔
        I s ∧ ∀ fs, fs <+: es → I (exec m (m s e).1 fs) := by
      constructor
      · intro h
        refine ⟨h [] List.nil_prefix, fun fs hfs => ?_⟩
        exact h (e :: fs) ((List.prefix_cons_inj e).mpr hfs)
      · rintro ⟨h, hrest⟩ fs hfs
        rcases List.prefix_cons_iff.mp hfs with rfl | ⟨fs', rfl, hfs'⟩
        · exact h
        · exact hrest fs' hfs'
    calc (∀ fs, fs <+: e :: es → I (exec m s fs))
        ↔ I s ∧ I (m s e).1 ∧ Along m D (m s e).1 es := by rw [hsplit, ih hC.2]
      _ ↔ I s ∧ D s e ∧ Along m D (m s e).1 es :=
        and_congr_right fun h => and_congr_left' (hkeep s e hC.1 h)

/-- When each event establishes the property, loses it or leaves it alone, the last word
about it tells whether it holds. -/
theorem settled_iff {W L : σ → ε → Prop} (hstep : ∀ s e, I (m s e).1 ↔ W s e ∨ I s ∧ ¬ L s e)
    (s : σ) (es : List ε) : Settled m W L (I s) s es ↔ I (exec m s es) := by
  induction es generalizing s with
  | nil => exact Iff.rfl
  | cons e es ih =>
    rw [exec_cons, ← ih]
    change Settled m W L (W s e ∨ I s ∧ ¬ L s e) (m s e).1 es ↔ _
    rw [← propext (hstep s e)]

/-- The same on top of an invariant that every delivered event preserves. -/
theorem settled_iff_along {W L : σ → ε → Prop} {J : σ → Prop}
    (hJ : ∀ s e, J s → C s e → J (m s e).1)
    (hstep : ∀ s e, J s → C s e → (I (m s e).1 ↔ W s e ∨ I s ∧ ¬ L s e)) {s : σ} {es : List ε}
    (hs : J s) (hC : Along m C s es) : Settled m W L (I s) s es ↔ I (exec m s es) := by
  induction es generalizing s with
  | nil => exact Iff.rfl
  | cons e es ih =>
    rw [exec_cons, ← ih (hJ s e hs hC.1) hC.2]
    change Settled m W L (W s e ∨ I s ∧ ¬ L s e) (m s e).1 es ↔ _
    rw [← propext (hstep s e hs hC.1)]

/-- The rule for a property that some events establish and some may lose, on top of an
invariant `J` that every delivered event preserves. -/
theorem exec_of_settled_along {W L : σ → ε → Prop} {J : σ → Prop} {s : σ} {es : List ε} {ok : Prop}
    (hstep : ∀ s e, J s → C s e → J (m s e).1) (hW : ∀ s e, J s → C s e → W s e → I (m s e).1)
    (hL : ∀ s e, J s → I s → C s e → ¬ L s e → I (m s e).1) (hs : J s) (hok : ok → I s)
    (hC : Along m C s es) (h : Settled m W L ok s es) : I (exec m s es) := by
  induction es generalizing s ok with
  | nil => exact hok h
  | cons e es ih =>
    apply ih (hstep s e hs hC.1) _ hC.2 h
    rintro (hw | ⟨ho, hl⟩)
    · exact hW s e hs hC.1 hw
    · exact hL s e hs (hok ho) hC.1 hl

theorem exec_of_settled {W L : σ → ε → Prop} {J : σ → Prop} {s : σ} {es : List ε} {ok : Prop}
    (hstep : ∀ s e, J s → J (m s e).1) (hW : ∀ s e, J s → W s e → I (m s e).1)
    (hL : ∀ s e, J s → I s → ¬ L s e → I (m s e).1) (hs : J s) (hok : ok → I s)
    (h : Settled m W L ok s es) : I (exec m s es) :=
  exec_of_settled_along (C := fun _ _ => True) (fun s e hJ _ => hstep s e hJ)
    (fun s e hJ _ => hW s e hJ) (fun s e hJ hI _ => hL s e hJ hI) hs hok
    (along_of_forall (fun _ _ => trivial) s es) h

end rules

end EventMachine
