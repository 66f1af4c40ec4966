import Mathlib.Logic.Function.Basic
import Mathlib.Tactic.Common

/-! Programs that read and change a state, report their accesses in order, and can
crash. A crash ends the program; what it has done before stands. -/
namespace Program

structure Outcome (σ ε α : Type) where
  val : Option α
  state : σ
  log : List ε

def Prog (σ ε α : Type) := σ → Outcome σ ε α

section basic
variable {σ ε α β : Type}

def Outcome.next (o : Outcome σ ε α) (f : α → Prog σ ε β) : Outcome σ ε β :=
  match o.val with
  | none => ⟨none, o.state, o.log⟩
  | some a => ⟨(f a o.state).val, (f a o.state).state, o.log ++ (f a o.state).log⟩

instance : Monad (Prog σ ε) where
  pure a s := ⟨some a, s, []⟩
  bind x f s := (x s).next f

/-- One indivisible step, with what it reports. -/
def step (log : List ε) (f : σ → α × σ) : Prog σ ε α := fun s => ⟨some (f s).1, (f s).2, log⟩

def emit (e : ε) : Prog σ ε Unit := step [e] fun s => ((), s)

def modify (f : σ → σ) : Prog σ ε Unit := step [] fun s => ((), f s)

def get (f : σ → α) : Prog σ ε α := step [] fun s => (f s, s)

def crash : Prog σ ε α := fun s => ⟨none, s, []⟩

-- `for (i = 0; i < n; i++) body(i);` with a variable that the body updates.
def loop (body : ℕ → α → Prog σ ε α) : ℕ → α → Prog σ ε α
  | 0, a => pure a
  | n + 1, a => loop body n a >>= body n

def turns (next : ℕ → α × σ → α × σ) : ℕ → α × σ → α × σ
  | 0, r => r
  | n + 1, r => next n (turns next n r)

/-- From `s` the program ends with the value `a` in the state `s'`. -/
def Ends (x : Prog σ ε α) (s : σ) (a : α) (s' : σ) : Prop := (x s).val = some a ∧ (x s).state = s'

def Logs (P : ε → Prop) (x : Prog σ ε α) (s : σ) : Prop := ∀ e ∈ (x s).log, P e

/-- The program ends, with a value and in a state that meet `Q`. -/
def EndsIn (Q : α → σ → Prop) (x : Prog σ ε α) (s : σ) : Prop := ∃ a s', Ends x s a s' ∧ Q a s'

/-- Even when it crashes, the program leaves a state that meets `Q`. -/
def Leaves (Q : σ → Prop) (x : Prog σ ε α) (s : σ) : Prop := Q (x s).state

/-- An invariant of the program, which a crash does not break either. -/
def Preserves (I : σ → Prop) (x : Prog σ ε α) : Prop := ∀ s, I s → I (x s).state

end basic

section rules
variable {σ ε α β : Type} {P : ε → Prop} {x : Prog σ ε α} {f : α → Prog σ ε β}
  {s s' s'' : σ} {a : α} {b : β}

theorem ends_or_crashes (x : Prog σ ε α) (s : σ) : (x s).val = none ∨ ∃ a, Ends x s a (x s).state := by
  cases hval : (x s).val with
  | none => exact Or.inl rfl
  | some a => exact Or.inr ⟨a, hval, rfl⟩

theorem bind_of_ends (h : Ends x s a s') :
    (x >>= f) s = ⟨(f a s').val, (f a s').state, (x s).log ++ (f a s').log⟩ := by
  obtain ⟨hval, rfl⟩ := h
  change (x s).next f = _
  rw [Outcome.next, hval]

theorem bind_of_crash (h : (x s).val = none) : (x >>= f) s = ⟨none, (x s).state, (x s).log⟩ := by
  change (x s).next f = _
  rw [Outcome.next, h]

/-- When the second part changes nothing, the first part decides. -/
theorem state_bind_left (h : ∀ a s', Ends x s a s' → (f a s').state = s') :
    ((x >>= f) s).state = (x s).state := by
  rcases ends_or_crashes x s with hcrash | ⟨a, ha⟩
  · rw [bind_of_crash hcrash]
  · rw [bind_of_ends ha]
    exact h a _ ha

theorem ends_pure : Ends (pure a : Prog σ ε α) s a s := ⟨rfl, rfl⟩

theorem ends_step {log : List ε} {g : σ → α × σ} : Ends (step log g) s (g s).1 (g s).2 := ⟨rfl, rfl⟩

theorem Ends.bind (h : Ends x s a s') (h' : Ends (f a) s' b s'') : Ends (x >>= f) s b s'' := by
  rw [Ends, bind_of_ends h]
  exact h'

/-- A loop whose body always ends runs through, the value and the state following `next`. -/
theorem ends_loop {body : ℕ → α → Prog σ ε α} {next : ℕ → α × σ → α × σ}
    (hbody : ∀ i a s, Ends (body i a) s (next i (a, s)).1 (next i (a, s)).2) (n : ℕ) :
    Ends (loop body n a) s (turns next n (a, s)).1 (turns next n (a, s)).2 := by
  induction n with
  | zero => exact ends_pure
  | succ n ih => exact ih.bind (hbody n _ _)

theorem logs_pure : Logs P (pure a : Prog σ ε α) s := nofun

theorem logs_crash : Logs P (crash : Prog σ ε α) s := nofun

theorem logs_step {log : List ε} {g : σ → α × σ} : Logs P (step log g) s ↔ ∀ e ∈ log, P e := Iff.rfl

theorem logs_bind_of_ends (h : Ends x s a s') :
    Logs P (x >>= f) s ↔ Logs P x s ∧ Logs P (f a) s' := by
  simp only [Logs, bind_of_ends h, List.forall_mem_append]

theorem logs_bind_of_crash (h : (x s).val = none) : Logs P (x >>= f) s ↔ Logs P x s := by
  simp only [Logs, bind_of_crash h]

theorem log_bind_of_ends (h : Ends x s a s') : ((x >>= f) s).log = (x s).log ++ (f a s').log := by
  rw [bind_of_ends h]

/-- When the second part reports nothing but what meets `P`, the first part decides. -/
theorem logs_bind_left (h : ∀ a s', Ends x s a s' → Logs P (f a) s') :
    Logs P (x >>= f) s ↔ Logs P x s := by
  rcases ends_or_crashes x s with hcrash | ⟨a, ha⟩
  · exact logs_bind_of_crash hcrash
  · rw [logs_bind_of_ends ha]
    exact and_iff_left (h a _ ha)

section primitives
variable {e : ε} {g : σ → α} {h : σ → σ}

@[simp] theorem logs_emit : Logs P (emit e) s ↔ P e := List.forall_mem_singleton

@[simp] theorem logs_emit_bind {f : Unit → Prog σ ε β} :
    Logs P (emit e >>= f) s ↔ P e ∧ Logs P (f ()) s := by
  rw [logs_bind_of_ends (x := emit e) ends_step, logs_emit]

@[simp] theorem logs_silent_bind {g : σ → α × σ} :
    Logs P (step [] g >>= f) s ↔ Logs P (f (g s).1) (g s).2 := by
  rw [logs_bind_of_ends ends_step]
  exact and_iff_right nofun

@[simp] theorem logs_get_bind : Logs P (get g >>= f) s ↔ Logs P (f (g s)) s := logs_silent_bind

@[simp] theorem logs_modify_bind {f : Unit → Prog σ ε β} :
    Logs P (modify h >>= f) s ↔ Logs P (f ()) (h s) := logs_silent_bind

theorem log_step {log : List ε} {g : σ → α × σ} : (step log g s).log = log := rfl

theorem log_emit : (emit e s).log = [e] := rfl

theorem log_emit_bind {f : Unit → Prog σ ε β} :
    ((emit e >>= f) s).log = e :: (f () s).log := rfl

theorem log_get_bind : ((get g >>= f) s).log = (f (g s) s).log := rfl

theorem log_modify_bind {f : Unit → Prog σ ε β} :
    ((modify h >>= f) s).log = (f () (h s)).log := rfl

end primitives

/-- What a loop reports is what its bodies report, one index after the other. -/
theorem logs_loop {body : ℕ → α → Prog σ ε α} {next : ℕ → α × σ → α × σ} {Q : ℕ → Prop}
    (hbody : ∀ i a s, Ends (body i a) s (next i (a, s)).1 (next i (a, s)).2)
    (hlogs : ∀ i a s, Logs P (body i a) s ↔ Q i) (n : ℕ) :
    Logs P (loop body n a) s ↔ ∀ i < n, Q i := by
  induction n with
  | zero => exact ⟨fun _ i hi => absurd hi (Nat.not_lt_zero i), fun _ => logs_pure⟩
  | succ n ih => rw [loop, logs_bind_of_ends (ends_loop hbody n), ih, hlogs, Nat.forall_lt_succ_right]

/-- A program has one outcome. -/
theorem Ends.unique {a' : α} (h : Ends x s a s') (h' : Ends x s a' s'') : a = a' ∧ s' = s'' :=
  ⟨Option.some.inj (h.1.symm.trans h'.1), h.2.symm.trans h'.2⟩

theorem endsIn_of_ends {Q : α → σ → Prop} (h : Ends x s a s') (hQ : Q a s') : EndsIn Q x s :=
  ⟨a, s', h, hQ⟩

theorem EndsIn.and {Q Q' : α → σ → Prop} (h : EndsIn Q x s) (h' : EndsIn Q' x s) :
    EndsIn (fun a s' => Q a s' ∧ Q' a s') x s := by
  obtain ⟨a, s', ha, hQ⟩ := h
  obtain ⟨a', s'', ha', hQ'⟩ := h'
  obtain ⟨rfl, rfl⟩ := ha.unique ha'
  exact ⟨a, s', ha, hQ, hQ'⟩

theorem endsIn_iff_of_ends {Q : α → σ → Prop} (h : Ends x s a s') : EndsIn Q x s ↔ Q a s' := by
  constructor
  · rintro ⟨b, t, hb, hQ⟩
    obtain ⟨rfl, rfl⟩ := h.unique hb
    exact hQ
  · exact endsIn_of_ends h

theorem EndsIn.mono {Q Q' : α → σ → Prop} (h : EndsIn Q x s) (hQ : ∀ a s', Q a s' → Q' a s') :
    EndsIn Q' x s := by
  obtain ⟨a, s', ha, hs⟩ := h
  exact ⟨a, s', ha, hQ a s' hs⟩

theorem endsIn_bind_of_ends {Q : β → σ → Prop} (h : Ends x s a s') (h' : EndsIn Q (f a) s') :
    EndsIn Q (x >>= f) s := by
  obtain ⟨b, s'', hb, hQ⟩ := h'
  exact ⟨b, s'', h.bind hb, hQ⟩

theorem EndsIn.bind {Q : α → σ → Prop} {Q' : β → σ → Prop} (h : EndsIn Q x s)
    (h' : ∀ a s', Q a s' → EndsIn Q' (f a) s') : EndsIn Q' (x >>= f) s := by
  obtain ⟨a, s', ha, hQ⟩ := h
  exact endsIn_bind_of_ends ha (h' a s' hQ)

section leaves
variable {Q : σ → Prop}

theorem leaves_crash : Leaves Q (crash : Prog σ ε α) s ↔ Q s := Iff.rfl

theorem leaves_bind_of_ends (h : Ends x s a s') : Leaves Q (x >>= f) s ↔ Leaves Q (f a) s' := by
  rw [Leaves, bind_of_ends h]
  rfl

@[simp] theorem leaves_step_bind {log : List ε} {g : σ → α × σ} :
    Leaves Q (step log g >>= f) s ↔ Leaves Q (f (g s).1) (g s).2 := leaves_bind_of_ends ends_step

@[simp] theorem leaves_emit_bind {e : ε} {f : Unit → Prog σ ε β} :
    Leaves Q (emit e >>= f) s ↔ Leaves Q (f ()) s := leaves_step_bind

@[simp] theorem leaves_get_bind {g : σ → α} : Leaves Q (get g >>= f) s ↔ Leaves Q (f (g s)) s :=
  leaves_step_bind

@[simp] theorem leaves_modify_bind {h : σ → σ} {f : Unit → Prog σ ε β} :
    Leaves Q (modify h >>= f) s ↔ Leaves Q (f ()) (h s) := leaves_step_bind

@[simp] theorem leaves_emit {e : ε} : Leaves Q (emit e) s ↔ Q s := Iff.rfl

end leaves

section preserves
variable {I : σ → Prop}

theorem preserves_pure : Preserves I (pure a : Prog σ ε α) := fun _ hs => hs

theorem preserves_crash : Preserves I (crash : Prog σ ε α) := fun _ hs => hs

theorem preserves_step {log : List ε} {g : σ → α × σ} (hg : ∀ s, I s → I (g s).2) :
    Preserves I (step log g) := hg

theorem preserves_emit {e : ε} : Preserves I (emit e) := preserves_step fun _ hs => hs

theorem preserves_get {g : σ → α} : Preserves I (get g : Prog σ ε α) := preserves_step fun _ hs => hs

theorem preserves_modify {h : σ → σ} (hh : ∀ s, I s → I (h s)) : Preserves I (modify h : Prog σ ε Unit) :=
  preserves_step hh

theorem Preserves.bind (hx : Preserves I x) (hf : ∀ a, Preserves I (f a)) : Preserves I (x >>= f) := by
  intro s hs
  have hmid : I (x s).state := hx s hs
  rcases ends_or_crashes x s with hcrash | ⟨a, ha⟩
  · rw [bind_of_crash hcrash]
    exact hmid
  · rw [bind_of_ends ha]
    exact hf a _ hmid

end preserves

end rules

end Program
