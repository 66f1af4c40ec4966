import BlizzardBridge.Program
import Mathlib.Order.Bounds.Basic

/-! Loops without a bound of their own. A program with fuel may take that many turns; what it
does with enough fuel is what it does. -/
namespace Program

section basic
variable {σ ε α β : Type}

/-- A loop whose body goes on with its next variables or leaves with a value, given the turns
that it may take; when they run out it has not returned. -/
def whileLoop (body : α → Prog σ ε (α ⊕ β)) : ℕ → α → Prog σ ε β
  | 0, _ => crash
  | fuel + 1, a => body a >>= Sum.elim (whileLoop body fuel) pure

/-- `y` ends wherever `x` does, in the same way. -/
def Extends (x y : Prog σ ε α) : Prop := ∀ s a s', Ends x s a s' → Ends y s a s'

/-- More fuel changes nothing about a run that has ended. -/
def FuelMono (x : ℕ → Prog σ ε α) : Prop := ∀ n m, n ≤ m → Extends (x n) (x m)

/-- The program returns: it ends with enough fuel. -/
def Returns (x : ℕ → Prog σ ε α) (s : σ) (a : α) (s' : σ) : Prop := ∃ fuel, Ends (x fuel) s a s'

end basic

section rules
variable {σ ε α β : Type} {x : Prog σ ε α} {f : α → Prog σ ε β} {s s' s'' : σ} {a : α} {b : β}
  {X : ℕ → Prog σ ε α} {F : ℕ → α → Prog σ ε β} {body : α → Prog σ ε (α ⊕ β)}

theorem ends_pure_iff {a' : α} : Ends (pure a : Prog σ ε α) s a' s' ↔ a' = a ∧ s' = s := by
  constructor
  · intro h
    obtain ⟨ha, hs⟩ := h.unique ends_pure
    exact ⟨ha, hs⟩
  · rintro ⟨rfl, rfl⟩
    exact ends_pure

theorem ends_bind_iff : Ends (x >>= f) s b s'' ↔ ∃ a s', Ends x s a s' ∧ Ends (f a) s' b s'' := by
  constructor
  · intro h
    rcases ends_or_crashes x s with hcrash | ⟨a, ha⟩
    · rw [Ends, bind_of_crash hcrash] at h
      exact absurd h.1 (Option.some_ne_none b).symm
    · rw [Ends, bind_of_ends ha] at h
      exact ⟨a, _, ha, h⟩
  · rintro ⟨a, s', ha, hb⟩
    exact ha.bind hb

theorem not_ends_crash : ¬ Ends (crash : Prog σ ε α) s a s' := fun h => Option.some_ne_none a h.1.symm

theorem Extends.bind {y : Prog σ ε α} {g : α → Prog σ ε β} (hx : Extends x y)
    (hf : ∀ a, Extends (f a) (g a)) : Extends (x >>= f) (y >>= g) := by
  intro s b s'' h
  obtain ⟨a, s', ha, hb⟩ := ends_bind_iff.mp h
  exact (hx s a s' ha).bind (hf a s' b s'' hb)

theorem fuelMono_const : FuelMono (fun _ => x) := fun _ _ _ _ _ _ h => h

theorem FuelMono.bind (hx : FuelMono X) (hf : ∀ a, FuelMono fun n => F n a) :
    FuelMono fun n => X n >>= F n :=
  fun n m hnm => (hx n m hnm).bind fun a => hf a n m hnm

theorem FuelMono.ite {Y : ℕ → Prog σ ε α} {c : Prop} [Decidable c] (hx : FuelMono X) (hy : FuelMono Y) :
    FuelMono fun n => if c then X n else Y n := by
  by_cases hc : c
  · simp only [if_pos hc]
    exact hx
  · simp only [if_neg hc]
    exact hy

theorem fuelMono_whileLoop (body : α → Prog σ ε (α ⊕ β)) (a : α) :
    FuelMono fun n => whileLoop body n a := by
  intro n
  induction n generalizing a with
  | zero => exact fun _ _ _ _ _ h => absurd h not_ends_crash
  | succ n ih =>
    intro m hnm
    obtain ⟨m, rfl⟩ := Nat.exists_eq_add_of_lt hnm
    apply Extends.bind (fun _ _ _ h => h)
    intro r
    cases r with
    | inl a' => exact ih a' (n + m) (Nat.le_add_right n m)
    | inr b => exact fun _ _ _ h => h

theorem returns_const_iff : Returns (fun _ => x) s a s' ↔ Ends x s a s' :=
  ⟨fun ⟨_, h⟩ => h, fun h => ⟨0, h⟩⟩

theorem returns_bind_iff (hx : FuelMono X) (hf : ∀ a, FuelMono fun n => F n a) :
    Returns (fun n => X n >>= F n) s b s'' ↔
      ∃ a s', Returns X s a s' ∧ Returns (fun n => F n a) s' b s'' := by
  constructor
  · rintro ⟨n, h⟩
    obtain ⟨a, s', ha, hb⟩ := ends_bind_iff.mp h
    exact ⟨a, s', ⟨n, ha⟩, n, hb⟩
  · rintro ⟨a, s', ⟨n, ha⟩, m, hb⟩
    exact ⟨n + m, (hx n (n + m) (Nat.le_add_right n m) _ _ _ ha).bind
      (hf a m (n + m) (Nat.le_add_left m n) _ _ _ hb)⟩

/-- A part that needs no fuel and ends. -/
theorem returns_bind_of_ends (h : Ends x s a s') :
    Returns (fun n => x >>= F n) s b s'' ↔ Returns (fun n => F n a) s' b s'' := by
  have hrun (n : ℕ) : Ends (x >>= F n) s b s'' ↔ Ends (F n a) s' b s'' := by
    rw [Ends, bind_of_ends h]
    rfl
  exact exists_congr hrun

/-- The first turn, and what is left after it. -/
theorem returns_whileLoop_turn {r : α ⊕ β} (h : Ends (body a) s r s') :
    Returns (fun n => whileLoop body n a) s b s'' ↔
      Returns (fun n => Sum.elim (whileLoop body n) pure r) s' b s'' := by
  constructor
  · rintro ⟨n, hn⟩
    cases n with
    | zero => exact absurd hn not_ends_crash
    | succ n =>
      obtain ⟨r', t, hr, ht⟩ := ends_bind_iff.mp hn
      obtain ⟨rfl, rfl⟩ := hr.unique h
      exact ⟨n, ht⟩
  · rintro ⟨n, hn⟩
    exact ⟨n + 1, h.bind hn⟩

theorem returns_whileLoop_next {a' : α} (h : Ends (body a) s (Sum.inl a') s') :
    Returns (fun n => whileLoop body n a) s b s'' ↔ Returns (fun n => whileLoop body n a') s' b s'' :=
  returns_whileLoop_turn h

theorem returns_whileLoop_done {b' : β} (h : Ends (body a) s (Sum.inr b') s') :
    Returns (fun n => whileLoop body n a) s b s'' ↔ b = b' ∧ s'' = s' := by
  apply (returns_whileLoop_turn h).trans
  apply returns_const_iff.trans
  exact ends_pure_iff

/-- What every turn reports in a state that meets the invariant, the loop reports, with any fuel. -/
theorem logs_whileLoop {P : ε → Prop} {I : α → σ → Prop} (hlogs : ∀ a s, I a s → Logs P (body a) s)
    (hnext : ∀ a s a' s', I a s → Ends (body a) s (Sum.inl a') s' → I a' s') (n : ℕ) (h : I a s) :
    Logs P (whileLoop body n a) s := by
  induction n generalizing a s with
  | zero => exact logs_crash
  | succ n ih =>
    apply (logs_bind_left _).mpr (hlogs a s h)
    intro r s' hr
    cases r with
    | inl a' => exact ih (hnext a s a' s' h hr)
    | inr b => exact logs_pure

/-- A loop that leaves at the turn `n`. -/
theorem returns_count {c : ℕ → α} {S : ℕ → σ} {B : σ} {n : ℕ}
    (next : ∀ i < n, Ends (body (c i)) (S i) (Sum.inl (c (i + 1))) (S (i + 1)))
    (out : Ends (body (c n)) (S n) (Sum.inr b) B) :
    Returns (fun k => whileLoop body k (c 0)) (S 0) b B := by
  have hfrom : ∀ left i, i + left = n → Returns (fun k => whileLoop body k (c i)) (S i) b B := by
    intro left
    induction left with
    | zero =>
      intro i hi
      obtain rfl : i = n := hi
      exact (returns_whileLoop_done out).mpr ⟨rfl, rfl⟩
    | succ left ih =>
      intro i hi
      apply (returns_whileLoop_next (next i (by omega))).mpr
      exact ih (i + 1) (by omega)
  exact hfrom n 0 (Nat.zero_add n)

section search
variable {P : ℕ → Prop} {c : ℕ → α} {S A : ℕ → σ} {b₁ b₂ : β} {B : σ} {last : ℕ}

theorem isLeast_of_missed {i : ℕ} (hmissed : ∀ j < i, ¬ P j) (hP : P i) : IsLeast {i | P i} i :=
  ⟨hP, fun j hj => Nat.le_of_not_lt fun hlt => hmissed j hlt hj⟩

theorem missed_succ {i : ℕ} (hmissed : ∀ j < i, ¬ P j) (hP : ¬ P i) : ∀ j < i + 1, ¬ P j := by
  intro j hj
  rcases Nat.lt_succ_iff_lt_or_eq.mp hj with hlt | rfl
  · exact hmissed j hlt
  · exact hP

/-- A loop that looks for the first turn that meets `P`, and gives up after the turn `last`. -/
theorem returns_search (hit : ∀ i, P i → Ends (body (c i)) (S i) (Sum.inr b₁) (A i))
    (miss : ∀ i < last, ¬ P i → Ends (body (c i)) (S i) (Sum.inl (c (i + 1))) (S (i + 1)))
    (out : ¬ P last → Ends (body (c last)) (S last) (Sum.inr b₂) B) :
    Returns (fun n => whileLoop body n (c 0)) (S 0) b s' ↔
      (∃ i ≤ last, IsLeast {i | P i} i ∧ b = b₁ ∧ s' = A i) ∨
        (∀ i ≤ last, ¬ P i) ∧ b = b₂ ∧ s' = B := by
  have hhit : ∀ i ≤ last, (∀ j < i, ¬ P j) → P i →
      (Returns (fun n => whileLoop body n (c i)) (S i) b s' ↔
        (∃ i ≤ last, IsLeast {i | P i} i ∧ b = b₁ ∧ s' = A i) ∨
          (∀ i ≤ last, ¬ P i) ∧ b = b₂ ∧ s' = B) := by
    intro i hi hmissed hP
    have hleast := isLeast_of_missed hmissed hP
    rw [returns_whileLoop_done (hit i hP)]
    constructor
    · exact fun h => Or.inl ⟨i, hi, hleast, h⟩
    · rintro (⟨j, _, hj, h⟩ | ⟨hnone, _⟩)
      · exact hleast.unique hj ▸ h
      · exact absurd hP (hnone i hi)
  -- The induction is on the turns that are left; those before `i` have missed.
  have hfrom : ∀ left i, i + left = last → (∀ j < i, ¬ P j) →
      (Returns (fun n => whileLoop body n (c i)) (S i) b s' ↔
        (∃ i ≤ last, IsLeast {i | P i} i ∧ b = b₁ ∧ s' = A i) ∨
          (∀ i ≤ last, ¬ P i) ∧ b = b₂ ∧ s' = B) := by
    intro left
    induction left with
    | zero =>
      intro i hi hmissed
      obtain rfl : i = last := hi
      by_cases hP : P i
      · exact hhit i (le_refl i) hmissed hP
      · have hnone : ∀ j ≤ i, ¬ P j :=
          fun j hj => missed_succ hmissed hP j (Nat.lt_succ_of_le hj)
        rw [returns_whileLoop_done (out hP)]
        constructor
        · exact fun h => Or.inr ⟨hnone, h⟩
        · rintro (⟨j, hj, hleast, _⟩ | ⟨_, h⟩)
          · exact absurd hleast.1 (hnone j hj)
          · exact h
    | succ left ih =>
      intro i hi hmissed
      by_cases hP : P i
      · exact hhit i (by omega) hmissed hP
      · rw [returns_whileLoop_next (miss i (by omega) hP)]
        exact ih (i + 1) (by omega) (missed_succ hmissed hP)
  exact hfrom last 0 (Nat.zero_add last) fun j hj => absurd hj (Nat.not_lt_zero j)

/-- A loop that looks for such a turn without end returns only when there is one. -/
theorem returns_search_forever (hit : ∀ i, P i → Ends (body (c i)) (S i) (Sum.inr b₁) (A i))
    (miss : ∀ i, ¬ P i → Ends (body (c i)) (S i) (Sum.inl (c (i + 1))) (S (i + 1))) :
    Returns (fun n => whileLoop body n (c 0)) (S 0) b s' ↔
      ∃ i, IsLeast {i | P i} i ∧ b = b₁ ∧ s' = A i := by
  constructor
  · have hfrom : ∀ n i, (∀ j < i, ¬ P j) → Ends (whileLoop body n (c i)) (S i) b s' →
        ∃ i, IsLeast {i | P i} i ∧ b = b₁ ∧ s' = A i := by
      intro n
      induction n with
      | zero => exact fun i _ h => absurd h not_ends_crash
      | succ n ih =>
        intro i hmissed h
        by_cases hP : P i
        · exact ⟨i, isLeast_of_missed hmissed hP, (returns_whileLoop_done (hit i hP)).mp ⟨n + 1, h⟩⟩
        · obtain ⟨r, t, hr, ht⟩ := ends_bind_iff.mp h
          obtain ⟨rfl, rfl⟩ := hr.unique (miss i hP)
          exact ih (i + 1) (missed_succ hmissed hP) ht
    rintro ⟨n, h⟩
    exact hfrom n 0 (fun j hj => absurd hj (Nat.not_lt_zero j)) h
  · rintro ⟨i, hleast, rfl, rfl⟩
    have hfrom : ∀ left j, j + left = i → Returns (fun n => whileLoop body n (c j)) (S j) b (A i) := by
      intro left
      induction left with
      | zero =>
        intro j hj
        obtain rfl : j = i := hj
        exact (returns_whileLoop_done (hit j hleast.1)).mpr ⟨rfl, rfl⟩
      | succ left ih =>
        intro j hj
        have hmiss : ¬ P j := fun hP => absurd (hleast.2 hP) (by omega)
        exact (returns_whileLoop_next (miss j hmiss)).mpr (ih (j + 1) (by omega))
    exact hfrom i 0 (Nat.zero_add i)

end search

end rules

end Program
