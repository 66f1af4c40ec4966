import BlizzardBridge.NvsRestore

/-! The network name and the passphrase, each in an array of 32 bytes. Their setters
accept lengths up to 34, and the terminator comes after the last byte copied. -/
namespace BlizzardBridge
open CArray

/-- A call of the setter stores into the byte at index `j`: there is a content of the array
that it changes there. -/
def StoresAt (f : StringVar) (src : Bytes) (length : ℕ) (b : Board) (j : ℕ) : Prop :=
  ∃ a, f.get ({ b with ram := f.set a b.ram }.setString f src length).ram j ≠ a j

/-- The string goes to the array and to NVS. -/
structure StoredAs (f : StringVar) (src : Bytes) (length : ℕ) (b' : Board) : Prop where
  array : cString (f.get b'.ram) f.max = cString src (f.length length)
  content : b'.nvs.content f.key = some (.str (cString src (f.length length)))

/-- The call keeps to its array, leaves a terminated string, and has stored what it was
given or has done nothing. -/
structure Contained (f : StringVar) (src : Bytes) (length : ℕ) (b : Board) : Prop where
  inside : ∀ j, StoresAt f src length b j → j < f.max
  terminated : ∃ j < f.max, f.get (b.setString f src length).ram j = 0
  outcome : StoredAs f src length (b.setString f src length) ∨
    f.get (b.setString f src length).ram = f.get b.ram ∧ (b.setString f src length).nvs = b.nvs

/-- A length that is refused needs a terminator in the array already; one that is accepted
needs a terminator within the array, and NVS to take the string. -/
def Containable (f : StringVar) (src : Bytes) (length : ℕ) (b : Board) : Prop :=
  if f.max + 2 < length then ∃ j < f.max, f.get b.ram j = 0
  else strnlen src (f.length length) < f.max ∧ (b.nvs.faults b.nvs.calls = none ∨
    b.nvs.content f.key = some (.str (cString src (f.length length))))

section string
variable (f : StringVar) (src : Bytes) (length : ℕ) (b : Board)

theorem putStr_above (dst : Bytes) {n j : ℕ} (hj : strnlen src n < j) : putStr dst src n j = dst j := by
  rw [putStr, if_neg (Nat.not_lt.mpr (Nat.le_of_lt hj)), if_neg (Nat.ne_of_gt hj)]

/-- Up to the terminator nothing depends on what the array has held. -/
theorem putStr_below (dst dst' : Bytes) {n j : ℕ} (hj : j ≤ strnlen src n) :
    putStr dst src n j = putStr dst' src n j := by
  rcases Nat.lt_or_eq_of_le hj with hlt | heq
  · rw [putStr, if_pos hlt, putStr, if_pos hlt]
  · rw [putStr, heq, if_neg (lt_irrefl _), if_pos rfl, putStr, if_neg (lt_irrefl _), if_pos rfl]

variable (hget : ∀ a s, f.get (f.set a s) = a)
include hget

theorem setString_array (h : length ≤ f.max + 2) :
    f.get (b.setString f src length).ram = putStr (f.get b.ram) src (f.length length) := by
  rw [Board.setString_eq f src length b h]
  exact hget _ _

theorem storesAt_iff (j : ℕ) :
    StoresAt f src length b j ↔ length ≤ f.max + 2 ∧ j ≤ strnlen src (f.length length) := by
  by_cases h : length ≤ f.max + 2
  · have harray (a : Bytes) :
        f.get ({ b with ram := f.set a b.ram }.setString f src length).ram =
          putStr a src (f.length length) := by
      rw [setString_array f src length { b with ram := f.set a b.ram } hget h, hget]
    constructor
    · rintro ⟨a, hne⟩
      rw [harray] at hne
      refine ⟨h, Nat.not_lt.mp fun hlt => ?_⟩
      exact hne (putStr_above src a hlt)
    · rintro ⟨-, hj⟩
      -- an array that differs from what is stored
      let a : Bytes := fun i => putStr (fun _ => 0) src (f.length length) i + 1
      refine ⟨a, ?_⟩
      rw [harray, putStr_below src a (fun _ => 0) hj]
      change _ ≠ _ + 1
      simp
  · constructor
    · rintro ⟨a, hne⟩
      rw [Board.setString_refuses f src length _ (Nat.not_le.mp h), hget] at hne
      exact absurd rfl hne
    · exact fun hs => absurd hs.1 h

theorem contained_refused_iff (h : f.max + 2 < length) :
    Contained f src length b ↔ ∃ j < f.max, f.get b.ram j = 0 := by
  have hsame := Board.setString_refuses f src length b h
  constructor
  · intro hc
    have hterm := hc.terminated
    rwa [hsame] at hterm
  · intro hterm
    refine ⟨?_, ?_, Or.inr ?_⟩
    · intro j hs
      exact absurd ((storesAt_iff f src length b hget j).mp hs).1 (Nat.not_le.mpr h)
    · rwa [hsame]
    · rw [hsame]
      exact ⟨rfl, rfl⟩

theorem contained_accepted_iff (h : length ≤ f.max + 2) :
    Contained f src length b ↔ strnlen src (f.length length) < f.max ∧
      (b.nvs.faults b.nvs.calls = none ∨
        b.nvs.content f.key = some (.str (cString src (f.length length)))) := by
  have harray := setString_array f src length b hget h
  have heq := Board.setString_eq f src length b h
  have hcontent : (b.setString f src length).nvs.content f.key =
        some (.str (cString src (f.length length))) ↔ b.nvs.faults b.nvs.calls = none ∨
      b.nvs.content f.key = some (.str (cString src (f.length length))) := by
    rw [heq]
    exact Board.updateNvsVal_content_iff f.key _ _
  constructor
  · intro hc
    -- the terminator is written too
    have hlt : strnlen src (f.length length) < f.max :=
      hc.inside _ ((storesAt_iff f src length b hget _).mpr ⟨h, le_rfl⟩)
    refine ⟨hlt, hcontent.mp ?_⟩
    rcases hc.outcome with hstored | ⟨-, hnvs⟩
    · exact hstored.content
    -- an accepted call has called NVS
    · have hcalls : (b.setString f src length).nvs.calls = b.nvs.calls + 2 := by
        rw [heq, Board.updateNvsVal_nvs, NvsStore.updateNvsVal_calls]
      rw [hnvs] at hcalls
      omega
  · rintro ⟨hlt, hnvs⟩
    refine ⟨?_, ?_, Or.inl ⟨?_, hcontent.mpr hnvs⟩⟩
    · intro j hs
      exact Nat.lt_of_le_of_lt ((storesAt_iff f src length b hget j).mp hs).2 hlt
    · refine ⟨strnlen src (f.length length), hlt, ?_⟩
      rw [harray, putStr, if_neg (lt_irrefl _), if_pos rfl]
    · rw [harray]
      apply Subtype.ext
      exact cstr_putStr _ _ hlt

theorem contained_iff : Contained f src length b ↔ Containable f src length b := by
  unfold Containable
  by_cases h : f.max + 2 < length
  · rw [if_pos h]
    exact contained_refused_iff f src length b hget h
  · rw [if_neg h]
    exact contained_accepted_iff f src length b hget (Nat.not_lt.mp h)

end string

/-- Both setters keep to their arrays exactly on strings that leave room for a terminator. -/
theorem credentials_contained_iff (src : Bytes) (length : UInt8) (b : Board) :
    (Contained ssidVar src length.toNat b ↔ Containable ssidVar src length.toNat b) ∧
      (Contained passVar src length.toNat b ↔ Containable passVar src length.toNat b) :=
  ⟨contained_iff ssidVar src _ b fun _ _ => rfl, contained_iff passVar src _ b fun _ _ => rfl⟩

/-- Thirty-two letters without a terminator. -/
theorem credentials_overrun :
    ¬ ∀ (src : Bytes) (length : UInt8) (b : Board), b.nvs.Sound →
      Contained ssidVar src length.toNat b ∧ Contained passVar src length.toNat b := by
  intro hall
  let b := Board.reset (Board.storage fun _ => none) Board.station
  have hc := (hall (fun _ => 97) 32 b fun _ => rfl).1
  have hstores : StoresAt ssidVar (fun _ => 97) 32 b 32 := by
    rw [storesAt_iff ssidVar _ _ b fun _ _ => rfl]
    decide
  exact absurd (hc.inside 32 hstores) (by decide)

end BlizzardBridge
