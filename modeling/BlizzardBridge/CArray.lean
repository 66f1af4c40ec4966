import Mathlib.Algebra.GroupWithZero.Nat
import Mathlib.Data.List.Basic
import Mathlib.Logic.Function.Basic
import Mathlib.Data.Nat.Basic
import Mathlib.Tactic.Common

/-! Byte arrays as C sees them through a base pointer. An array is the whole
memory from its base on, so an index past the declared size is still a place
that can be read or written, and what a loop touches there stays visible. -/
namespace CArray

abbrev Bytes := ℕ → UInt8

theorem eq_of_bits {a b : UInt8} (h : ∀ i (hi : i < 8), a.toBitVec[i] = b.toBitVec[i]) : a = b :=
  UInt8.toBitVec_inj.mp (BitVec.eq_of_getElem_eq h)

-- `for (k = 0; k < n; k++) dst[off + k] = src[k];`
def copyLoop (dst : Bytes) (off : ℕ) (src : Bytes) : ℕ → Bytes
  | 0 => dst
  | n + 1 => Function.update (copyLoop dst off src n) (off + n) (src n)

theorem copyLoop_apply (dst : Bytes) (off : ℕ) (src : Bytes) (n j : ℕ) :
    copyLoop dst off src n j = if off ≤ j ∧ j < off + n then src (j - off) else dst j := by
  induction n with
  | zero => rw [copyLoop, if_neg (by omega)]
  | succ n ih =>
    rw [copyLoop, Function.update_apply, ih]
    by_cases hj : j = off + n
    · rw [if_pos hj, if_pos (by omega), hj, Nat.add_sub_cancel_left]
    · rw [if_neg hj]
      exact if_congr (by omega) rfl rfl

-- `a[n - 1] = src[n - 1]; .. a[0] = src[0];`
def copyDown (a src : Bytes) : ℕ → Bytes
  | 0 => a
  | n + 1 => copyDown (Function.update a n (src n)) src n

theorem copyDown_apply (a src : Bytes) (n j : ℕ) :
    copyDown a src n j = if j < n then src j else a j := by
  induction n generalizing a with
  | zero => rw [copyDown, if_neg (Nat.not_lt_zero j)]
  | succ n ih =>
    rw [copyDown, ih, Function.update_apply]
    by_cases hj : j = n
    · rw [if_neg (by omega), if_pos hj, if_pos (by omega), hj]
    · rw [if_neg hj]
      exact if_congr (by omega) rfl rfl

def store (a : Bytes) (i : ℕ) (xs : List UInt8) : Bytes :=
  fun j => if i ≤ j then (xs[j - i]?).getD (a j) else a j

theorem store_before (a : Bytes) (xs : List UInt8) {i j : ℕ} (h : j < i) : store a i xs j = a j := by
  rw [store, if_neg (Nat.not_le.mpr h)]

theorem store_after (a : Bytes) {xs : List UInt8} {i j : ℕ} (h : i + xs.length ≤ j) :
    store a i xs j = a j := by
  rw [store, if_pos (by omega), List.getElem?_eq_none (by omega), Option.getD_none]

/-- What is stored does not depend on what was there. -/
theorem store_inside (a b : Bytes) {xs : List UInt8} {i j : ℕ} (hi : i ≤ j) (hj : j < i + xs.length) :
    store a i xs j = store b i xs j := by
  have hget : j - i < xs.length := by omega
  simp only [store, if_pos hi, List.getElem?_eq_getElem hget, Option.getD_some]

@[simp] theorem store_nil (a : Bytes) (i : ℕ) : store a i [] = a := by
  funext j
  simp only [store, List.getElem?_nil, Option.getD_none, ite_self]

theorem store_cons (a : Bytes) (i : ℕ) (x : UInt8) (xs : List UInt8) :
    store a i (x :: xs) = store (Function.update a i x) (i + 1) xs := by
  funext j
  simp only [store, Function.update_apply]
  rcases lt_trichotomy j i with h | h | h
  · rw [if_neg (by omega), if_neg (by omega), if_neg (by omega)]
  · subst h
    rw [if_pos le_rfl, if_neg (by omega), if_pos rfl, Nat.sub_self, List.getElem?_cons_zero,
      Option.getD_some]
  · have hsub : j - i = j - (i + 1) + 1 := by omega
    rw [if_pos (by omega), if_pos (by omega), if_neg (by omega), hsub, List.getElem?_cons_succ]

theorem store_append (a : Bytes) (i : ℕ) (xs ys : List UInt8) :
    store a i (xs ++ ys) = store (store a i xs) (i + xs.length) ys := by
  induction xs generalizing a i with
  | nil => rw [List.nil_append, store_nil, List.length_nil, Nat.add_zero]
  | cons x xs ih =>
    rw [List.cons_append, store_cons, store_cons, ih, List.length_cons, Nat.add_assoc,
      Nat.add_comm 1 xs.length]

theorem store_of_lt (a : Bytes) (xs : List UInt8) {j : ℕ} (hj : j < xs.length) :
    store a 0 xs j = xs[j] := by
  simp only [store, Nat.zero_le, if_true, Nat.sub_zero, List.getElem?_eq_getElem hj, Option.getD_some]

theorem store_of_ge (a : Bytes) (xs : List UInt8) {j : ℕ} (hj : xs.length ≤ j) :
    store a 0 xs j = a j := by
  simp only [store, Nat.zero_le, if_true, Nat.sub_zero, List.getElem?_eq_none hj, Option.getD_none]

def take (a : Bytes) (n : ℕ) : List UInt8 := (List.range n).map a

@[simp] theorem length_take (a : Bytes) (n : ℕ) : (take a n).length = n := by
  simp only [take, List.length_map, List.length_range]

theorem getElem?_take (a : Bytes) {n i : ℕ} (hi : i < n) : (take a n)[i]? = some (a i) := by
  rw [take, List.getElem?_map, List.getElem?_range hi, Option.map_some]

/-- Equal prefixes have the same length and the same bytes. -/
theorem eq_of_take_eq {a b : Bytes} {m n : ℕ} (h : take a m = take b n) : ∀ i < n, a i = b i := by
  have hlen : m = n := by
    have hlength := congrArg List.length h
    rwa [length_take, length_take] at hlength
  intro i hi
  have hget : (take a m)[i]? = (take b n)[i]? := congrArg (fun xs => xs[i]?) h
  rw [getElem?_take a (hlen ▸ hi), getElem?_take b hi] at hget
  exact Option.some.inj hget

theorem take_congr {a b : Bytes} {n : ℕ} (h : ∀ i < n, a i = b i) : take a n = take b n :=
  List.map_congr_left fun i hi => h i (List.mem_range.mp hi)

theorem take_store (a : Bytes) (xs : List UInt8) : take (store a 0 xs) xs.length = xs := by
  apply List.ext_getElem (by simp)
  intro i h1 h2
  simp only [take, List.getElem_map, List.getElem_range]
  exact store_of_lt a xs h2

theorem store_take (a src : Bytes) (i : ℕ) {n j : ℕ} (hj : j < n) :
    store a i (take src n) (i + j) = src j := by
  rw [store, if_pos (Nat.le_add_right i j), Nat.add_sub_cancel_left, getElem?_take src hj,
    Option.getD_some]

theorem take_store_at (a : Bytes) (i : ℕ) (xs : List UInt8) :
    take (fun k => store a i xs (i + k)) xs.length = xs := by
  have hshift : (fun k => store a i xs (i + k)) = store (fun k => a (i + k)) 0 xs := by
    funext k
    simp only [store, Nat.le_add_right, Nat.zero_le, if_true, Nat.add_sub_cancel_left, Nat.sub_zero]
  rw [hshift, take_store]

def strnlen (a : Bytes) : ℕ → ℕ
  | 0 => 0
  | n + 1 => if a 0 = 0 then 0 else strnlen (fun i => a (i + 1)) n + 1

theorem strnlen_le (a : Bytes) (n : ℕ) : strnlen a n ≤ n := by
  induction n generalizing a with
  | zero => exact le_rfl
  | succ n ih =>
    rw [strnlen]
    split
    · omega
    · exact Nat.succ_le_succ (ih _)

/-- The length is fixed by the bytes before it and the terminator or bound at it. -/
theorem strnlen_eq {a : Bytes} {n l : ℕ} (hne : ∀ i < l, a i ≠ 0)
    (hend : l = n ∨ (l < n ∧ a l = 0)) : strnlen a n = l := by
  induction n generalizing a l with
  | zero => rw [strnlen]; omega
  | succ n ih =>
    cases l with
    | zero =>
      rcases hend with h | ⟨_, h⟩
      · omega
      · rw [strnlen, if_pos h]
    | succ l =>
      rw [strnlen, if_neg (hne 0 (Nat.succ_pos l)),
        ih (l := l) (fun i hi => hne (i + 1) (by omega))
          (hend.imp (by omega) fun h => ⟨by omega, h.2⟩)]

theorem strnlen_end {a : Bytes} {n : ℕ} (h : strnlen a n < n) : a (strnlen a n) = 0 := by
  induction n generalizing a with
  | zero => exact absurd h (Nat.not_lt_zero _)
  | succ n ih =>
    rw [strnlen] at h ⊢
    split at h
    · next h0 => rwa [if_pos h0]
    · next h0 =>
      rw [if_neg h0]
      exact ih (Nat.lt_of_succ_lt_succ h)

theorem ne_zero_of_lt_strnlen {a : Bytes} {n i : ℕ} (h : i < strnlen a n) : a i ≠ 0 := by
  induction n generalizing a i with
  | zero => rw [strnlen] at h; omega
  | succ n ih =>
    rw [strnlen] at h
    split at h
    · omega
    · next h0 =>
      cases i with
      | zero => exact h0
      | succ i => exact ih (a := fun i => a (i + 1)) (Nat.lt_of_succ_lt_succ h)

-- `for (i = 0; i < n; i++) sum += a[i];`
def sumLoop (a : Bytes) : ℕ → UInt16
  | 0 => 0
  | n + 1 => sumLoop a n + (a n).toUInt16

def byteSum (a : Bytes) (n : ℕ) : ℕ := ((take a n).map UInt8.toNat).sum

theorem byteSum_succ (a : Bytes) (n : ℕ) : byteSum a (n + 1) = byteSum a n + (a n).toNat := by
  simp only [byteSum, take, List.range_succ, List.map_append, List.map_singleton, List.sum_append_nat,
    List.sum_singleton]

theorem byteSum_le (a : Bytes) (n : ℕ) : byteSum a n ≤ 255 * n := by
  induction n with
  | zero => exact le_rfl
  | succ n ih =>
    have hbyte := (a n).toNat_lt
    rw [byteSum_succ]
    omega

theorem byteSum_congr {a b : Bytes} {n : ℕ} (h : ∀ i < n, a i = b i) : byteSum a n = byteSum b n := by
  rw [byteSum, take_congr h, byteSum]

theorem byteSum_add (a : Bytes) (m n : ℕ) :
    byteSum a (m + n) = byteSum a m + byteSum (fun i => a (m + i)) n := by
  induction n with
  | zero => rfl
  | succ n ih =>
    calc byteSum a (m + (n + 1))
        = byteSum a (m + n) + (a (m + n)).toNat := byteSum_succ a (m + n)
      _ = byteSum a m + (byteSum (fun i => a (m + i)) n + (a (m + n)).toNat) := by
        rw [ih, Nat.add_assoc]
      _ = byteSum a m + byteSum (fun i => a (m + i)) (n + 1) := by rw [byteSum_succ]

/-- The sum in a `uint16_t` is the sum of the bytes modulo 2^16. -/
theorem toNat_sumLoop (a : Bytes) (n : ℕ) : (sumLoop a n).toNat = byteSum a n % 65536 := by
  induction n with
  | zero => rfl
  | succ n ih =>
    calc (sumLoop a (n + 1)).toNat
        = ((sumLoop a n).toNat + (a n).toNat) % 65536 := UInt16.toNat_add _ _
      _ = (byteSum a n + (a n).toNat) % 65536 := by rw [ih, Nat.mod_add_mod]
      _ = byteSum a (n + 1) % 65536 := by rw [byteSum_succ]

/-- A smaller bound cuts the length. -/
theorem strnlen_min (a : Bytes) {m n : ℕ} (h : m ≤ n) : strnlen a m = min m (strnlen a n) := by
  apply strnlen_eq
  · intro i hi
    exact ne_zero_of_lt_strnlen (Nat.lt_of_lt_of_le hi (Nat.min_le_right _ _))
  · rcases Nat.lt_or_ge (strnlen a n) m with hlt | hge
    · refine Or.inr ⟨Nat.lt_of_le_of_lt (Nat.min_le_right _ _) hlt, ?_⟩
      rw [Nat.min_eq_right (Nat.le_of_lt hlt)]
      exact strnlen_end (Nat.lt_of_lt_of_le hlt h)
    · exact Or.inl (Nat.min_eq_left hge)

/-- The string held by an array of which at most `n` bytes are looked at. -/
def cstr (a : Bytes) (n : ℕ) : List UInt8 := take a (strnlen a n)

theorem zero_notMem_cstr (a : Bytes) (n : ℕ) : 0 ∉ cstr a n := by
  intro h
  obtain ⟨i, hi, h0⟩ := List.mem_map.mp h
  exact ne_zero_of_lt_strnlen (List.mem_range.mp hi) h0

theorem cstr_succ (a : Bytes) (n : ℕ) :
    cstr a (n + 1) = if a 0 = 0 then [] else a 0 :: cstr (fun i => a (i + 1)) n := by
  unfold cstr
  rw [strnlen]
  split
  · rfl
  · rw [take, List.range_succ_eq_map, List.map_cons, List.map_map]
    rfl

/-- What a NUL-terminated string can hold. -/
abbrev CString := { s : List UInt8 // 0 ∉ s }

def cString (a : Bytes) (n : ℕ) : CString := ⟨cstr a n, zero_notMem_cstr a n⟩

def ascii (cs : List Char) : List UInt8 := cs.map fun c => UInt8.ofNat c.toNat

theorem strnlen_store_nul (a : Bytes) {s : List UInt8} (hs : 0 ∉ s) {n : ℕ} (hn : s.length ≤ n) :
    strnlen (store a 0 (s ++ [0])) n = s.length := by
  apply strnlen_eq
  · intro i hi h0
    rw [store_of_lt a _ (by simp; omega), List.getElem_append_left hi] at h0
    exact hs (h0 ▸ List.getElem_mem hi)
  · rcases Nat.eq_or_lt_of_le hn with h | h
    · exact Or.inl h
    · refine Or.inr ⟨h, ?_⟩
      rw [store_of_lt a _ (by simp), List.getElem_append_right le_rfl]
      simp

theorem cstr_store_nul (a : Bytes) {s : List UInt8} (hs : 0 ∉ s) {n : ℕ} (hn : s.length ≤ n) :
    cstr (store a 0 (s ++ [0])) n = s := by
  rw [cstr, strnlen_store_nul a hs hn]
  conv_rhs => rw [← take_store a s]
  apply take_congr
  intro i hi
  rw [store_of_lt a _ (by simp; omega), store_of_lt a _ hi, List.getElem_append_left hi]

/-- The bytes from `i` on begin with those of a list. -/
def Holds (a : Bytes) : ℕ → List UInt8 → Prop
  | _, [] => True
  | i, x :: xs => a i = x ∧ Holds a (i + 1) xs

theorem holds_append {a : Bytes} {i : ℕ} {xs ys : List UInt8} :
    Holds a i (xs ++ ys) ↔ Holds a i xs ∧ Holds a (i + xs.length) ys := by
  induction xs generalizing i with
  | nil => exact (and_iff_right trivial).symm
  | cons x xs ih =>
    have hshift : i + 1 + xs.length = i + (x :: xs).length := by
      rw [List.length_cons]
      omega
    rw [List.cons_append, Holds, Holds, ih, and_assoc, hshift]

/-- Only the bytes that the list covers matter. -/
theorem Holds.congr {a b : Bytes} {i : ℕ} {xs : List UInt8} (h : Holds a i xs)
    (hab : ∀ j, i ≤ j → j < i + xs.length → b j = a j) : Holds b i xs := by
  induction xs generalizing i with
  | nil => trivial
  | cons x xs ih =>
    rw [List.length_cons] at hab
    refine ⟨(hab i le_rfl (by omega)).trans h.1, ih h.2 ?_⟩
    intro j hj hlt
    exact hab j (by omega) (by omega)

theorem Holds.update_of_lt {a : Bytes} {i j : ℕ} {xs : List UInt8} (h : Holds a i xs) (hj : j < i)
    (x : UInt8) : Holds (Function.update a j x) i xs := by
  apply h.congr
  intro k hk _
  exact Function.update_of_ne (by omega) _ _

theorem Holds.update_of_ge {a : Bytes} {i j : ℕ} {xs : List UInt8} (h : Holds a i xs)
    (hj : i + xs.length ≤ j) (x : UInt8) : Holds (Function.update a j x) i xs := by
  apply h.congr
  intro k _ hk
  exact Function.update_of_ne (by omega) _ _

/-- A zero behind a part makes a string of it. -/
theorem Holds.terminated {a : Bytes} {i : ℕ} {p : List UInt8} {x : UInt8} (h : Holds a i (p ++ [x])) :
    Holds (Function.update a (i + p.length) 0) i (p ++ [0]) := by
  obtain ⟨hp, _⟩ := holds_append.mp h
  apply holds_append.mpr
  exact ⟨hp.update_of_ge le_rfl 0, Function.update_self _ _ _, trivial⟩

theorem cstr_of_holds {a : Bytes} {i n : ℕ} {s : List UInt8} (hs : 0 ∉ s) (h : Holds a i (s ++ [0]))
    (hn : s.length < n) : cstr (fun k => a (i + k)) n = s := by
  induction s generalizing a i n with
  | nil =>
    obtain ⟨n, rfl⟩ : ∃ m, n = m + 1 := ⟨n - 1, by omega⟩
    have hend : a (i + 0) = 0 := h.1
    rw [cstr_succ, if_pos hend]
  | cons x xs ih =>
    obtain ⟨n, rfl⟩ : ∃ m, n = m + 1 := ⟨n - 1, by omega⟩
    obtain ⟨hx, hxs⟩ := not_or.mp (mt List.mem_cons.mpr hs)
    have hhead : a (i + 0) = x := h.1
    have hne : a (i + 0) ≠ 0 := fun h0 => hx (h0.symm.trans hhead)
    have hrest : (fun k => a (i + (k + 1))) = fun k => a (i + 1 + k) := by
      funext k
      congr 1
      omega
    rw [cstr_succ, if_neg hne, hrest, hhead, ih hxs h.2 (Nat.lt_of_succ_lt_succ hn)]

/-- `dst` after the string at `src`, cut at `n` bytes, and its terminator are written. -/
def putStr (dst src : Bytes) (n : ℕ) : Bytes :=
  fun j => if j < strnlen src n then src j else if j = strnlen src n then 0 else dst j

theorem cstr_putStr (dst src : Bytes) {n m : ℕ} (h : strnlen src n < m) :
    cstr (putStr dst src n) m = cstr src n := by
  have hlen : strnlen (putStr dst src n) m = strnlen src n := by
    apply strnlen_eq
    · intro i hi
      rw [putStr, if_pos hi]
      exact ne_zero_of_lt_strnlen hi
    · refine Or.inr ⟨h, ?_⟩
      rw [putStr, if_neg (lt_irrefl _), if_pos rfl]
  rw [cstr, hlen]
  apply take_congr
  intro i hi
  rw [putStr, if_pos hi]

/-- `for (; i < n; i++) { if (src[i] == '\0') break; dst[i] = src[i]; }`, with
`k = n - i` turns left: the index at which the loop stops, and the array. -/
def copyTest (src : Bytes) : (k i : ℕ) → Bytes → ℕ × Bytes
  | 0, i, dst => (i, dst)
  | k + 1, i, dst =>
    if src i = 0 then (i, dst) else copyTest src k (i + 1) (Function.update dst i (src i))

/-- The same loop with the store before the test, so that the terminator is copied. -/
def copyWrite (src : Bytes) : (k i : ℕ) → Bytes → ℕ × Bytes
  | 0, i, dst => (i, dst)
  | k + 1, i, dst =>
    let dst := Function.update dst i (src i)
    if src i = 0 then (i, dst) else copyWrite src k (i + 1) dst

-- `dst[i] = '\0';` after one of the loops.
def terminate (r : ℕ × Bytes) : Bytes := Function.update r.2 r.1 0

/-- The loop from `i` on stops behind the string there, and has copied it. -/
theorem copyTest_from (src : Bytes) (k i : ℕ) (dst : Bytes) :
    copyTest src k i dst = (i + strnlen (fun m => src (i + m)) k, fun j =>
      if i ≤ j ∧ j < i + strnlen (fun m => src (i + m)) k then src j else dst j) := by
  induction k generalizing i dst with
  | zero =>
    rw [copyTest, strnlen, Nat.add_zero]
    congr 1
    funext j
    rw [if_neg (by omega)]
  | succ k ih =>
    by_cases h0 : src i = 0
    · have hstop : strnlen (fun m => src (i + m)) (k + 1) = 0 := if_pos h0
      rw [copyTest, if_pos h0, hstop, Nat.add_zero]
      congr 1
      funext j
      rw [if_neg (by omega)]
    · have hshift : (fun m => src (i + (m + 1))) = fun m => src (i + 1 + m) := by
        funext m
        congr 1
        omega
      have hnext : strnlen (fun m => src (i + m)) (k + 1) =
          strnlen (fun m => src (i + 1 + m)) k + 1 := by
        rw [strnlen, if_neg (show ¬ src (i + 0) = 0 from h0), hshift]
      have hlast : i + (strnlen (fun m => src (i + 1 + m)) k + 1) =
          i + 1 + strnlen (fun m => src (i + 1 + m)) k := by omega
      rw [copyTest, if_neg h0, ih, hnext, hlast]
      congr 1
      funext j
      rw [Function.update_apply]
      -- the byte that this turn copies, and the others
      by_cases hj : j = i
      · rw [if_neg (by omega), if_pos hj, if_pos (by omega), hj]
      · rw [if_neg hj]
        exact if_congr (by omega) rfl rfl

theorem copyTest_zero_apply (src : Bytes) (n : ℕ) (dst : Bytes) (j : ℕ) :
    (copyTest src n 0 dst).2 j = if j < strnlen src n then src j else dst j := by
  simp only [copyTest_from, Nat.zero_add, Nat.zero_le, true_and]

theorem terminate_copyTest (src : Bytes) (n : ℕ) (dst : Bytes) :
    terminate (copyTest src n 0 dst) = putStr dst src n := by
  rw [copyTest_from]
  funext j
  simp only [terminate, putStr, Function.update_apply, Nat.zero_add, Nat.zero_le, true_and]
  by_cases hj : j = strnlen src n
  · rw [if_pos hj, if_neg (by omega), if_pos hj]
  · rw [if_neg hj, if_neg hj]

/-- The copied terminator is overwritten, so the order of store and test is immaterial. -/
theorem terminate_copyWrite (src : Bytes) (k i : ℕ) (dst : Bytes) :
    terminate (copyWrite src k i dst) = terminate (copyTest src k i dst) := by
  induction k generalizing i dst with
  | zero => rfl
  | succ k ih =>
    by_cases h0 : src i = 0
    · simp only [copyWrite, copyTest, h0, if_true, terminate, Function.update_idem]
    · simp only [copyWrite, copyTest, h0, if_false]
      exact ih _ _

end CArray
