import BlizzardBridge.Dmx

/-! Copying a part of a frame into the DMX buffer and out of it. In both functions the loop
consists of its test alone, and the assignment that stands indented under it follows it. -/
namespace BlizzardBridge
open CArray

-- `for (..; i < DMX_MAX_SLOTS; i++, j++, length--) if (!length) break;`, with `k` turns left.
def copyStop : (k i j : ℕ) → UInt16 → ℕ × ℕ
  | 0, i, j, _ => (i, j)
  | k + 1, i, j, length => if length = 0 then (i, j) else copyStop k (i + 1) (j + 1) (length - 1)

/-- A null pointer is `none`. -/
def copyToDMX (buf : Option Bytes) (start length : UInt16) (dmx : Bytes) : Bytes :=
  match buf with
  | none => dmx
  | some buf =>
    if DMX_MAX_SLOTS ≤ start.toNat then dmx
    else
      let r := copyStop (DMX_MAX_SLOTS - start.toNat) start.toNat 0 length
      Function.update dmx r.1 (buf r.2)

def copyFromDMX (buf : Option Bytes) (start length : UInt16) (dmx : Bytes) : Option Bytes :=
  buf.map fun buf =>
    if DMX_MAX_SLOTS ≤ start.toNat then buf
    else
      let r := copyStop (DMX_MAX_SLOTS - start.toNat) start.toNat 0 length
      Function.update buf r.2 (dmx r.1)

/-- How many bytes there are to copy. -/
def copied (start length : UInt16) : ℕ :=
  if start.toNat < DMX_MAX_SLOTS then min length.toNat (DMX_MAX_SLOTS - start.toNat) else 0

/-- Both copies are right, and so the bytes come back. -/
structure CopiesRight (buf out dmx : Bytes) (start length : UInt16) : Prop where
  toDMX : copyToDMX (some buf) start length dmx = copyLoop dmx start.toNat buf (copied start length)
  fromDMX : copyFromDMX (some out) start length dmx =
    some (copyLoop out 0 (fun k => dmx (start.toNat + k)) (copied start length))
  back : ∀ r, copyFromDMX (some out) start length (copyToDMX (some buf) start length dmx) = some r →
    ∀ k < copied start length, r k = buf k

theorem copyStop_eq (k i j : ℕ) (length : UInt16) :
    copyStop k i j length = (i + min length.toNat k, j + min length.toNat k) := by
  induction k generalizing i j length with
  | zero => rw [copyStop, Nat.min_zero, Nat.add_zero, Nat.add_zero]
  | succ k ih =>
    rw [copyStop]
    split
    · next h =>
      rw [h]
      change (i, j) = (i + min 0 (k + 1), j + min 0 (k + 1))
      rw [Nat.zero_min, Nat.add_zero, Nat.add_zero]
    · next h =>
      have hpos : length.toNat ≠ 0 := fun h0 => h (UInt16.toNat_inj.mp h0)
      have hone : (1 : UInt16) ≤ length := UInt16.le_iff_toNat_le.mpr (Nat.one_le_iff_ne_zero.mpr hpos)
      have hpred : (length - 1).toNat = length.toNat - 1 := UInt16.toNat_sub_of_le _ _ hone
      rw [ih, hpred]
      congr 1
      · omega
      · omega

/-- The one assignment behind the loop does the work of a copy exactly where nothing needs
to be copied, up to the byte that it assigns. -/
theorem update_eq_copyLoop_iff (dst src : Bytes) (off n : ℕ) :
    Function.update dst (off + n) (src n) = copyLoop dst off src n ↔
      ∀ k ≤ n, dst (off + k) = src k := by
  constructor
  · intro h k hk
    have hat := congrFun h (off + k)
    rw [copyLoop_apply] at hat
    rcases Nat.eq_or_lt_of_le hk with rfl | hlt
    · rw [Function.update_self, if_neg (by omega)] at hat
      exact hat.symm
    · rw [Function.update_of_ne (by omega), if_pos (by omega), Nat.add_sub_cancel_left] at hat
      exact hat
  · intro h
    funext j
    rw [copyLoop_apply, Function.update_apply]
    by_cases hlast : j = off + n
    · rw [if_pos hlast, if_neg (by omega), hlast]
      exact (h n le_rfl).symm
    · rw [if_neg hlast]
      split
      · next hin =>
        have hk := h (j - off) (by omega)
        rwa [Nat.add_sub_cancel' hin.1] at hk
      · rfl

section inside
variable {start : UInt16} (hstart : start.toNat < DMX_MAX_SLOTS) (length : UInt16)
include hstart

theorem copyStop_start : copyStop (DMX_MAX_SLOTS - start.toNat) start.toNat 0 length =
    (start.toNat + copied start length, copied start length) := by
  rw [copyStop_eq, copied, if_pos hstart, Nat.zero_add]

theorem copyToDMX_inside (buf dmx : Bytes) : copyToDMX (some buf) start length dmx =
    Function.update dmx (start.toNat + copied start length) (buf (copied start length)) := by
  simp only [copyToDMX, if_neg (Nat.not_le_of_lt hstart), copyStop_start hstart]

theorem copyFromDMX_inside (out dmx : Bytes) : copyFromDMX (some out) start length dmx =
    some (Function.update out (0 + copied start length)
      (dmx (start.toNat + copied start length))) := by
  simp only [copyFromDMX, Option.map_some, if_neg (Nat.not_le_of_lt hstart), copyStop_start hstart,
    Nat.zero_add]

end inside

/-- The copies are right exactly outside the buffer, or where the two sides agree already. -/
theorem copiesRight_iff (buf out dmx : Bytes) (start length : UInt16) :
    CopiesRight buf out dmx start length ↔ DMX_MAX_SLOTS ≤ start.toNat ∨
      ∀ k ≤ copied start length, dmx (start.toNat + k) = buf k ∧ out k = dmx (start.toNat + k) := by
  by_cases hstart : start.toNat < DMX_MAX_SLOTS
  · have hto : copyToDMX (some buf) start length dmx =
        copyLoop dmx start.toNat buf (copied start length) ↔
        ∀ k ≤ copied start length, dmx (start.toNat + k) = buf k := by
      rw [copyToDMX_inside hstart, update_eq_copyLoop_iff]
    have hfrom : copyFromDMX (some out) start length dmx =
        some (copyLoop out 0 (fun k => dmx (start.toNat + k)) (copied start length)) ↔
        ∀ k ≤ copied start length, out k = dmx (start.toNat + k) := by
      have hiff := update_eq_copyLoop_iff out (fun k => dmx (start.toNat + k)) 0 (copied start length)
      rw [copyFromDMX_inside hstart, Option.some.injEq, hiff]
      simp only [Nat.zero_add]
    constructor
    · intro h
      exact Or.inr fun k hk => ⟨hto.mp h.toDMX k hk, hfrom.mp h.fromDMX k hk⟩
    · rintro (hout | h)
      · exact absurd hstart (Nat.not_lt_of_le hout)
      · have hcopied := hto.mpr fun k hk => (h k hk).1
        have hback := hfrom.mpr fun k hk => (h k hk).2
        refine ⟨hcopied, hback, fun r hr k hk => ?_⟩
        -- the first copy has changed nothing, so the second one finds what it found before
        have hsame : copyToDMX (some buf) start length dmx = dmx := by
          funext j
          rw [hcopied, copyLoop_apply]
          split
          · next hin =>
            have hj := (h (j - start.toNat) (by omega)).1
            rw [Nat.add_sub_cancel' hin.1] at hj
            exact hj.symm
          · rfl
        rw [hsame, hback] at hr
        rw [← Option.some.inj hr, copyLoop_apply, if_pos (by omega), Nat.sub_zero]
        exact (h k (Nat.le_of_lt hk)).1
  · have hnone : copied start length = 0 := if_neg hstart
    have hout := Nat.le_of_not_lt hstart
    refine iff_of_true ⟨?_, ?_, ?_⟩ (Or.inl hout)
    · rw [hnone, copyLoop, copyToDMX, if_pos hout]
    · rw [hnone, copyLoop, copyFromDMX, Option.map_some, if_pos hout]
    · intro r _ k hk
      rw [hnone] at hk
      exact absurd hk (Nat.not_lt_zero k)

/-- Two bytes for the first slots: the third slot is set, and they are not. -/
theorem copyToDMX_skips : let buf := store (fun _ => 0) 0 [7, 8, 9]
    ¬ CopiesRight buf (fun _ => 0) (fun _ => 0) 1 2 ∧
      take (copyToDMX (some buf) 1 2 fun _ => 0) 5 = [0, 0, 0, 9, 0] := by
  refine ⟨fun h => ?_, by decide⟩
  have hslot := congrFun h.toDMX 1
  exact absurd hslot (by decide)

end BlizzardBridge
