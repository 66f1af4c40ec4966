import BlizzardBridge.NvsBlocks
import Mathlib.Data.Nat.Find
import Mathlib.Logic.Function.Iterate

/-! Whether the loader returns. A block leaves its loop at the first read that is not
answered by "not found"; between two reads it tries to write the default. -/
namespace BlizzardBridge
open CArray

namespace Board

/-- A turn of the loop of a block: the read, and the default after it. -/
def turn (k : NvsKey) (b : Board) : Board := (readOf k b).2.initNvsKeyPairDefault k

/-- The calls of a turn before the one whose outcome is looked at; strings and blobs are asked
for their size first. -/
def sizeCalls (k : NvsKey) : ℕ :=
  match k with
  | .deviceName | .ssid | .pass | .ownIPAddress | .ownNetmask | .mac | .gateway => 1
  | _ => 0

/-- The calls of a turn: those, the read, the default and its commit. -/
def turnCalls (k : NvsKey) : ℕ := sizeCalls k + 3

/-- The read of turn `t` fails with another error, or the key is there: from the beginning, or
since a turn before has written the default. -/
def Finds (k : NvsKey) (n : Nvs) (t : ℕ) : Prop :=
  match n.faults (n.calls + t * turnCalls k + sizeCalls k) with
  | some e => e ≠ .nvsNotFound
  | none => n.content k ≠ none ∨
      ∃ s < t, n.faults (n.calls + s * turnCalls k + sizeCalls k + 1) = none

/-- The block ends with the read of turn `t`. -/
def FirstFinds (k : NvsKey) (n : Nvs) (t : ℕ) : Prop := Finds k n t ∧ ∀ s < t, ¬ Finds k n s

/-- Some read of the block is not answered by "not found". -/
def Answered (k : NvsKey) (n : Nvs) : Prop := ∃ t, Finds k n t

section read
variable (k : NvsKey) (b : Board) (hk : k ≠ .ownUUID)
include hk

theorem readOf_calls : (readOf k b).2.nvs.calls = b.nvs.calls + sizeCalls k + 1 := by
  cases k <;> first
    | exact (readNumber_answer _ _ _ b).2
    | exact (readData_answer _ _ b).2
    | exact absurd rfl hk

theorem readOf_notFound_iff : (readOf k b).1 = some .nvsNotFound ↔
    match b.nvs.faults (b.nvs.calls + sizeCalls k) with
      | some e => e = .nvsNotFound
      | none => b.nvs.content k = none := by
  cases k <;> first
    | exact (readNumber_answer _ _ _ b).1.trans (NvsStore.get_notFound_iff _ _ _)
    | exact (readData_answer _ _ b).1.trans (NvsStore.get_notFound_iff _ _ _)
    | exact absurd rfl hk

theorem turn_nvs : (turn k b).nvs.calls = b.nvs.calls + turnCalls k ∧
    (turn k b).nvs.faults = b.nvs.faults ∧
    (turn k b).nvs.content k =
      if b.nvs.faults (b.nvs.calls + sizeCalls k + 1) = none then some (defaultVal k)
      else b.nvs.content k := by
  have hreads := readOf_reads k b
  have hinit := initNvsKeyPairDefault_touches k (readOf k b).2
  refine ⟨?_, hinit.faults.trans hreads.faults, ?_⟩
  · have hcalls : (turn k b).nvs.calls = (readOf k b).2.nvs.calls + 2 :=
      NvsStore.updateNvsVal_calls k (defaultVal k) _
    rw [hcalls, readOf_calls k b hk]
    rfl
  · rw [← hreads.faults, ← readOf_calls k b hk, ← hreads.content]
    exact NvsStore.updateNvsVal_self k (defaultVal k) _

theorem turns_nvs (t : ℕ) : ((turn k)^[t] b).nvs.calls = b.nvs.calls + t * turnCalls k ∧
    ((turn k)^[t] b).nvs.faults = b.nvs.faults ∧
    ((turn k)^[t] b).nvs.content k =
      if ∃ s < t, b.nvs.faults (b.nvs.calls + s * turnCalls k + sizeCalls k + 1) = none then
        some (defaultVal k)
      else b.nvs.content k := by
  induction t with
  | zero => simp
  | succ t ih =>
    obtain ⟨hcalls, hfaults, hcontent⟩ := ih
    obtain ⟨hcalls', hfaults', hcontent'⟩ := turn_nvs k ((turn k)^[t] b) hk
    rw [Function.iterate_succ_apply']
    refine ⟨?_, hfaults'.trans hfaults, ?_⟩
    · rw [hcalls', hcalls, Nat.succ_mul, Nat.add_assoc]
    · rw [hcontent', hcontent, hfaults, hcalls]
      -- the default of the last turn, or of one before
      by_cases hlast : b.nvs.faults (b.nvs.calls + t * turnCalls k + sizeCalls k + 1) = none
      · rw [if_pos hlast, if_pos ⟨t, Nat.lt_succ_self t, hlast⟩]
      · simp only [Nat.exists_lt_succ_right, hlast, or_false, if_false]

theorem turns_answered_iff (t : ℕ) :
    (readOf k ((turn k)^[t] b)).1 ≠ some .nvsNotFound ↔ Finds k b.nvs t := by
  obtain ⟨hcalls, hfaults, hcontent⟩ := turns_nvs k b hk t
  rw [ne_eq, readOf_notFound_iff k _ hk, hcalls, hfaults]
  unfold Finds
  cases b.nvs.faults (b.nvs.calls + t * turnCalls k + sizeCalls k) with
  | some e => exact Iff.rfl
  | none =>
    change ¬ ((turn k)^[t] b).nvs.content k = none ↔ _
    rw [hcontent]
    split_ifs with hwritten
    · exact iff_of_true nofun (Or.inr hwritten)
    · exact (or_iff_left hwritten).symm

end read

/-- The block returns within `fuel` turns exactly when one of them is answered, with what the
setter makes of the first such read. -/
theorem loadLoop_eq_some_iff (k : NvsKey) (use : Board → Board) (fuel : ℕ) (b b' : Board) :
    loadLoop k (readOf k) use fuel b = some b' ↔
      ∃ t < fuel, ((readOf k ((turn k)^[t] b)).1 ≠ some .nvsNotFound ∧
        ∀ s < t, (readOf k ((turn k)^[s] b)).1 = some .nvsNotFound) ∧
        use (readOf k ((turn k)^[t] b)).2 = b' := by
  -- turn `t` of the rest is turn `t + 1` of the whole
  induction fuel generalizing b with
  | zero => simp [loadLoop]
  | succ fuel ih =>
    rw [loadLoop]
    by_cases hmiss : (readOf k b).1 = some .nvsNotFound
    · rw [if_pos hmiss]
      apply (ih (turn k b)).trans
      constructor
      · rintro ⟨t, ht, ⟨hanswer, hbefore⟩, huse⟩
        refine ⟨t + 1, Nat.succ_lt_succ ht, ⟨hanswer, fun s hs => ?_⟩, huse⟩
        cases s with
        | zero => exact hmiss
        | succ s => exact hbefore s (Nat.lt_of_succ_lt_succ hs)
      · rintro ⟨t, ht, ⟨hanswer, hbefore⟩, huse⟩
        cases t with
        | zero => exact absurd hmiss hanswer
        | succ t =>
          exact ⟨t, Nat.lt_of_succ_lt_succ ht,
            ⟨hanswer, fun s hs => hbefore (s + 1) (Nat.succ_lt_succ hs)⟩, huse⟩
    -- the first read is answered, so no other turn comes before it
    · rw [if_neg hmiss]
      constructor
      · intro huse
        exact ⟨0, Nat.succ_pos fuel, ⟨hmiss, fun s hs => absurd hs (Nat.not_lt_zero s)⟩,
          Option.some.inj huse⟩
      · rintro ⟨t, -, ⟨-, hbefore⟩, huse⟩
        cases t with
        | zero => exact congrArg some huse
        | succ t => exact absurd (hbefore 0 (Nat.succ_pos t)) hmiss

theorem load_eq_some_iff {k : NvsKey} (hk : k ≠ .ownUUID) (fuel : ℕ) (b b' : Board) :
    load k fuel b = some b' ↔
      ∃ t < fuel, FirstFinds k b.nvs t ∧ useOf k (readOf k ((turn k)^[t] b)).2 = b' := by
  have hfirst (t : ℕ) : FirstFinds k b.nvs t ↔
      (readOf k ((turn k)^[t] b)).1 ≠ some .nvsNotFound ∧
        ∀ s < t, (readOf k ((turn k)^[s] b)).1 = some .nvsNotFound := by
    unfold FirstFinds
    simp only [← turns_answered_iff k b hk, ne_eq, not_not]
  simp only [hfirst]
  exact loadLoop_eq_some_iff k (useOf k) fuel b b'

theorem load_returns_iff {k : NvsKey} (hk : k ≠ .ownUUID) (b : Board) :
    (∃ fuel b', load k fuel b = some b') ↔ Answered k b.nvs := by
  classical
  constructor
  · rintro ⟨fuel, b', hrun⟩
    obtain ⟨t, -, hfirst, -⟩ := (load_eq_some_iff hk fuel b b').mp hrun
    exact ⟨t, hfirst.1⟩
  · intro hanswered
    have hfirst : FirstFinds k b.nvs (Nat.find hanswered) :=
      ⟨Nat.find_spec hanswered, fun s hs => Nat.find_min hanswered hs⟩
    exact ⟨Nat.find hanswered + 1, _,
      (load_eq_some_iff hk _ b _).mpr ⟨_, Nat.lt_succ_self _, hfirst, rfl⟩⟩

theorem loadLoop_mono {k : NvsKey} {read : Board → Option EspErr × Board} {use : Board → Board}
    {fuel : ℕ} {b b' : Board} (n : ℕ) (h : loadLoop k read use fuel b = some b') :
    loadLoop k read use (fuel + n) b = some b' := by
  induction fuel generalizing b with
  | zero => cases h
  | succ fuel ih =>
    rw [Nat.succ_add]
    rw [loadLoop] at h ⊢
    by_cases hmiss : (read b).1 = some .nvsNotFound
    · rw [if_pos hmiss] at h ⊢
      exact ih h
    · rwa [if_neg hmiss] at h ⊢

theorem load_mono {k : NvsKey} {fuel : ℕ} {b b' : Board} (n : ℕ) (h : load k fuel b = some b') :
    load k (fuel + n) b = some b' := loadLoop_mono n h

theorem loadAll_mono {fuel : ℕ} {keys : List NvsKey} {b b' : Board} (n : ℕ)
    (h : loadAll fuel keys b = some b') : loadAll (fuel + n) keys b = some b' := by
  induction keys generalizing b with
  | nil => exact h
  | cons k keys ih =>
    obtain ⟨b₁, hload, hrest⟩ := loadAll_cons_iff.mp h
    exact loadAll_cons_iff.mpr ⟨b₁, load_mono n hload, ih hrest⟩

theorem load_unique {k : NvsKey} {fuel fuel' : ℕ} {b b₁ b₂ : Board} (h₁ : load k fuel b = some b₁)
    (h₂ : load k fuel' b = some b₂) : b₁ = b₂ := by
  have hmore := load_mono fuel' h₁
  rw [Nat.add_comm, load_mono fuel h₂] at hmore
  exact (Option.some.inj hmore).symm

theorem loadAll_returns_iff (keys : List NvsKey) (hu : .ownUUID ∉ keys) (b : Board) :
    (∃ fuel b', loadAll fuel keys b = some b') ↔
      ∀ ks k, ks ++ [k] <+: keys → ∀ fuel b₁, loadAll fuel ks b = some b₁ → Answered k b₁.nvs := by
  -- from block to block; more turns than a block needs do not matter
  induction keys generalizing b with
  | nil =>
    refine iff_of_true ⟨0, b, rfl⟩ fun ks k hks => ?_
    exact absurd (List.prefix_nil.mp hks) (List.append_ne_nil_of_right_ne_nil ks (List.cons_ne_nil k []))
  | cons key keys ih =>
    have hkey : key ≠ .ownUUID := fun he => hu (he ▸ List.mem_cons_self)
    have hkeys : .ownUUID ∉ keys := fun hm => hu (List.mem_cons_of_mem key hm)
    constructor
    · rintro ⟨fuel, b', hrun⟩ ks k hks fuel' b₂ hrun'
      obtain ⟨b₁, hload, hrest⟩ := loadAll_cons_iff.mp hrun
      cases ks with
      | nil =>
        obtain ⟨rfl, -⟩ := List.cons_prefix_cons.mp hks
        cases hrun'
        exact (load_returns_iff hkey b).mp ⟨fuel, b₁, hload⟩
      | cons j ks =>
        obtain ⟨rfl, htail⟩ := List.cons_prefix_cons.mp hks
        obtain ⟨b₁', hload', hrest'⟩ := loadAll_cons_iff.mp hrun'
        obtain rfl : b₁' = b₁ := load_unique hload' hload
        exact (ih hkeys b₁').mp ⟨fuel, b', hrest⟩ ks k htail fuel' b₂ hrest'
    · intro hall
      have hfirst : Answered key b.nvs :=
        hall [] key ((List.prefix_cons_inj key).mpr List.nil_prefix) 0 b rfl
      obtain ⟨fuel, b₁, hload⟩ := (load_returns_iff hkey b).mpr hfirst
      have hrest : ∀ ks k, ks ++ [k] <+: keys → ∀ fuel' b₂, loadAll fuel' ks b₁ = some b₂ →
          Answered k b₂.nvs := by
        intro ks k hks fuel' b₂ hrun
        apply hall (key :: ks) k ((List.prefix_cons_inj key).mpr hks) (fuel + fuel') b₂
        refine loadAll_cons_iff.mpr ⟨b₁, load_mono fuel' hload, ?_⟩
        rw [Nat.add_comm]
        exact loadAll_mono fuel hrun
      obtain ⟨fuel', b', hrun⟩ := (ih hkeys b₁).mpr hrest
      refine ⟨fuel + fuel', b', loadAll_cons_iff.mpr ⟨b₁, load_mono fuel' hload, ?_⟩⟩
      rw [Nat.add_comm]
      exact loadAll_mono fuel hrun

/-- The loader returns exactly when each block, in the state that the blocks before it have
left, has a read that is not answered by "not found". -/
theorem populate_returns_iff (b : Board) :
    (∃ fuel b', populateAllDmxNvsValues fuel b = some b') ↔
      ∀ ks k, ks ++ [k] <+: blocks → ∀ fuel b₁, loadAll fuel ks b = some b₁ → Answered k b₁.nvs :=
  loadAll_returns_iff blocks (by decide) b

/-- Nothing is stored, and nothing can be written. -/
def full : Board :=
  reset ⟨fun _ => none, fun i => if i % 3 = 1 then some (.other 0x1105) else none, 0⟩ station

theorem populate_hangs : ¬ ∀ b : Board, ∃ fuel b', populateAllDmxNvsValues fuel b = some b' := by
  intro hall
  have hanswered := (loadAll_returns_iff blocks (by decide) full).mp (hall full) [] .dhcpEnable
    ((List.prefix_cons_inj _).mpr List.nil_prefix) 0 full rfl
  obtain ⟨t, hfinds⟩ := hanswered
  have hread : full.nvs.faults (full.nvs.calls + t * turnCalls .dhcpEnable + sizeCalls .dhcpEnable) =
      none := by
    change (if (0 + t * 3 + 0) % 3 = 1 then some (EspErr.other 0x1105) else none) = none
    rw [if_neg (by omega)]
  rw [Finds, hread] at hfinds
  rcases hfinds with hstored | ⟨s, -, hset⟩
  · exact absurd rfl hstored
  · change (if (0 + s * 3 + 0 + 1) % 3 = 1 then some (EspErr.other 0x1105) else none) = none at hset
    rw [if_pos (by omega)] at hset
    cases hset

end Board

end BlizzardBridge
