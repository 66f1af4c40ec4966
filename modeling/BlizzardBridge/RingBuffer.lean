import Mathlib

/-! Ring buffers. An item that has been received keeps its place until it is returned. -/
namespace RingBuffer
variable {α : Type*} {w : α → ℕ} {cap : ℕ}

def used (w : α → ℕ) (xs : List α) : ℕ := (xs.map w).sum

@[simp] theorem used_nil : used w [] = 0 := rfl

@[simp] theorem used_append (xs ys : List α) : used w (xs ++ ys) = used w xs + used w ys := by
  rw [used, List.map_append, List.sum_append]
  rfl

theorem used_one (xs : List α) : used (fun _ => 1) xs = xs.length := by
  simp [used]

/-- `queue` is what can be received, and `out` what has been received and not yet returned.
An item `x` takes `w x` of the `cap` places. -/
structure Ring (w : α → ℕ) (cap : ℕ) where
  queue : List α
  out : List α
  fits : used w out + used w queue ≤ cap

namespace Ring

def create (w : α → ℕ) (cap : ℕ) : Ring w cap := ⟨[], [], Nat.zero_le cap⟩

def send (r : Ring w cap) (xs : List α) : Option (Ring w cap) :=
  if h : used w r.out + used w (r.queue ++ xs) ≤ cap then some ⟨r.queue ++ xs, r.out, h⟩ else none

/-- The first `n` items. -/
def receive (r : Ring w cap) (n : ℕ) : List α × Ring w cap :=
  (r.queue.take n, ⟨r.queue.drop n, r.out ++ r.queue.take n, by
    rw [used_append, Nat.add_assoc, ← used_append, List.take_append_drop]
    exact r.fits⟩)

def giveBack (r : Ring w cap) : Ring w cap :=
  ⟨r.queue, [], Nat.le_trans (Nat.add_le_add_right (Nat.zero_le _) _) r.fits⟩

@[simp] theorem create_queue : (create w cap).queue = [] := rfl

@[simp] theorem receive_queue (r : Ring w cap) (n : ℕ) : (r.receive n).2.queue = r.queue.drop n := rfl

@[simp] theorem receive_fst (r : Ring w cap) (n : ℕ) : (r.receive n).1 = r.queue.take n := rfl

@[simp] theorem giveBack_queue (r : Ring w cap) : r.giveBack.queue = r.queue := rfl

@[simp] theorem giveBack_out (r : Ring w cap) : r.giveBack.out = [] := rfl

/-- A send either puts its items behind the others, or there is no room for them. -/
theorem send_cases (r : Ring w cap) (xs : List α) :
    (∃ r', r.send xs = some r' ∧ r'.queue = r.queue ++ xs ∧ r'.out = r.out) ∨
      r.send xs = none ∧ cap < used w r.out + used w r.queue + used w xs := by
  by_cases h : used w r.out + used w (r.queue ++ xs) ≤ cap
  · exact Or.inl ⟨⟨r.queue ++ xs, r.out, h⟩, dif_pos h, rfl, rfl⟩
  · refine Or.inr ⟨dif_neg h, ?_⟩
    rw [used_append, ← Nat.add_assoc] at h
    exact Nat.lt_of_not_le h

/-- Only what is still in the buffer keeps items out that fit into an empty one. -/
theorem occupied_of_send_none {r : Ring w cap} {xs : List α} (h : r.send xs = none)
    (hfits : used w xs ≤ cap) : r.out ≠ [] ∨ r.queue ≠ [] := by
  rcases send_cases r xs with ⟨r', hsome, _⟩ | ⟨_, hfull⟩
  · exact absurd (h.symm.trans hsome) (Option.some_ne_none r').symm
  · by_contra hempty
    obtain ⟨hout, hqueue⟩ := not_or.mp hempty
    rw [not_not.mp hout, not_not.mp hqueue, used_nil] at hfull
    omega

end Ring

end RingBuffer
