import Mathlib.Data.List.Basic
import Mathlib.Tactic.Common

/-! Messages in a queue of items: a header with the size of the message, and the chunks of it. -/
namespace Framing
variable {α β : Type*}

inductive Item (α β : Type*) where
  | header (size : ℕ) (tag : β)
  | chunk (xs : List α)
  deriving DecidableEq, Repr

def Item.payload : Item α β → List α
  | .header _ _ => []
  | .chunk xs => xs

/-- What is still to come of the last message behind the items, when `left` is to come before
them; nothing, when an item is not what is due. -/
def outstanding : ℕ → List (Item α β) → Option ℕ
  | left, [] => some left
  | left, .header size _ :: items => if left = 0 ∧ 0 < size then outstanding size items else none
  | left, .chunk xs :: items =>
    if 0 < xs.length ∧ xs.length ≤ left then outstanding (left - xs.length) items else none

@[simp] theorem outstanding_nil (left : ℕ) : outstanding (α := α) (β := β) left [] = some left := rfl

theorem outstanding_append (left : ℕ) (items items' : List (Item α β)) :
    outstanding left (items ++ items') = (outstanding left items).bind fun left => outstanding left items' := by
  induction items generalizing left with
  | nil => rfl
  | cons item items ih =>
    cases item with
    | header size tag =>
      simp only [List.cons_append, outstanding, ih]
      split_ifs
      · rfl
      · rfl
    | chunk xs =>
      simp only [List.cons_append, outstanding, ih]
      split_ifs
      · rfl
      · rfl

/-- A header is due when nothing is to come. -/
theorem outstanding_header {left size rest : ℕ} {tag : β} {items : List (Item α β)}
    (h : outstanding left (.header size tag :: items) = some rest) :
    left = 0 ∧ 0 < size ∧ outstanding size items = some rest := by
  rw [outstanding] at h
  split_ifs at h with hdue
  exact ⟨hdue.1, hdue.2, h⟩

theorem outstanding_chunk {left rest : ℕ} {xs : List α} {items : List (Item α β)}
    (h : outstanding left (.chunk xs :: items) = some rest) :
    0 < xs.length ∧ xs.length ≤ left ∧ outstanding (left - xs.length) items = some rest := by
  rw [outstanding] at h
  split_ifs at h with hdue
  exact ⟨hdue.1, hdue.2, h⟩

theorem outstanding_concat_header {left size : ℕ} {tag : β} {items : List (Item α β)}
    (h : outstanding left items = some 0) (hsize : 0 < size) :
    outstanding left (items ++ [.header size tag]) = some size := by
  rw [outstanding_append, h]
  exact if_pos ⟨rfl, hsize⟩

theorem outstanding_concat_chunk {left rest : ℕ} {xs : List α} {items : List (Item α β)}
    (h : outstanding left items = some rest) (hpos : 0 < xs.length) (hfits : xs.length ≤ rest) :
    outstanding left (items ++ [.chunk xs]) = some (rest - xs.length) := by
  rw [outstanding_append, h]
  exact if_pos ⟨hpos, hfits⟩

end Framing
