import Mathlib

namespace Storyboard

variable {α : Type} {p : α → Bool} {row l : List α}

/-- What is left after a row does not go on with it. -/
theorem head?_dropWhile {a : α} (next : (l.dropWhile p).head? = some a) : p a = false := by
  have ends := List.head?_dropWhile_not p l
  rw [next] at ends
  simpa using ends

theorem any_head?_dropWhile : (l.dropWhile p).head?.any p = false := by
  cases next : (l.dropWhile p).head? with
  | none => rfl
  | some a =>
    have stops : p a = false := head?_dropWhile next
    exact stops

theorem stops_of_any (ends : l.head?.any p = false) : ∀ a, l.head? = some a → p a = false := by
  intro a next
  rw [next] at ends
  exact ends

/-- A reader takes the longest row of one kind at the front of what is left. -/
theorem takeWhile_row (all : ∀ a ∈ row, p a) (ends : ∀ a, l.head? = some a → p a = false) :
    (row ++ l).takeWhile p = row := by
  rw [List.takeWhile_append_of_pos all]
  cases l with
  | nil => rw [List.takeWhile_nil, List.append_nil]
  | cons a l => rw [List.takeWhile_cons_of_neg (by simp [ends a rfl]), List.append_nil]

theorem dropWhile_row (all : ∀ a ∈ row, p a) (ends : ∀ a, l.head? = some a → p a = false) :
    (row ++ l).dropWhile p = l := by
  rw [List.dropWhile_append_of_pos all]
  cases l with
  | nil => rfl
  | cons a l => rw [List.dropWhile_cons_of_neg (by simp [ends a rfl])]

/-- The row at the front is at least as long as any part of it. -/
theorem length_le_takeWhile (all : ∀ a ∈ row, p a) :
    row.length ≤ ((row ++ l).takeWhile p).length := by
  rw [List.takeWhile_append_of_pos all, List.length_append]
  exact Nat.le_add_right _ _

end Storyboard
