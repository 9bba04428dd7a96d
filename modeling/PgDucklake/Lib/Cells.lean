import Mathlib.Data.List.Basic

/-!
# Allocated cells

An array of which a first part has been written: the cells hold a list (`Holds`). Storing the next element and allocating
more cells keep what is held (`Holds.store`, `Holds.extend`).
-/

namespace Lib.Cells

variable {α : Type*} {cells : List (Option α)} {xs : List α}

/-- The cells hold `xs`, from the first on. -/
def Holds (cells : List (Option α)) (xs : List α) : Prop := cells.take xs.length = xs.map some

theorem Holds.nil (cells : List (Option α)) : Holds cells ([] : List α) := rfl

theorem Holds.length_le (h : Holds cells xs) : xs.length ≤ cells.length := by
  have hlen := congrArg List.length h
  rw [List.length_take, List.length_map] at hlen
  omega

theorem Holds.store (h : Holds cells xs) (hlt : xs.length < cells.length) (x : α) :
    Holds (cells.set xs.length (some x)) (xs ++ [x]) := by
  unfold Holds at h ⊢
  rw [List.length_append, List.length_singleton, List.take_add_one, List.take_set_of_le (Nat.le_refl _), h,
    List.getElem?_set_self hlt, List.map_append]
  rfl

theorem Holds.extend (h : Holds cells xs) (more : List (Option α)) : Holds (cells ++ more) xs := by
  rw [Holds, List.take_append_of_le_length h.length_le]
  exact h

end Lib.Cells
