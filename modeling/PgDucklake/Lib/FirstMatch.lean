import Mathlib.Data.List.Basic
import Mathlib.Tactic.Common

/-!
# Changing the first match in a list

`modifyFirst p f l` is the loop `for i in 0 .. n: if p l[i] then l[i] := f l[i]; break`. If an entry matches, the list is
changed at one place (`modifyFirst_split`), so counts change by what that entry counts (`countP_modifyFirst`).
-/

namespace Lib

variable {α : Type*} {p q : α → Bool} {f : α → α}

def modifyFirst (p : α → Bool) (f : α → α) : List α → List α
  | [] => []
  | x :: l => if p x then f x :: l else x :: modifyFirst p f l

theorem modifyFirst_split (f : α → α) : ∀ {l : List α}, l.any p = true →
    ∃ a x b, l = a ++ x :: b ∧ p x = true ∧ modifyFirst p f l = a ++ f x :: b
  | [], h => by cases h
  | x :: l, h => by
    by_cases hx : p x = true
    · exact ⟨[], x, l, rfl, hx, by simp [modifyFirst, hx]⟩
    · have hrest : l.any p = true := by simpa [hx] using h
      obtain ⟨a, y, b, rfl, hy, heq⟩ := modifyFirst_split f hrest
      exact ⟨x :: a, y, b, rfl, hy, by simp [modifyFirst, hx, heq]⟩

/-- The count of `q` loses the matched entry and gains the changed one. -/
theorem countP_modifyFirst {l : List α} (h : l.any p = true) :
    ∃ x ∈ l, p x = true ∧
      (modifyFirst p f l).countP q + (if q x then 1 else 0) = l.countP q + if q (f x) then 1 else 0 := by
  obtain ⟨a, x, b, rfl, hx, heq⟩ := modifyFirst_split f h
  refine ⟨x, by simp, hx, ?_⟩
  rw [heq]
  simp only [List.countP_append, List.countP_cons]
  omega

@[simp]
theorem length_modifyFirst (p : α → Bool) (f : α → α) : ∀ l : List α, (modifyFirst p f l).length = l.length
  | [] => rfl
  | x :: l => by
    by_cases hx : p x = true
    · simp [modifyFirst, hx]
    · simp [modifyFirst, hx, length_modifyFirst p f l]

end Lib
