import Mathlib.Logic.Function.Basic

/-!
# Memory

Cells at addresses, of which some are allocated. Every address from `next` on is free, so an allocation never reuses a
cell.
-/

namespace Lib

structure Memory (α : Type) where
  cells : Nat → Option α
  next : Nat
  free : ∀ a, next ≤ a → cells a = none

namespace Memory

variable {α : Type} (m : Memory α)

/-- A new cell; its address is the old `next`. -/
def alloc (v : α) : Memory α where
  cells := Function.update m.cells m.next (some v)
  next := m.next + 1
  free := fun a ha => by
    rw [Function.update_of_ne (by omega)]
    exact m.free a (by omega)

def release (a : Nat) : Memory α where
  cells := Function.update m.cells a none
  next := m.next
  free := fun b hb => by
    by_cases h : b = a
    · rw [h, Function.update_self]
    · rw [Function.update_of_ne h]
      exact m.free b hb

variable {m}

@[simp] theorem alloc_self (v : α) : (m.alloc v).cells m.next = some v := Function.update_self ..

@[simp] theorem next_free : m.cells m.next = none := m.free m.next (Nat.le_refl _)

theorem release_other {a b : Nat} (h : b ≠ a) : (m.release a).cells b = m.cells b := Function.update_of_ne h ..

end Memory

end Lib
