import Mathlib.Logic.Basic

/-!
# Computations with a log

A computation that notes events as it goes. `All P` says that every event noted satisfies `P`; a sequence satisfies it when
its parts do (`all_bind`). What is computed does not depend on the log (`value_bind`).
-/

namespace Lib

structure Traced (ω α : Type) where
  value : α
  log : List ω

namespace Traced

variable {ω α β : Type} {P : ω → Prop}

instance : Monad (Traced ω) where
  pure a := ⟨a, []⟩
  bind x f := ⟨(f x.value).value, x.log ++ (f x.value).log⟩

/-- A value, noting an event. -/
def note (e : ω) (a : α) : Traced ω α := ⟨a, [e]⟩

/-- Every event noted satisfies `P`. -/
def All (P : ω → Prop) (x : Traced ω α) : Prop := ∀ e ∈ x.log, P e

@[simp] theorem value_pure (a : α) : (pure a : Traced ω α).value = a := rfl

@[simp] theorem value_bind (x : Traced ω α) (f : α → Traced ω β) : (x >>= f).value = (f x.value).value := rfl

@[simp] theorem value_note (e : ω) (a : α) : (note e a).value = a := rfl

@[simp] theorem value_ite (c : Prop) [Decidable c] (x y : Traced ω α) :
    (if c then x else y).value = if c then x.value else y.value := apply_ite value c x y

@[simp] theorem all_pure (a : α) : All P (pure a : Traced ω α) ↔ True := iff_true_intro fun _ h => nomatch h

@[simp] theorem all_note (e : ω) (a : α) : All P (note e a) ↔ P e := by
  simp [All, note]

@[simp] theorem all_bind (x : Traced ω α) (f : α → Traced ω β) : All P (x >>= f) ↔ All P x ∧ All P (f x.value) := by
  constructor
  · exact fun h => ⟨fun e he => h e (List.mem_append_left _ he), fun e he => h e (List.mem_append_right _ he)⟩
  · rintro ⟨hx, hf⟩ e he
    exact (List.mem_append.mp he).elim (hx e) (hf e)

end Traced

end Lib
