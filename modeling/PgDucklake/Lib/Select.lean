import Mathlib.Data.List.Basic
import Mathlib.Tactic.Common

/-!
# Scanning a list for its smallest or largest entry

`best p lt l` is the scan `for i in 0 .. n: if p l[i] and (no best yet or lt l[i] best) then best := i`; it returns the
entry with its index. `minBy` and `maxBy` scan by a numeric key; `minBy_some`, `maxBy_some` and
`maxBy_none` say what they find. `length_positions` counts the indices of entries.
-/

namespace Lib

variable {α : Type*}

/-- One iteration of the scan. -/
def bestStep (p : α → Bool) (lt : α → α → Bool) (acc : Option (Nat × α)) (x : α × Nat) : Option (Nat × α) :=
  if p x.1 && acc.all (fun b => lt x.1 b.2) then some (x.2, x.1) else acc

/-- The first entry satisfying `p` that no other such entry beats. -/
def best (p : α → Bool) (lt : α → α → Bool) (l : List α) : Option (Nat × α) :=
  l.zipIdx.foldl (bestStep p lt) none

/-- The entry satisfying `p` with the smallest key. -/
def minBy (p : α → Bool) (key : α → Nat) (l : List α) : Option (Nat × α) :=
  best p (fun a b => decide (key a < key b)) l

/-- The entry satisfying `p` with the largest key. -/
def maxBy (p : α → Bool) (key : α → Nat) (l : List α) : Option (Nat × α) :=
  best p (fun a b => decide (key b < key a)) l

section Scan

variable {p : α → Bool} {lt : α → α → Bool}

/-- What the scan knows after the entries `seen`: it holds one of them, unbeaten. -/
def Unbeaten (p : α → Bool) (lt : α → α → Bool) (seen : List (α × Nat)) : Option (Nat × α) → Prop
  | none => ∀ x ∈ seen, p x.1 = false
  | some (i, a) => (a, i) ∈ seen ∧ p a = true ∧ ∀ x ∈ seen, p x.1 = true → lt x.1 a = false

theorem unbeaten_step (irr : ∀ a, lt a a = false) (tr : ∀ a b c, lt a b = true → lt b c = true → lt a c = true)
    {seen : List (α × Nat)} {acc : Option (Nat × α)} (h : Unbeaten p lt seen acc) (x : α × Nat) :
    Unbeaten p lt (seen ++ [x]) (bestStep p lt acc x) := by
  unfold bestStep
  cases hp : p x.1 with
  | false =>
    simp only [Bool.false_and, Bool.false_eq_true, ↓reduceIte]
    cases acc with
    | none =>
      intro y hy
      rcases List.mem_append.mp hy with hy | hy
      · exact h y hy
      · rw [List.mem_singleton.mp hy]; exact hp
    | some b =>
      obtain ⟨hmem, hpb, hall⟩ := h
      refine ⟨List.mem_append_left _ hmem, hpb, fun y hy hpy => ?_⟩
      rcases List.mem_append.mp hy with hy | hy
      · exact hall y hy hpy
      · rw [List.mem_singleton.mp hy, hp] at hpy; cases hpy
  | true =>
    cases acc with
    | none =>
      refine ⟨by simp, hp, fun y hy hpy => ?_⟩
      rcases List.mem_append.mp hy with hy | hy
      · rw [h y hy] at hpy; cases hpy
      · rw [List.mem_singleton.mp hy]; exact irr _
    | some b =>
      obtain ⟨i, a⟩ := b
      obtain ⟨hmem, hpa, hall⟩ := h
      cases hlt : lt x.1 a with
      | true =>
        simp only [Option.all_some, hlt, Bool.and_self, ↓reduceIte]
        refine ⟨by simp, hp, fun y hy hpy => ?_⟩
        rcases List.mem_append.mp hy with hy | hy
        · -- an entry that beat `x` would have beaten `a`
          cases hyx : lt y.1 x.1 with
          | false => rfl
          | true => rw [← hall y hy hpy, tr _ _ _ hyx hlt]
        · rw [List.mem_singleton.mp hy]; exact irr _
      | false =>
        simp only [Option.all_some, hlt, Bool.and_false, Bool.false_eq_true, ↓reduceIte]
        refine ⟨List.mem_append_left _ hmem, hpa, fun y hy hpy => ?_⟩
        rcases List.mem_append.mp hy with hy | hy
        · exact hall y hy hpy
        · rw [List.mem_singleton.mp hy]; exact hlt

theorem unbeaten_foldl (irr : ∀ a, lt a a = false) (tr : ∀ a b c, lt a b = true → lt b c = true → lt a c = true) :
    ∀ (rest seen : List (α × Nat)) (acc : Option (Nat × α)), Unbeaten p lt seen acc →
      Unbeaten p lt (seen ++ rest) (rest.foldl (bestStep p lt) acc)
  | [], seen, acc, h => by simpa using h
  | x :: rest, seen, acc, h => by
    have := unbeaten_foldl irr tr rest (seen ++ [x]) _ (unbeaten_step irr tr h x)
    simpa [List.append_assoc] using this

theorem best_unbeaten (p : α → Bool) (lt : α → α → Bool) (irr : ∀ a, lt a a = false)
    (tr : ∀ a b c, lt a b = true → lt b c = true → lt a c = true) (l : List α) : Unbeaten p lt l.zipIdx (best p lt l) := by
  have h0 : Unbeaten p lt [] (none : Option (Nat × α)) := fun x hx => by cases hx
  simpa [best] using unbeaten_foldl irr tr l.zipIdx [] none h0

theorem mem_zipIdx_of_mem {l : List α} {a : α} (h : a ∈ l) : ∃ i, (a, i) ∈ l.zipIdx := by
  obtain ⟨i, hi⟩ := List.getElem?_of_mem h
  exact ⟨i, List.mk_mem_zipIdx_iff_getElem?.mpr hi⟩

end Scan

section Keys

variable {p : α → Bool} {key : α → Nat} {l : List α}

private theorem key_irr (key : α → Nat) (a : α) : decide (key a < key a) = false := by simp

private theorem key_tr (key : α → Nat) (a b c : α) (h₁ : decide (key a < key b) = true)
    (h₂ : decide (key b < key c) = true) : decide (key a < key c) = true := by
  simp only [decide_eq_true_eq] at *; omega

theorem minBy_some {i : Nat} {a : α} (h : minBy p key l = some (i, a)) :
    l[i]? = some a ∧ p a = true ∧ ∀ b ∈ l, p b = true → key a ≤ key b := by
  have hb := best_unbeaten p (fun a b => decide (key a < key b)) (key_irr key) (key_tr key) l
  rw [show best p (fun a b => decide (key a < key b)) l = some (i, a) from h] at hb
  refine ⟨List.mk_mem_zipIdx_iff_getElem?.mp hb.1, hb.2.1, fun b hbl hpb => ?_⟩
  obtain ⟨j, hj⟩ := mem_zipIdx_of_mem hbl
  have := hb.2.2 _ hj hpb
  simp only [decide_eq_false_iff_not] at this
  omega

theorem maxBy_none (h : maxBy p key l = none) : ∀ a ∈ l, p a = false := by
  intro a ha
  have hb := best_unbeaten p (fun a b => decide (key b < key a)) (key_irr key)
    (fun a b c h₁ h₂ => key_tr key c b a h₂ h₁) l
  rw [show best p (fun a b => decide (key b < key a)) l = none from h] at hb
  obtain ⟨i, hi⟩ := mem_zipIdx_of_mem ha
  exact hb _ hi

theorem maxBy_some {i : Nat} {a : α} (h : maxBy p key l = some (i, a)) :
    l[i]? = some a ∧ p a = true ∧ ∀ b ∈ l, p b = true → key b ≤ key a := by
  have hb := best_unbeaten p (fun a b => decide (key b < key a)) (key_irr key)
    (fun a b c h₁ h₂ => key_tr key c b a h₂ h₁) l
  rw [show best p (fun a b => decide (key b < key a)) l = some (i, a) from h] at hb
  refine ⟨List.mk_mem_zipIdx_iff_getElem?.mp hb.1, hb.2.1, fun b hbl hpb => ?_⟩
  obtain ⟨j, hj⟩ := mem_zipIdx_of_mem hbl
  have := hb.2.2 _ hj hpb
  simp only [decide_eq_false_iff_not] at this
  omega

end Keys

/-- As many indices as entries satisfy `p`. -/
theorem length_positions (p : α → Bool) (l : List α) :
    ((List.range l.length).filter fun i => (l[i]?).any p).length = (l.filter p).length := by
  induction l with
  | nil => rfl
  | cons a l ih =>
    rw [List.length_cons, List.range_succ_eq_map, List.filter_cons, List.filter_map, List.filter_cons]
    simp only [List.getElem?_cons_zero, Option.any_some, Function.comp_def, List.getElem?_cons_succ]
    cases p a with
    | true => simp [ih]
    | false => simp [ih]

end Lib
