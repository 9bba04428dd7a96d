import Mathlib.Data.List.Induction
import Mathlib.Order.Defs.LinearOrder

/-!
# Running extremes

A scan that keeps the smallest and the largest value it has met, under a comparison function. What the scan holds covers
every value it has met, and both ends are values it has met (`Spans`, `spans_widen`, `spans_extremes`). The variant that
looks at the upper end only when the lower end stays (`widenElse`) is the same scan (`widenElse_eq`). `not_wins_winner`
and `not_wins_trans` are the two facts by which the better of two bounds bounds what both bound.
-/

namespace Lib

open Std

/-- The two ends a scan holds. -/
structure Extremes (α : Type*) where
  lo : α
  hi : α
  deriving DecidableEq

section Scan

variable {α : Type*} (cmp : α → α → Ordering)

/-- Both ends are compared with the value met. -/
def widen : Option (Extremes α) → α → Option (Extremes α)
  | none, v => some ⟨v, v⟩
  | some e, v => some ⟨if cmp v e.lo = .lt then v else e.lo, if cmp v e.hi = .gt then v else e.hi⟩

/-- The upper end is compared only with a value that does not become the lower end. -/
def widenElse : Option (Extremes α) → α → Option (Extremes α)
  | none, v => some ⟨v, v⟩
  | some e, v =>
    if cmp v e.lo = .lt then some { e with lo := v }
    else if cmp v e.hi = .gt then some { e with hi := v }
    else some e

/-- The extremes of a list of values. -/
def extremes (vs : List α) : Option (Extremes α) := vs.foldl (widen cmp) none

theorem extremes_concat (vs : List α) (v : α) : extremes cmp (vs ++ [v]) = widen cmp (extremes cmp vs) v := by
  simp [extremes, List.foldl_append]

/-- What a scan of the values `seen` holds. -/
def Spans (seen : List α) : Option (Extremes α) → Prop
  | none => seen = []
  | some e => e.lo ∈ seen ∧ e.hi ∈ seen ∧ ∀ v ∈ seen, (cmp e.lo v).isLE ∧ (cmp v e.hi).isLE

variable {cmp}

theorem isLE_of_not_gt {a b : α} (h : ¬cmp a b = .gt) : (cmp a b).isLE := by
  cases hc : cmp a b with
  | lt => rfl
  | eq => rfl
  | gt => exact absurd hc h

theorem not_gt_of_isLE {a b : α} (h : (cmp a b).isLE) : cmp a b ≠ .gt := by
  intro hgt
  rw [hgt] at h
  cases h

variable [TransCmp cmp]

theorem isLE_self (a : α) : (cmp a a).isLE := Ordering.isLE_of_eq_eq ReflCmp.compare_self

theorem isLE_of_not_lt {a b : α} (h : ¬cmp a b = .lt) : (cmp b a).isLE :=
  isLE_of_not_gt fun hgt => h (OrientedCmp.gt_iff_lt.mp hgt)

/-! ### Which of two values wins

With `w = .lt` the smaller of two values wins, with `w = .gt` the larger. -/

section Wins

variable {w : Ordering} {a b v : α}

theorem not_wins_winner (hw : w = .lt ∨ w = .gt) (hab : cmp a b = w) (hv : cmp v b ≠ w) : cmp v a ≠ w := by
  intro hva
  rcases hw with rfl | rfl
  · exact hv (TransCmp.lt_trans hva hab)
  · exact hv (TransCmp.gt_trans hva hab)

/-- A value that does not win over `a` does not win over what `a` does not win over. -/
theorem not_wins_trans (hw : w = .lt ∨ w = .gt) (hab : cmp a b ≠ w) (hv : cmp v a ≠ w) : cmp v b ≠ w := by
  intro hvb
  rcases hw with rfl | rfl
  · exact hv (TransCmp.lt_of_lt_of_isLE hvb (isLE_of_not_lt hab))
  · have hba : cmp b v = .lt := OrientedCmp.gt_iff_lt.mp hvb
    exact hv (OrientedCmp.gt_iff_lt.mpr (TransCmp.lt_of_isLE_of_lt (isLE_of_not_gt hab) hba))

theorem not_lt_of_isLE (h : (cmp a v).isLE) : cmp v a ≠ .lt := fun hlt => OrientedCmp.not_isLE_of_lt hlt h

end Wins

theorem isLE_lowered {a v : α} :
    (cmp (if cmp v a = .lt then v else a) a).isLE ∧ (cmp (if cmp v a = .lt then v else a) v).isLE := by
  split
  next h => exact ⟨Ordering.isLE_of_eq_lt h, isLE_self v⟩
  next h => exact ⟨isLE_self a, isLE_of_not_lt h⟩

theorem raised {a v : α} :
    (cmp a (if cmp v a = .gt then v else a)).isLE ∧ (cmp v (if cmp v a = .gt then v else a)).isLE := by
  split
  next h => exact ⟨Ordering.isLE_of_eq_lt (OrientedCmp.gt_iff_lt.mp h), isLE_self v⟩
  next h => exact ⟨isLE_self a, isLE_of_not_gt h⟩

/-- **One more value.** -/
theorem spans_widen {seen : List α} {o : Option (Extremes α)} (h : Spans cmp seen o) (v : α) :
    Spans cmp (seen ++ [v]) (widen cmp o v) := by
  cases o with
  | none =>
    cases h
    refine ⟨by simp, by simp, fun u hu => ?_⟩
    rw [List.nil_append, List.mem_singleton] at hu
    subst hu
    exact ⟨isLE_self u, isLE_self u⟩
  | some e =>
    obtain ⟨hlo, hhi, hall⟩ := h
    refine ⟨?_, ?_, fun u hu => ?_⟩
    · dsimp only; split <;> simp [hlo]
    · dsimp only; split <;> simp [hhi]
    · rcases List.mem_append.mp hu with hu | hu
      · obtain ⟨hl, hh⟩ := hall u hu
        exact ⟨TransCmp.isLE_trans isLE_lowered.1 hl, TransCmp.isLE_trans hh raised.1⟩
      · rw [List.mem_singleton.mp hu]
        exact ⟨isLE_lowered.2, raised.2⟩

/-- **The extremes of a list** are of its values and cover them all. -/
theorem spans_extremes (vs : List α) : Spans cmp vs (extremes cmp vs) := by
  induction vs using List.reverseRecOn with
  | nil => rfl
  | append_singleton vs v ih =>
    rw [extremes_concat]
    exact spans_widen ih v

theorem widenElse_eq {seen : List α} {o : Option (Extremes α)} (h : Spans cmp seen o) (v : α) :
    widenElse cmp o v = widen cmp o v := by
  cases o with
  | none => rfl
  | some e =>
    obtain ⟨hlo, -, hall⟩ := h
    have hends : (cmp e.lo e.hi).isLE := (hall e.lo hlo).2
    by_cases hlt : cmp v e.lo = .lt
    · have hle : ¬cmp v e.hi = .gt := by
        rw [TransCmp.lt_of_lt_of_isLE hlt hends]
        exact Ordering.noConfusion
      simp [widenElse, widen, hlt, hle]
    · by_cases hgt : cmp v e.hi = .gt <;> simp [widenElse, widen, hlt, hgt]

end Scan

end Lib
