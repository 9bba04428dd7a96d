import Mathlib.Algebra.BigOperators.Group.List.Basic
import Mathlib.Data.List.Basic
import Mathlib.Tactic.Common
import Mathlib.Algebra.Order.Ring.Int

/-!
# Ledgers of consecutive ranges

A ledger records, newest first, ranges taken from per-key counters. It is sequential when every range starts where the
key's counter stood (`Sequential`). Then the ranges of a key are disjoint (`Sequential.pairwise`) and below the counter
(`Sequential.below`), and the counter is its start plus the sizes of all ranges (`counter`).
-/

namespace Lib

variable {κ : Type*} [DecidableEq κ]

/-- A range of `count` numbers from `start` on, taken from the counter of `key`. -/
structure Range (κ : Type*) where
  key : κ
  start : Nat
  count : Nat
deriving DecidableEq, Repr

/-- The total size of the ranges of a key. -/
def allotted (log : List (Range κ)) (k : κ) : Nat := ((log.filter (·.key == k)).map (·.count)).sum

/-- The counter of a key after the ranges of the ledger. -/
def counter (base : κ → Nat) (log : List (Range κ)) (k : κ) : Nat := base k + allotted log k

/-- Every range starts at its key's counter. -/
def Sequential (base : κ → Nat) : List (Range κ) → Prop
  | [] => True
  | r :: log => r.start = counter base log r.key ∧ Sequential base log

@[simp] theorem allotted_nil (k : κ) : allotted [] k = 0 := rfl

theorem allotted_cons (r : Range κ) (log : List (Range κ)) (k : κ) :
    allotted (r :: log) k = (if r.key = k then r.count else 0) + allotted log k := by
  unfold allotted
  by_cases h : r.key = k <;> simp [h]

theorem counter_cons (base : κ → Nat) (r : Range κ) (log : List (Range κ)) (k : κ) :
    counter base (r :: log) k = counter base log k + if r.key = k then r.count else 0 := by
  simp only [counter, allotted_cons]
  omega

theorem counter_mono (base : κ → Nat) (r : Range κ) (log : List (Range κ)) (k : κ) :
    counter base log k ≤ counter base (r :: log) k := by
  rw [counter_cons]
  omega

theorem Sequential.below {base : κ → Nat} :
    ∀ {log : List (Range κ)}, Sequential base log → ∀ r ∈ log, r.start + r.count ≤ counter base log r.key
  | [], _, r, hr => by cases hr
  | r₀ :: log, h, r, hr => by
    rcases List.mem_cons.mp hr with rfl | hr
    · have hcons := counter_cons base r log r.key
      have hstart := h.1
      rw [if_pos rfl] at hcons
      omega
    · exact Nat.le_trans (h.2.below r hr) (counter_mono base r₀ log r.key)

theorem Sequential.pairwise {base : κ → Nat} : ∀ {log : List (Range κ)}, Sequential base log →
    log.Pairwise fun newer older => newer.key = older.key → older.start + older.count ≤ newer.start
  | [], _ => List.Pairwise.nil
  | r₀ :: log, h => by
    refine List.Pairwise.cons (fun r hr hk => ?_) h.2.pairwise
    rw [h.1, hk]
    exact h.2.below r hr

end Lib
