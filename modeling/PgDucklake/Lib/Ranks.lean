import Mathlib.Data.List.Basic

/-!
# Kept positions of a list

The rank of a position is the number of kept elements before it. A kept position is determined by its rank
(`rank_injective`), kept elements stand at their ranks in the filtered list (`getElem?_filter_rank`), and so do the kept
positions in the list of them (`getElem?_keptFrom`).
-/

namespace Lib

variable {α : Type} {p : α → Bool}

/-- The number of kept elements before a position. -/
def rank (p : α → Bool) (l : List α) (i : Nat) : Nat := ((l.take i).filter p).length

theorem rank_cons_succ (a : α) (l : List α) (i : Nat) :
    rank p (a :: l) (i + 1) = (if p a then 1 else 0) + rank p l i := by
  rw [rank, List.take_succ_cons, List.filter_cons]
  split <;> simp [rank, Nat.add_comm]

theorem getElem?_filter_rank {l : List α} {i : Nat} {a : α} (h : l[i]? = some a) (hp : p a = true) :
    (l.filter p)[rank p l i]? = some a := by
  induction l generalizing i with
  | nil => simp at h
  | cons b l ih =>
    cases i with
    | zero =>
      cases Option.some.inj h
      simp [rank, hp]
    | succ i =>
      rw [rank_cons_succ, List.filter_cons]
      have hrest := ih (by simpa using h)
      split
      · rw [Nat.add_comm, List.getElem?_cons_succ]
        exact hrest
      · rwa [Nat.zero_add]

theorem rank_lt {l : List α} {i j : Nat} {a : α} (hi : l[i]? = some a) (ha : p a = true) (h : i < j) :
    rank p l i < rank p l j := by
  induction l generalizing i j with
  | nil => simp at hi
  | cons c l ih =>
    cases j with
    | zero => omega
    | succ j =>
      rw [rank_cons_succ]
      cases i with
      | zero =>
        cases Option.some.inj hi
        rw [if_pos ha, show rank p (a :: l) 0 = 0 from rfl]
        omega
      | succ i =>
        rw [rank_cons_succ]
        have := ih (by simpa using hi) (Nat.lt_of_succ_lt_succ h)
        omega

theorem rank_injective {l : List α} {i j : Nat} {a b : α} (hi : l[i]? = some a) (hj : l[j]? = some b)
    (ha : p a = true) (hb : p b = true) (h : rank p l i = rank p l j) : i = j := by
  rcases Nat.lt_trichotomy i j with hlt | heq | hgt
  · have := rank_lt hi ha hlt
    omega
  · exact heq
  · have := rank_lt hj hb hgt
    omega

/-- The positions of the kept elements, counted from `base`. -/
def keptFrom (p : α → Bool) : Nat → List α → List Nat
  | _, [] => []
  | base, a :: l => if p a then base :: keptFrom p (base + 1) l else keptFrom p (base + 1) l

theorem length_keptFrom (p : α → Bool) (base : Nat) (l : List α) :
    (keptFrom p base l).length = (l.filter p).length := by
  induction l generalizing base with
  | nil => rfl
  | cons a l ih =>
    rw [keptFrom, List.filter_cons]
    split <;> simp [ih]

theorem getElem?_keptFrom {base k pos : Nat} {l : List α} (h : (keptFrom p base l)[k]? = some pos) :
    ∃ i a, pos = base + i ∧ l[i]? = some a ∧ p a = true ∧ rank p l i = k := by
  induction l generalizing base k with
  | nil => simp [keptFrom] at h
  | cons a l ih =>
    rw [keptFrom] at h
    split at h
    · next ha =>
      cases k with
      | zero => exact ⟨0, a, (Option.some.inj h).symm, rfl, ha, rfl⟩
      | succ k =>
        obtain ⟨i, b, rfl, hi, hb, hrank⟩ := ih (by simpa using h)
        exact ⟨i + 1, b, by omega, by simpa using hi, hb, by rw [rank_cons_succ, if_pos ha]; omega⟩
    · next ha =>
      obtain ⟨i, b, rfl, hi, hb, hrank⟩ := ih h
      exact ⟨i + 1, b, by omega, by simpa using hi, hb, by rw [rank_cons_succ, if_neg ha]; omega⟩

end Lib
