import Mathlib.Data.List.Forall2
import Mathlib.Data.List.Induction

/-!
# Lists of computations that may fail

`List.mapM` over `Option`: when it fails, and how it goes together with functions on the results. Lists of rows of one
length in one flat list. The largest of a list of lengths.
-/

namespace Lib

variable {α β γ : Type}

theorem mapM_congr {f g : α → Option β} : ∀ {l : List α}, (∀ a ∈ l, f a = g a) → l.mapM f = l.mapM g
  | [], _ => rfl
  | a :: l, h => by
    rw [List.mapM_cons, List.mapM_cons, h a List.mem_cons_self,
      mapM_congr fun b hb => h b (List.mem_cons_of_mem _ hb)]

theorem mapM_eq_none_iff {f : α → Option β} {l : List α} : l.mapM f = none ↔ ∃ a ∈ l, f a = none := by
  induction l with
  | nil => simp
  | cons a l ih =>
    rw [List.mapM_cons]
    cases ha : f a with
    | none => simp [ha]
    | some b =>
      cases hl : l.mapM f with
      | none => simpa [ha, hl] using ih.mp hl
      | some bs =>
        have hnone : ¬ ∃ a ∈ l, f a = none := fun h => by simp [ih.mpr h] at hl
        simpa [ha, hl] using hnone

theorem mapM_map (f : α → Option β) (g : β → γ) (l : List α) :
    l.mapM (fun a => (f a).map g) = (l.mapM f).map (List.map g) := by
  induction l with
  | nil => rfl
  | cons a l ih =>
    rw [List.mapM_cons, List.mapM_cons, ih]
    cases f a <;> cases l.mapM f <;> rfl

theorem length_of_mapM {f : α → Option β} {l : List α} {bs : List β} (h : l.mapM f = some bs) :
    bs.length = l.length := by
  induction l generalizing bs with
  | nil =>
    cases h
    rfl
  | cons a l ih =>
    rw [List.mapM_cons] at h
    obtain ⟨b, -, h⟩ := Option.bind_eq_some_iff.mp h
    obtain ⟨bs', hl, h⟩ := Option.bind_eq_some_iff.mp h
    cases h
    rw [List.length_cons, List.length_cons, ih hl]

theorem mem_of_mapM {f : α → Option β} {l : List α} {bs : List β} (h : l.mapM f = some bs) {b : β} (hb : b ∈ bs) :
    ∃ a ∈ l, f a = some b := by
  induction l generalizing bs with
  | nil =>
    cases h
    cases hb
  | cons a l ih =>
    rw [List.mapM_cons] at h
    obtain ⟨b', ha, h⟩ := Option.bind_eq_some_iff.mp h
    obtain ⟨bs', hl, h⟩ := Option.bind_eq_some_iff.mp h
    cases h
    rcases List.mem_cons.mp hb with rfl | hb
    · exact ⟨a, List.mem_cons_self, ha⟩
    · obtain ⟨a', ha', hfound⟩ := ih hl hb
      exact ⟨a', List.mem_cons_of_mem _ ha', hfound⟩

theorem mapM_mapIdx {f : β → Option γ} {g : Nat → α → β} {r : Nat → α → γ} {l : List α}
    (h : ∀ i, ∀ a ∈ l, f (g i a) = some (r i a)) : (l.mapIdx g).mapM f = some (l.mapIdx r) := by
  induction l generalizing g r with
  | nil => rfl
  | cons a l ih =>
    have hrest := ih (g := fun i => g (i + 1)) (r := fun i => r (i + 1)) fun i b hb =>
      h (i + 1) b (List.mem_cons_of_mem _ hb)
    rw [List.mapIdx_cons, List.mapM_cons, h 0 a List.mem_cons_self, hrest, List.mapIdx_cons]
    rfl

theorem mapM_range_mapIdx (f : Nat → Option β) (g : Nat → β → γ) (n : Nat) :
    (List.range n).mapM (fun i => (f i).map (g i)) = ((List.range n).mapM f).map (List.mapIdx g) := by
  induction n with
  | zero => rfl
  | succ n ih =>
    rw [List.range_succ, List.mapM_append, List.mapM_append, ih]
    cases h : (List.range n).mapM f with
    | none => rfl
    | some bs =>
      have hlength := length_of_mapM h
      rw [List.length_range] at hlength
      cases hn : f n <;> simp [hn, hlength, List.mapIdx_append]

theorem mapM_getElem? (l : List α) : (List.range l.length).mapM (fun i => l[i]?) = some l := by
  induction l using List.reverseRecOn with
  | nil => rfl
  | append_singleton l a ih =>
    have hfront : (List.range l.length).mapM (fun i => (l ++ [a])[i]?) = (List.range l.length).mapM fun i => l[i]? :=
      mapM_congr fun i hi => List.getElem?_append_left (List.mem_range.mp hi)
    rw [List.length_append, List.length_singleton, List.range_succ, List.mapM_append, hfront, ih]
    simp

/-! ## Rows in a flat list -/

theorem length_flatten_of_length {n : Nat} {ess : List (List α)} (h : ∀ es ∈ ess, es.length = n) :
    ess.flatten.length = ess.length * n := by
  induction ess with
  | nil => simp
  | cons es ess ih =>
    rw [List.flatten_cons, List.length_append, h es List.mem_cons_self, ih fun es hes => h es (List.mem_cons_of_mem _ hes),
      List.length_cons, Nat.succ_mul, Nat.add_comm]

theorem getElem?_flatten_of_length {n k : Nat} {ess : List (List α)} (h : ∀ es ∈ ess, es.length = n) (hk : k < n)
    (i : Nat) : ess.flatten[i * n + k]? = (ess[i]?).bind (·[k]?) := by
  induction ess generalizing i with
  | nil => simp
  | cons es ess ih =>
    have hes := h es List.mem_cons_self
    rw [List.flatten_cons]
    cases i with
    | zero => rw [Nat.zero_mul, Nat.zero_add, List.getElem?_append_left (by omega)]; rfl
    | succ i =>
      rw [Nat.succ_mul, List.getElem?_append_right (by omega), List.getElem?_cons_succ,
        show i * n + n + k - es.length = i * n + k by omega]
      exact ih (fun es hes => h es (List.mem_cons_of_mem _ hes)) i

/-! ## Maxima -/

theorem foldl_max_le_iff {l : List Nat} {a b : Nat} : l.foldl max a ≤ b ↔ a ≤ b ∧ ∀ x ∈ l, x ≤ b := by
  induction l generalizing a with
  | nil => simp
  | cons x l ih => rw [List.foldl_cons, ih, Nat.max_le, List.forall_mem_cons, and_assoc]

theorem le_foldl_max {l : List Nat} {x : Nat} (h : x ∈ l) (a : Nat) : x ≤ l.foldl max a :=
  (foldl_max_le_iff.mp (Nat.le_refl _)).2 x h

end Lib
