import Mathlib.Data.List.Sort

/-!
# Lists in an allowed order

An ordering request leaves open how equal elements follow each other, so a sort is a relation between a list and its
arrangements (`Arranged`), not a function. Comparisons are built from those of the single keys (`lexCmp`), each of which
may run backwards and places its missing values first or last (`nullCmp`).
-/

namespace Lib

open Std

section Comparisons

variable {α V : Type*}

/-- The keys one after the other. -/
def lexCmp (cmps : List (α → α → Ordering)) : α → α → Ordering := cmps.foldr compareLex fun _ _ => .eq

/-- One key: values by `cmp`, backwards on request, missing values at one end. -/
def nullCmp (cmp : V → V → Ordering) (descending nullsFirst : Bool) : Option V → Option V → Ordering
  | none, none => .eq
  | none, some _ => if nullsFirst then .lt else .gt
  | some _, none => if nullsFirst then .gt else .lt
  | some a, some b => if descending then cmp b a else cmp a b

theorem nullCmp_trans (cmp : V → V → Ordering) [TransCmp cmp] (descending nullsFirst : Bool) :
    TransCmp (nullCmp cmp descending nullsFirst) where
  eq_swap := by
    intro a b
    cases a <;> cases b <;> cases descending <;> cases nullsFirst <;> simp [nullCmp]
    all_goals exact OrientedCmp.eq_swap
  isLE_trans := by
    intro a b c
    cases a <;> cases b <;> cases c <;> cases descending <;> cases nullsFirst <;> simp [nullCmp]
    all_goals first
      | exact TransCmp.isLE_trans
      | exact fun hab hbc => TransCmp.isLE_trans hbc hab

theorem lexCmp_trans {cmps : List (α → α → Ordering)} (h : ∀ c ∈ cmps, TransCmp c) : TransCmp (lexCmp cmps) := by
  induction cmps with
  | nil => exact { eq_swap := rfl, isLE_trans := fun _ _ => rfl }
  | cons c cmps ih =>
    have hc : TransCmp c := h c List.mem_cons_self
    have hrest : TransCmp (lexCmp cmps) := ih fun d hd => h d (List.mem_cons_of_mem _ hd)
    exact inferInstanceAs (TransCmp (compareLex c (lexCmp cmps)))

end Comparisons

/-- `out` is `l` in an order that the comparison allows. -/
structure Arranged {α : Type*} (cmp : α → α → Ordering) (l out : List α) : Prop where
  perm : out.Perm l
  sorted : out.Pairwise fun a b => (cmp a b).isLE

section Arrangements

variable {α β : Type*} {cmp : α → α → Ordering} {l l' out : List α}

theorem arranged_exists (h : TransCmp cmp) (l : List α) : ∃ out, Arranged cmp l out := by
  have htotal : Std.Total fun a b : α => (cmp a b).isLE := by
    constructor
    intro a b
    have hswap : cmp b a = (cmp a b).swap := OrientedCmp.eq_swap
    rw [hswap]
    cases cmp a b <;> simp
  have htrans : IsTrans α fun a b : α => (cmp a b).isLE := ⟨fun _ _ _ => TransCmp.isLE_trans⟩
  exact ⟨_, List.perm_insertionSort _ l, List.pairwise_insertionSort (fun a b => (cmp a b).isLE) l⟩

theorem Arranged.of_perm (h : Arranged cmp l out) (hp : l.Perm l') : Arranged cmp l' out := ⟨h.perm.trans hp, h.sorted⟩

theorem Arranged.map {cmp' : β → β → Ordering} {f : α → β} (h : Arranged cmp l out)
    (hf : ∀ a ∈ l, ∀ b ∈ l, cmp' (f a) (f b) = cmp a b) : Arranged cmp' (l.map f) (out.map f) := by
  refine ⟨h.perm.map f, List.pairwise_map.mpr ?_⟩
  refine h.sorted.imp_of_mem ?_
  intro a b ha hb hab
  rw [hf a (h.perm.subset ha) b (h.perm.subset hb)]
  exact hab

end Arrangements

end Lib
