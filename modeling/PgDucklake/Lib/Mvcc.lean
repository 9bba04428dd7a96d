import Mathlib.Data.List.Basic
import Mathlib.Logic.Function.Basic
import Mathlib.Tactic.Common

/-!
# Row versions and what a transaction sees of them

A heap is a list of row versions. Each carries the transaction that created it and, once it was deleted or replaced, the
transaction that did so. A command reads the heap through the set of transactions it sees (`view`): the committed ones
and its own.

- `view_insertRow` and `view_updateRows` say what inserting and updating do to the view of the writer;
- `view_insertRow_unseen` and `view_updateRows_unseen` that others do not see it before the commit;
- `seen_commit` that the commit makes what the transaction saw what everyone sees;
- `Untouched` transactions see what is committed (`view_untouched`).
-/

namespace Lib

variable {α : Type*}

/-- State of a transaction id. -/
inductive XidStatus
  | inProgress
  | committed
  | aborted
deriving DecidableEq, Repr

/-- A row version. -/
structure Version (α : Type*) where
  xmin : Nat
  cmin : Nat
  xmax : Option Nat
  data : α
deriving DecidableEq, Repr

/-- The transactions whose effects are committed. -/
def committedIn (status : Nat → XidStatus) (x : Nat) : Bool := status x == .committed

/-- The transactions whose effects a command of `me` sees. -/
def seenBy (status : Nat → XidStatus) (me : Nat) (x : Nat) : Bool := committedIn status x || x == me

/-- Created by a transaction in `sees` and not deleted by one. -/
def Version.visible (sees : Nat → Bool) (v : Version α) : Bool := sees v.xmin && !v.xmax.any sees

/-- The rows a command sees. -/
def view (sees : Nat → Bool) (heap : List (Version α)) : List α := (heap.filter (·.visible sees)).map (·.data)

/-- The rows created by one transaction that a command sees. -/
def viewOf (sees : Nat → Bool) (x : Nat) (heap : List (Version α)) : List α :=
  (heap.filter fun v => v.xmin == x && v.visible sees).map (·.data)

/-- INSERT. -/
def insertRow (x cmd : Nat) (a : α) (heap : List (Version α)) : List (Version α) := heap ++ [⟨x, cmd, none, a⟩]

/-- UPDATE of the visible versions that satisfy `p`: the old version ends with the new one's transaction. -/
def updateRows (sees : Nat → Bool) (x cmd : Nat) (p : Version α → Bool) (f : α → α) (heap : List (Version α)) :
    List (Version α) :=
  heap.map (fun v => if v.visible sees && p v then { v with xmax := some x } else v) ++
    (heap.filter fun v => v.visible sees && p v).map fun v => ⟨x, cmd, none, f v.data⟩

/-- The number of rows an UPDATE processes. -/
def updateCount (sees : Nat → Bool) (p : Version α → Bool) (heap : List (Version α)) : Nat :=
  (heap.filter fun v => v.visible sees && p v).length

/-! ## Views -/

section Views

variable {sees sees' : Nat → Bool} {heap : List (Version α)} {x cmd : Nat}

theorem mem_view {a : α} : a ∈ view sees heap ↔ ∃ v ∈ heap, v.visible sees = true ∧ v.data = a := by
  simp [view, and_assoc]

theorem view_append (h₁ h₂ : List (Version α)) : view sees (h₁ ++ h₂) = view sees h₁ ++ view sees h₂ := by
  simp [view]

theorem view_congr (h : ∀ v ∈ heap, v.visible sees = v.visible sees') : view sees heap = view sees' heap := by
  unfold view
  rw [List.filter_congr h]

theorem view_insertRow (hx : sees x = true) (a : α) : view sees (insertRow x cmd a heap) = view sees heap ++ [a] := by
  simp [insertRow, view, Version.visible, hx]

theorem view_insertRow_unseen (hx : sees x = false) (a : α) :
    view sees (insertRow x cmd a heap) = view sees heap := by
  simp [insertRow, view, Version.visible, hx]

theorem view_updateRows (hx : sees x = true) (p : Version α → Bool) (f : α → α) :
    view sees (updateRows sees x cmd p f heap) =
      ((heap.filter fun v => v.visible sees && !p v).map (·.data)) ++
        (heap.filter fun v => v.visible sees && p v).map fun v => f v.data := by
  rw [updateRows, view_append]
  congr 1
  · induction heap with
    | nil => rfl
    | cons v heap ih =>
      unfold view at ih ⊢
      rw [List.map_cons]
      by_cases hv : v.visible sees = true <;> by_cases hp : p v = true
      · rw [if_pos (by simp [hv, hp]), List.filter_cons_of_neg (by simp [Version.visible, hx]), ih,
          List.filter_cons_of_neg (by simp [hp])]
      · rw [if_neg (by simp [hp]), List.filter_cons_of_pos hv, List.map_cons, ih,
          List.filter_cons_of_pos (by simp [hv, hp]), List.map_cons]
      · rw [if_neg (by simp [hv]), List.filter_cons_of_neg hv, ih, List.filter_cons_of_neg (by simp [hv])]
      · rw [if_neg (by simp [hv]), List.filter_cons_of_neg hv, ih, List.filter_cons_of_neg (by simp [hv])]
  · simp [view, List.filter_map, Version.visible, hx, Function.comp_def]

theorem view_updateRows_perm (hx : sees x = true) (p : Version α → Bool) (f : α → α) :
    (view sees (updateRows sees x cmd p f heap)).Perm
      ((heap.filter (·.visible sees)).map fun v => if p v then f v.data else v.data) := by
  rw [view_updateRows hx]
  induction heap with
  | nil => exact .nil
  | cons v heap ih =>
    by_cases hv : v.visible sees = true
    · by_cases hp : p v = true
      · simp only [List.filter_cons, hv, hp, Bool.not_true, Bool.and_false, Bool.and_true, Bool.false_eq_true, if_false,
          if_true, List.map_cons]
        exact List.perm_middle.trans (ih.cons _)
      · simp only [List.filter_cons, hv, hp, Bool.not_false, Bool.and_false, Bool.and_true, Bool.false_eq_true, if_false,
          if_true, List.map_cons, List.cons_append]
        exact ih.cons _
    · simp only [List.filter_cons, hv, Bool.false_and, Bool.false_eq_true, if_false]
      exact ih

theorem view_updateRows_data (hx : sees x = true) (q : α → Bool) (f : α → α) :
    view sees (updateRows sees x cmd (fun v => q v.data) f heap) =
      ((view sees heap).filter fun a => !q a) ++ ((view sees heap).filter q).map f := by
  rw [view_updateRows hx]
  simp only [view, List.filter_map, List.filter_filter, List.map_map, Function.comp_def]
  congr 3 <;> funext v <;> exact Bool.and_comm _ _

theorem view_updateRows_unseen (hx : sees' x = false) (hsub : ∀ y, sees' y = true → sees y = true)
    (p : Version α → Bool) (f : α → α) : view sees' (updateRows sees x cmd p f heap) = view sees' heap := by
  rw [updateRows, view_append]
  have hnew : view sees' ((heap.filter fun v => v.visible sees && p v).map fun v =>
      (⟨x, cmd, none, f v.data⟩ : Version α)) = [] := by
    simp [view, List.filter_map, Version.visible, hx, Function.comp_def]
  rw [hnew, List.append_nil]
  clear hnew
  induction heap with
  | nil => rfl
  | cons v heap ih =>
    unfold view at ih ⊢
    rw [List.map_cons]
    by_cases hc : (v.visible sees && p v) = true
    · rw [if_pos hc]
      -- the version that was replaced had not been ended by anyone `sees'` sees
      have hold : v.xmax.any sees' = false := by
        have hv : v.visible sees = true := (Bool.and_eq_true_iff.mp hc).1
        simp only [Version.visible, Bool.and_eq_true, Bool.not_eq_true'] at hv
        cases hm : v.xmax with
        | none => rfl
        | some y =>
          rw [hm, Option.any_some] at hv
          cases hy : sees' y with
          | false => simp [hy]
          | true => rw [hsub y hy] at hv; exact absurd hv.2 (by simp)
      by_cases hm : sees' v.xmin = true
      · rw [List.filter_cons_of_pos (by simp [Version.visible, hm, hx]), List.map_cons, ih,
          List.filter_cons_of_pos (by simp [Version.visible, hm, hold]), List.map_cons]
      · rw [List.filter_cons_of_neg (by simp [Version.visible, hm]), ih,
          List.filter_cons_of_neg (by simp [Version.visible, hm])]
    · rw [if_neg hc]
      by_cases hv : v.visible sees' = true
      · rw [List.filter_cons_of_pos hv, List.map_cons, ih, List.filter_cons_of_pos hv, List.map_cons]
      · rw [List.filter_cons_of_neg hv, ih, List.filter_cons_of_neg hv]

end Views

/-! ## Transactions -/

section Transactions

variable {status : Nat → XidStatus} {heap : List (Version α)} {me x cmd : Nat}

@[simp] theorem seenBy_self : seenBy status me me = true := by simp [seenBy]

theorem committedIn_of_ne (h : status x ≠ .committed) : committedIn status x = false := by simp [committedIn, h]

theorem committedIn_seenBy (h : committedIn status x = true) : seenBy status me x = true := by simp [seenBy, h]

theorem visible_seenBy {v : Version α} (h : v.visible (seenBy status me) = true) (hx : v.xmin ≠ me) :
    v.visible (committedIn status) = true := by
  simp only [Version.visible, Bool.and_eq_true, Bool.not_eq_true'] at h ⊢
  obtain ⟨hmin, hmax⟩ := h
  refine ⟨by simpa [seenBy, beq_eq_false_iff_ne.mpr hx] using hmin, ?_⟩
  cases hm : v.xmax with
  | none => rfl
  | some y =>
    rw [hm, Option.any_some] at hmax
    rw [Option.any_some]
    exact (Bool.or_eq_false_iff.mp hmax).1

theorem seen_commit : committedIn (Function.update status me .committed) = seenBy status me := by
  funext y
  by_cases h : y = me
  · subst h; simp [committedIn]
  · simp [committedIn, seenBy, h]

theorem seen_abort (h : status me ≠ .committed) :
    committedIn (Function.update status me .aborted) = committedIn status := by
  funext y
  by_cases hy : y = me
  · subst hy; simp [committedIn, h]
  · simp [committedIn, hy]

/-- No version of the heap was created or ended by the transaction. -/
def Untouched (x : Nat) (heap : List (Version α)) : Prop := ∀ v ∈ heap, v.xmin ≠ x ∧ v.xmax ≠ some x

theorem visible_untouched {v : Version α} (h : v.xmin ≠ me ∧ v.xmax ≠ some me) :
    v.visible (seenBy status me) = v.visible (committedIn status) := by
  have hmin : seenBy status me v.xmin = committedIn status v.xmin := by simp [seenBy, h.1]
  unfold Version.visible
  rw [hmin]
  cases hm : v.xmax with
  | none => rfl
  | some y =>
    have hy : y ≠ me := fun e => h.2 (by rw [hm, e])
    simp [seenBy, beq_eq_false_iff_ne.mpr hy]

theorem view_untouched (h : Untouched me heap) : view (seenBy status me) heap = view (committedIn status) heap :=
  view_congr fun v hv => visible_untouched (h v hv)

theorem Untouched.insertRow (h : Untouched me heap) (hx : x ≠ me) (a : α) :
    Untouched me (insertRow x cmd a heap) := by
  intro v hv
  rcases List.mem_append.mp hv with hv | hv
  · exact h v hv
  · rw [List.mem_singleton.mp hv]
    exact ⟨hx, by simp⟩

theorem Untouched.updateRows (h : Untouched me heap) (hx : x ≠ me) (sees : Nat → Bool) (p : Version α → Bool)
    (f : α → α) : Untouched me (updateRows sees x cmd p f heap) := by
  intro v hv
  rcases List.mem_append.mp hv with hv | hv
  · obtain ⟨u, hu, rfl⟩ := List.mem_map.mp hv
    split
    · exact ⟨(h u hu).1, by simpa using hx⟩
    · exact h u hu
  · obtain ⟨u, _, rfl⟩ := List.mem_map.mp hv
    exact ⟨hx, by simp⟩

end Transactions

end Lib
