import Mathlib.Logic.Function.Basic
import Mathlib.Data.List.Basic

/-!
# Regions of memory

A region has cells and a capacity. A write goes through an index of some machine type, of which `limit` is the bound: it
fails where the index does not fit or leaves the region. `fill` makes a run of writes at consecutive places;
`fill_spec` and `exists_fill` say when it succeeds and what it leaves.
-/

namespace Lib

/-- `cap` cells. What `cell` says past the capacity is what a larger region would find there. -/
structure Region (α : Type*) where
  cap : Nat
  cell : Nat → α

namespace Region

variable {α : Type*} {limit off : Nat} {r r' : Region α} {fs : List (α → α)}

def put (limit : Nat) (r : Region α) (i : Nat) (f : α → α) : Option (Region α) :=
  if i < limit ∧ i < r.cap then some { r with cell := Function.update r.cell i (f (r.cell i)) } else none

/-- The writes `fs`, one cell after the other from `off` on. -/
def fill (limit : Nat) (r : Region α) (off : Nat) : List (α → α) → Option (Region α)
  | [] => some r
  | f :: fs => (r.put limit off f).bind fun r => r.fill limit (off + 1) fs

theorem put_eq_some {i : Nat} {f : α → α} (h : r.put limit i f = some r') :
    i < limit ∧ i < r.cap ∧ r' = { r with cell := Function.update r.cell i (f (r.cell i)) } := by
  unfold put at h
  split at h
  · rename_i hi
    cases h
    exact ⟨hi.1, hi.2, rfl⟩
  · cases h

theorem fill_cons {f : α → α} (h : r.fill limit off (f :: fs) = some r') :
    ∃ mid, r.put limit off f = some mid ∧ mid.fill limit (off + 1) fs = some r' := by
  rw [fill, Option.bind_eq_some_iff] at h
  exact h

/-- What a run of writes leaves: the run, and all else as it was. -/
structure Filled (limit : Nat) (r : Region α) (off : Nat) (fs : List (α → α)) (r' : Region α) : Prop where
  cap : r'.cap = r.cap
  outside : ∀ k, k < off ∨ off + fs.length ≤ k → r'.cell k = r.cell k
  inside : ∀ (i : Nat) f, fs[i]? = some f → r'.cell (off + i) = f (r.cell (off + i))
  room : fs ≠ [] → off + fs.length ≤ limit ∧ off + fs.length ≤ r.cap

theorem fill_spec (h : r.fill limit off fs = some r') : Filled limit r off fs r' := by
  induction fs generalizing r off with
  | nil =>
    cases h
    exact ⟨rfl, fun _ _ => rfl, nofun, fun hne => absurd rfl hne⟩
  | cons f fs ih =>
    obtain ⟨mid, hput, hrest⟩ := fill_cons h
    obtain ⟨hlimit, hcap, rfl⟩ := put_eq_some hput
    have hfilled := ih hrest
    refine ⟨hfilled.cap, ?_, ?_, ?_⟩
    · intro k hk
      rw [List.length_cons] at hk
      rw [hfilled.outside k (by omega)]
      exact Function.update_of_ne (by omega) _ _
    · intro i g hg
      cases i with
      | zero =>
        cases hg
        rw [hfilled.outside (off + 0) (by omega)]
        exact Function.update_self ..
      | succ i =>
        have hcell := hfilled.inside i g hg
        rw [show off + 1 + i = off + (i + 1) by omega] at hcell
        rw [hcell]
        exact congrArg g (Function.update_of_ne (by omega) _ _)
    · intro _
      rw [List.length_cons]
      by_cases hnil : fs = []
      · subst hnil
        rw [List.length_nil]
        omega
      · have hroom := hfilled.room hnil
        dsimp only at hroom
        omega

theorem exists_fill (r : Region α) (fs : List (α → α)) (hlimit : off + fs.length ≤ limit)
    (hcap : off + fs.length ≤ r.cap) : ∃ r', r.fill limit off fs = some r' := by
  induction fs generalizing r off with
  | nil => exact ⟨r, rfl⟩
  | cons f fs ih =>
    rw [List.length_cons] at hlimit hcap
    rw [fill, put, if_pos ⟨by omega, by omega⟩, Option.bind_some]
    exact ih _ (by omega) (by dsimp only; omega)

end Region

end Lib
