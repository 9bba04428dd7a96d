import Mathlib.Logic.Relation

/-!
# Runs of a transition system

A run is a chain of steps (`Relation.ReflTransGen`). An invariant is what holds at the start and is kept by every step
(`run_invariant`); a goal that some step always brings closer can be reached (`run_reaches`); an action-labelled step
function gives runs from lists of actions (`trace`, `trace_run`, `trace_reaches`).
-/

namespace Lib

open Relation

section Invariants

variable {σ τ : Type*} {step : σ → σ → Prop} {a b : σ}

theorem run_invariant {P : σ → Prop} (hstep : ∀ s t, P s → step s t → P t) (hrun : ReflTransGen step a b)
    (ha : P a) : P b := by
  induction hrun with
  | refl => exact ha
  | tail _ hs ih => exact hstep _ _ ih hs

theorem run_reaches {P goal : σ → Prop} (work : σ → Nat)
    (hprogress : ∀ s, P s → goal s ∨ ∃ t, step s t ∧ P t ∧ work t < work s) (ha : P a) :
    ∃ t, ReflTransGen step a t ∧ goal t := by
  induction hn : work a using Nat.strongRecOn generalizing a with
  | ind n ih =>
    rcases hprogress a ha with hgoal | ⟨t, hstep, ht, hlt⟩
    · exact ⟨a, .refl, hgoal⟩
    · obtain ⟨u, hu, hgoal⟩ := ih (work t) (hn ▸ hlt) ht rfl
      exact ⟨u, .head hstep hu, hgoal⟩

end Invariants

section Traces

variable {σ α : Type*}

/-- The state after a list of actions, each of which must be enabled. -/
def trace (next : σ → α → Option σ) : σ → List α → Option σ
  | s, [] => some s
  | s, a :: as => (next s a).bind fun t => trace next t as

theorem trace_append (next : σ → α → Option σ) (bs : List α) : ∀ (as : List α) (s : σ),
    trace next s (as ++ bs) = (trace next s as).bind fun t => trace next t bs
  | [], _ => rfl
  | a :: as, s => by
    simp only [List.cons_append, trace, Option.bind_assoc]
    congr 1
    funext t
    exact trace_append next bs as t

theorem trace_run {next : σ → α → Option σ} {step : σ → σ → Prop} (hnext : ∀ s a t, next s a = some t → step s t) :
    ∀ {as : List α} {s t : σ}, trace next s as = some t → ReflTransGen step s t
  | [], s, t, h => by cases h; exact .refl
  | a :: as, s, t, h => by
    obtain ⟨u, hu, ht⟩ := Option.bind_eq_some_iff.mp h
    exact .head (hnext _ _ _ hu) (trace_run hnext ht)

theorem trace_reaches {next : σ → α → Option σ} {step : σ → σ → Prop}
    (hnext : ∀ s a t, next s a = some t → step s t) (s : σ) (as : List α) (p : σ → Bool)
    (h : (trace next s as).any p = true) : ∃ t, ReflTransGen step s t ∧ p t = true := by
  cases ht : trace next s as with
  | none => rw [ht] at h; cases h
  | some t =>
    rw [ht] at h
    exact ⟨t, trace_run hnext ht, h⟩

end Traces

end Lib
