import Mathlib.Tactic.Common

/-!
# Programs with two kinds of errors

C code that reports errors by `longjmp` and C++ code that throws exceptions, mixed in one call stack. A block around a
call handles one of the two kinds and is passed over by the other: `catch` blocks and destructors see exceptions only
(`catchAll`, `destructing`), the handlers of the `longjmp` mechanism see its errors only (`pgTry`, `pgFinally`); `guarded`
turns exceptions into errors at a boundary. A program works on a state that no error rolls back.

`Spec P p Q` says that `p`, run from a state in `P`, ends as `Q` says of the end and the state; there is a rule for each
construct.
-/

namespace Lib

/-- How a call ends. -/
inductive Exit (α : Type) where
  | ret (a : α)
  | longjmp
  | thrown
  deriving DecidableEq, Repr

def Exit.returns {α : Type} : Exit α → Bool
  | .ret _ => true
  | .longjmp => false
  | .thrown => false

/-- A program over a state. -/
def Prog (σ α : Type) := σ → Exit α × σ

namespace Prog

variable {σ α β : Type}

instance : Monad (Prog σ) where
  pure a := fun s => (.ret a, s)
  bind p k := fun s =>
    match p s with
    | (.ret a, t) => k a t
    | (.longjmp, t) => (.longjmp, t)
    | (.thrown, t) => (.thrown, t)

/-- A call that does not touch the state. -/
def call (e : Exit α) : Prog σ α := fun s => (e, s)

def get : Prog σ σ := fun s => (.ret s, s)

def update (f : σ → σ) : Prog σ Unit := fun s => (.ret (), f s)

/-- A step under a condition. -/
def when (c : Bool) (p : Prog σ Unit) : Prog σ Unit := if c then p else pure ()

/-- `try { p } catch (...) { handler }`. -/
def catchAll (p handler : Prog σ α) : Prog σ α := fun s =>
  match p s with
  | (.thrown, t) => handler t
  | r => r

/-- `PG_TRY(); { p } PG_CATCH(); { handler } PG_END_TRY();`. -/
def pgTry (p handler : Prog σ α) : Prog σ α := fun s =>
  match p s with
  | (.longjmp, t) => handler t
  | r => r

/-- `PG_TRY(); { p } PG_FINALLY(); { f } PG_END_TRY();`, where the second block only writes the state. -/
def pgFinally (p : Prog σ α) (f : σ → σ) : Prog σ α := fun s =>
  match p s with
  | (.thrown, t) => (.thrown, t)
  | (e, t) => (e, f t)

/-- A scope whose destructor writes the state. -/
def destructing (p : Prog σ α) (f : σ → σ) : Prog σ α := fun s =>
  match p s with
  | (.longjmp, t) => (.longjmp, t)
  | (e, t) => (e, f t)

/-- A boundary at which exceptions become errors. -/
def guarded (p : Prog σ α) : Prog σ α := fun s =>
  match p s with
  | (.thrown, t) => (.longjmp, t)
  | r => r

section Equations

variable (s : σ)

@[simp] theorem pure_run (a : α) : (pure a : Prog σ α) s = (.ret a, s) := rfl

@[simp] theorem call_run (e : Exit α) : (call e : Prog σ α) s = (e, s) := rfl

@[simp] theorem get_run : (get : Prog σ σ) s = (.ret s, s) := rfl

@[simp] theorem update_run (f : σ → σ) : update f s = (.ret (), f s) := rfl

@[simp] theorem bind_run (p : Prog σ α) (k : α → Prog σ β) : (p >>= k) s =
    match p s with
    | (.ret a, t) => k a t
    | (.longjmp, t) => (.longjmp, t)
    | (.thrown, t) => (.thrown, t) := rfl

@[simp] theorem catchAll_run (p handler : Prog σ α) : catchAll p handler s =
    match p s with
    | (.thrown, t) => handler t
    | r => r := rfl

@[simp] theorem pgTry_run (p handler : Prog σ α) : pgTry p handler s =
    match p s with
    | (.longjmp, t) => handler t
    | r => r := rfl

@[simp] theorem pgFinally_run (p : Prog σ α) (f : σ → σ) : pgFinally p f s =
    match p s with
    | (.thrown, t) => (.thrown, t)
    | (e, t) => (e, f t) := rfl

theorem destructing_of_ne {p : Prog σ α} {f : σ → σ} (h : (p s).1 ≠ .longjmp) :
    (destructing p f s).2 = f (p s).2 := by
  rcases hrun : p s with ⟨e, t⟩
  rw [hrun] at h
  cases e with
  | ret a => simp [destructing, hrun]
  | longjmp => exact absurd rfl h
  | thrown => simp [destructing, hrun]

theorem destructing_id (p : Prog σ α) : destructing p (fun t => t) s = p s := by
  rcases hrun : p s with ⟨e, t⟩
  cases e <;> simp [destructing, hrun]

@[simp] theorem guarded_run (p : Prog σ α) : guarded p s =
    match p s with
    | (.thrown, t) => (.longjmp, t)
    | r => r := rfl

end Equations

/-! ## Pre- and postconditions -/

def Spec (P : σ → Prop) (p : Prog σ α) (Q : Exit α → σ → Prop) : Prop := ∀ s, P s → Q (p s).1 (p s).2

/-- A return in `A`, or an error in `B`; no exception. -/
def Ends (A : α → σ → Prop) (B : σ → Prop) : Exit α → σ → Prop
  | .ret a => A a
  | .longjmp => B
  | .thrown => fun _ => False

/-- `I` holds after a return and after an error, if it held before. -/
def Keeps (I : σ → Prop) (p : Prog σ α) : Prop := Spec I p (Ends (fun _ => I) I)

section Rules

variable {P P' I : σ → Prop} {A : α → σ → Prop} {B B' : σ → Prop} {C : β → σ → Prop} {p handler : Prog σ α}

theorem Spec.mono {A' : α → σ → Prop} (h : Spec P p (Ends A B)) (hpre : ∀ s, P' s → P s) (hret : ∀ a s, A a s → A' a s)
    (hjump : ∀ s, B s → B' s) : Spec P' p (Ends A' B') := by
  intro s hs
  have hq := h s (hpre s hs)
  rcases hrun : p s with ⟨e, t⟩
  rw [hrun] at hq
  cases e with
  | ret a => exact hret a t hq
  | longjmp => exact hjump t hq
  | thrown => exact hq

theorem spec_pure {a : α} (h : ∀ s, P s → A a s) : Spec P (pure a) (Ends A B) := h

theorem spec_longjmp (h : ∀ s, P s → B s) : Spec P (call .longjmp) (Ends A B) := h

theorem spec_update {f : σ → σ} {A : Unit → σ → Prop} (h : ∀ s, P s → A () (f s)) : Spec P (update f) (Ends A B) := h

theorem Spec.bind {k : α → Prog σ β} (hp : Spec P p (Ends A B)) (hk : ∀ a, Spec (A a) (k a) (Ends C B)) :
    Spec P (p >>= k) (Ends C B) := by
  intro s hs
  have hq := hp s hs
  rw [bind_run]
  rcases hrun : p s with ⟨e, t⟩
  rw [hrun] at hq
  cases e with
  | ret a => exact hk a t hq
  | longjmp => exact hq
  | thrown => exact hq

theorem Spec.pgTry (hp : Spec P p (Ends A B)) (hh : Spec B handler (Ends A B')) :
    Spec P (p.pgTry handler) (Ends A B') := by
  intro s hs
  have hq := hp s hs
  rw [pgTry_run]
  rcases hrun : p s with ⟨e, t⟩
  rw [hrun] at hq
  cases e with
  | ret a => exact hq
  | longjmp => exact hh t hq
  | thrown => exact hq.elim

theorem spec_when {c : Bool} {q : Prog σ Unit} {A : Unit → σ → Prop} (hyes : c = true → Spec P q (Ends A B))
    (hno : c = false → ∀ s, P s → A () s) : Spec P (when c q) (Ends A B) := by
  cases c with
  | true => exact hyes rfl
  | false => exact spec_pure (hno rfl)

theorem spec_guarded {Q : σ → Prop} (h : ∀ s, P s → Q (p s).2) : Spec P p.guarded (Ends (fun _ => Q) Q) := by
  intro s hs
  have hq := h s hs
  rw [guarded_run]
  rcases hrun : p s with ⟨e, t⟩
  rw [hrun] at hq
  cases e <;> exact hq

theorem keeps_longjmp : Keeps I (call .longjmp : Prog σ α) := fun _ hs => hs

theorem keeps_pure (a : α) : Keeps I (pure a : Prog σ α) := fun _ hs => hs

theorem keeps_update {f : σ → σ} (h : ∀ s, I s → I (f s)) : Keeps I (update f) := h

theorem Keeps.bind {k : α → Prog σ β} (hp : Keeps I p) (hk : ∀ a, Keeps I (k a)) : Keeps I (p >>= k) :=
  Spec.bind hp hk

theorem Keeps.pgTry (hp : Keeps I p) (hh : Keeps I handler) : Keeps I (p.pgTry handler) := Spec.pgTry hp hh

theorem Keeps.when {q : Prog σ Unit} (hq : Keeps I q) (c : Bool) : Keeps I (Prog.when c q) :=
  spec_when (fun _ => hq) fun _ _ hs => hs

theorem keeps_guarded (h : ∀ s, I s → I (p s).2) : Keeps I p.guarded := spec_guarded h

theorem bind_keeps {Q : σ → Prop} {k : α → Prog σ β} {s : σ} (hp : Q (p s).2) (hk : ∀ a t, Q t → Q (k a t).2) :
    Q ((p >>= k) s).2 := by
  rw [bind_run]
  rcases hrun : p s with ⟨e, t⟩
  rw [hrun] at hp
  cases e with
  | ret a => exact hk a t hp
  | longjmp => exact hp
  | thrown => exact hp

end Rules

end Prog

end Lib
