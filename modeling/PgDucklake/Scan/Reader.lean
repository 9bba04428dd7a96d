import Mathlib.Data.List.Perm.Basic
import PgDucklake.Lib.Runs
import Mathlib.Algebra.Order.Ring.Int

/-!
# Reading the workers' queues

Parallel workers put their rows into one queue each; `getNextWorkerTuple` goes around the queues, takes the next row of
one that has some and drops a queue that its worker has left. Whatever the workers and the reader do in whatever order,
no row is lost or read twice (`Reading.step`, `reading_run`), the reader says that it is done only when every worker is
(`Reading.visit_eq_none`), it can always get there (`Reading.finishes`), and the rows of a single worker come out in its
order (`alone_run`).
-/

namespace PgDucklake.Scan

open Lib Relation

variable {R : Type}

/-- A worker and its queue: the rows it has yet to produce, the rows in the queue, and whether it is still attached. -/
structure Channel (R : Type) where
  pending : List R
  queue : List R
  attached : Bool
  deriving DecidableEq, Repr

/-- The rows that are still to come through a channel. -/
def Channel.rows (c : Channel R) : List R := c.queue ++ c.pending

/-- `channels` are the first `nreaders` entries of `parallel_worker_readers`, `next` is `next_parallel_reader`, and
`delivered` are the rows handed out so far, by any thread. -/
structure Reader (R : Type) where
  channels : List (Channel R)
  next : Nat
  delivered : List R
  deriving DecidableEq, Repr

/-- Workers that have produced nothing yet. -/
def Reader.start (parts : List (List R)) : Reader R := ⟨parts.map fun rows => ⟨rows, [], true⟩, 0, []⟩

/-- One round of the loop of `GetNextWorkerTuple`. It ends with NULL where there is no queue to look at. -/
def Reader.visit (s : Reader R) : Option (Reader R) :=
  match s.channels[s.next]? with
  | none => none
  | some c =>
    match c.queue with
    | row :: queue =>
      some { s with
        channels := s.channels.set s.next { c with queue := queue }
        delivered := s.delivered ++ [row] }
    | [] =>
      if c.attached then
        -- nothing to read now
        some { s with next := if s.channels.length ≤ s.next + 1 then 0 else s.next + 1 }
      else
        let channels := s.channels.eraseIdx s.next
        some { s with
          channels := channels
          next := if channels.length = 0 then s.next else if channels.length ≤ s.next then 0 else s.next }

/-- What happens next: a worker produces a row or, having produced all, leaves its queue, or the reader looks at one. -/
inductive Event
  | produce (i : Nat)
  | detach (i : Nat)
  | visit
  deriving DecidableEq, Repr

def Reader.after (s : Reader R) : Event → Option (Reader R)
  | .produce i =>
    match s.channels[i]? with
    | some ⟨row :: pending, queue, attached⟩ =>
      some { s with channels := s.channels.set i ⟨pending, queue ++ [row], attached⟩ }
    | _ => none
  | .detach i =>
    match s.channels[i]? with
    | some ⟨[], queue, true⟩ => some { s with channels := s.channels.set i ⟨[], queue, false⟩ }
    | _ => none
  | .visit => s.visit

def Reader.Step (s t : Reader R) : Prop := ∃ e, s.after e = some t

/-! ## What one event does -/

/-- The rows still to come through the queues. -/
def Reader.coming (s : Reader R) : List R := s.channels.flatMap Channel.rows

/-- One event, told by the channel it is about. -/
inductive Change (s : Reader R) : Reader R → Prop
  | produce {i : Nat} {row : R} {pending queue : List R} {attached : Bool}
      (h : s.channels[i]? = some ⟨row :: pending, queue, attached⟩) :
      Change s { s with channels := s.channels.set i ⟨pending, queue ++ [row], attached⟩ }
  | detach {i : Nat} {queue : List R} (h : s.channels[i]? = some ⟨[], queue, true⟩) :
      Change s { s with channels := s.channels.set i ⟨[], queue, false⟩ }
  | deliver {row : R} {pending queue : List R} {attached : Bool}
      (h : s.channels[s.next]? = some ⟨pending, row :: queue, attached⟩) :
      Change s { s with
        channels := s.channels.set s.next ⟨pending, queue, attached⟩
        delivered := s.delivered ++ [row] }
  | skip {pending : List R} (h : s.channels[s.next]? = some ⟨pending, [], true⟩) :
      Change s { s with next := if s.channels.length ≤ s.next + 1 then 0 else s.next + 1 }
  | drop {pending : List R} (h : s.channels[s.next]? = some ⟨pending, [], false⟩) :
      Change s { s with
        channels := s.channels.eraseIdx s.next
        next := if (s.channels.eraseIdx s.next).length = 0 then s.next
          else if (s.channels.eraseIdx s.next).length ≤ s.next then 0 else s.next }

variable {s t : Reader R}

theorem change_of_visit (h : s.visit = some t) : Change s t := by
  simp only [Reader.visit] at h
  split at h
  · cases h
  · rename_i c hc
    obtain ⟨pending, queue, attached⟩ := c
    split at h
    · rename_i row rest hq
      cases hq
      cases h
      exact .deliver hc
    · rename_i hq
      cases hq
      cases attached with
      | true =>
        simp only [if_true] at h
        cases h
        exact .skip hc
      | false =>
        simp only [Bool.false_eq_true, if_false] at h
        cases h
        exact .drop hc

theorem change_of_step (h : s.Step t) : Change s t := by
  obtain ⟨e, he⟩ := h
  cases e with
  | produce i =>
    simp only [Reader.after] at he
    split at he
    · rename_i row pending queue attached hc
      cases he
      exact .produce hc
    · cases he
  | detach i =>
    simp only [Reader.after] at he
    split at he
    · rename_i queue hc
      cases he
      exact .detach hc
    · cases he
  | visit => exact change_of_visit he

theorem step_of_change (h : Change s t) : s.Step t := by
  cases h with
  | @produce i _ _ _ _ hc => exact ⟨.produce i, by simp only [Reader.after, hc]⟩
  | @detach i _ hc => exact ⟨.detach i, by simp only [Reader.after, hc]⟩
  | deliver hc => exact ⟨.visit, by simp only [Reader.after, Reader.visit, hc]⟩
  | skip hc => exact ⟨.visit, by simp only [Reader.after, Reader.visit, hc, if_true]⟩
  | drop hc => exact ⟨.visit, by simp only [Reader.after, Reader.visit, hc, Bool.false_eq_true, if_false]⟩

/-! ## Lists of channels -/

theorem flatMap_set {α β : Type} {f : α → List β} : ∀ {l : List α} {i : Nat} {a b : α}, l[i]? = some a →
    ∃ before after, l.flatMap f = before ++ f a ++ after ∧ (l.set i b).flatMap f = before ++ f b ++ after
  | [], i, a, b, h => by simp at h
  | x :: l, 0, a, b, h => by
    cases h
    exact ⟨[], l.flatMap f, by simp, by simp⟩
  | x :: l, i + 1, a, b, h => by
    obtain ⟨before, after, h₁, h₂⟩ := flatMap_set (f := f) (b := b) (l := l) (i := i) h
    exact ⟨f x ++ before, after, by simp [h₁], by simp [h₂]⟩

theorem flatMap_eraseIdx {α β : Type} {f : α → List β} : ∀ {l : List α} {i : Nat} {a : α}, l[i]? = some a →
    f a = [] → (l.eraseIdx i).flatMap f = l.flatMap f
  | [], i, a, h, _ => by simp at h
  | x :: l, 0, a, h, ha => by
    cases h
    simp [ha]
  | x :: l, i + 1, a, h, ha => by
    have ih := flatMap_eraseIdx (f := f) (l := l) (i := i) h ha
    simp [ih]

/-! ## No row is lost -/

/-- What holds while the queues are read: the reader looks at a queue as long as there is one, a worker that has left
its queue has produced all its rows, and every row has been delivered or is still to come. -/
structure Reading (parts : List (List R)) (s : Reader R) : Prop where
  looks : s.next < s.channels.length ∨ s.channels = []
  left : ∀ c ∈ s.channels, c.attached = false → c.pending = []
  rows : (s.delivered ++ s.coming).Perm parts.flatten

theorem reading_start (parts : List (List R)) : Reading parts (.start parts) where
  looks := by cases parts <;> simp [Reader.start]
  left := by
    intro c hc hatt
    obtain ⟨rows, -, rfl⟩ := List.mem_map.mp hc
    cases hatt
  rows := by
    have hall : (Reader.start parts).coming = parts.flatten := by
      simp [Reader.start, Reader.coming, Channel.rows, List.flatMap_map]
    rw [hall]
    exact List.Perm.refl _

variable {i : Nat} {c : Channel R}

theorem coming_set {c' : Channel R} (h : s.channels[i]? = some c) (hrows : c'.rows = c.rows) :
    (s.channels.set i c').flatMap Channel.rows = s.coming := by
  obtain ⟨before, after, h₁, h₂⟩ := flatMap_set (f := Channel.rows) (b := c') h
  rw [h₂, hrows, ← h₁]
  rfl

theorem left_set {l : List (Channel R)} (hl : ∀ d ∈ l, d.attached = false → d.pending = [])
    (hc : c.attached = false → c.pending = []) : ∀ d ∈ l.set i c, d.attached = false → d.pending = [] := by
  intro d hd
  rcases List.mem_or_eq_of_mem_set hd with hd | rfl
  · exact hl d hd
  · exact hc

variable {parts : List (List R)}

theorem Reading.step (hs : Reading parts s) (h : s.Step t) :
    Reading parts t := by
  cases change_of_step h with
  | @produce i row pending queue attached hc =>
    refine ⟨by simpa using hs.looks, left_set hs.left ?_, ?_⟩
    · intro hatt
      exact absurd (hs.left _ (List.mem_of_getElem? hc) hatt) (by simp)
    · have hcoming : (s.channels.set i ⟨pending, queue ++ [row], attached⟩).flatMap Channel.rows = s.coming :=
        coming_set hc (by simp [Channel.rows])
      simpa [Reader.coming, hcoming] using hs.rows
  | @detach i queue hc =>
    refine ⟨by simpa using hs.looks, left_set hs.left fun _ => rfl, ?_⟩
    have hcoming : (s.channels.set i ⟨[], queue, false⟩).flatMap Channel.rows = s.coming := coming_set hc rfl
    simpa [Reader.coming, hcoming] using hs.rows
  | @deliver row pending queue attached hc =>
    have hleft : attached = false → pending = [] := hs.left _ (List.mem_of_getElem? hc)
    refine ⟨by simpa using hs.looks, left_set hs.left hleft, ?_⟩
    obtain ⟨before, after, h₁, h₂⟩ := flatMap_set (f := Channel.rows) (b := ⟨pending, queue, attached⟩) hc
    refine List.Perm.trans ?_ hs.rows
    simp only [Reader.coming, h₁, h₂, Channel.rows]
    -- the row moves over the queues before its own
    simp only [List.append_assoc, List.cons_append, List.nil_append]
    exact (List.perm_middle.symm).append_left s.delivered
  | skip hc =>
    have hlt : s.next < s.channels.length := (List.getElem?_eq_some_iff.mp hc).1
    refine ⟨.inl ?_, hs.left, hs.rows⟩
    dsimp only
    split <;> omega
  | @drop pending hc =>
    have hpending : pending = [] := hs.left _ (List.mem_of_getElem? hc) rfl
    refine ⟨?_, fun c hcm => hs.left c (List.mem_of_mem_eraseIdx hcm), ?_⟩
    · dsimp only
      by_cases hzero : (s.channels.eraseIdx s.next).length = 0
      · exact .inr (List.eq_nil_of_length_eq_zero hzero)
      · rw [if_neg hzero]
        left
        split <;> omega
    · have hcoming := flatMap_eraseIdx (f := Channel.rows) hc (by simp [Channel.rows, hpending])
      simpa [Reader.coming, hcoming] using hs.rows

theorem reading_run (h : ReflTransGen Reader.Step (.start parts) s) :
    Reading parts s :=
  run_invariant (fun _ _ hs hstep => hs.step hstep) h (reading_start parts)

theorem Reading.visit_eq_none (hs : Reading parts s) (h : s.visit = none) :
    s.channels = [] ∧ s.delivered.Perm parts.flatten := by
  have hnil : s.channels = [] := by
    rcases hs.looks with hlt | hnil
    · exfalso
      simp only [Reader.visit, List.getElem?_eq_getElem hlt] at h
      split at h
      · cases h
      · split at h <;> cases h
    · exact hnil
  refine ⟨hnil, ?_⟩
  simpa [Reader.coming, hnil] using hs.rows

/-! ## The reader can finish -/

/-- What is left to do for a channel: a row is produced and read, the worker leaves, the queue is dropped. -/
def Channel.work (c : Channel R) : Nat := 2 * c.pending.length + c.queue.length + (if c.attached then 1 else 0) + 1

def Reader.work (s : Reader R) : Nat := (s.channels.map Channel.work).sum

theorem sum_map_set {α : Type} {f : α → Nat} : ∀ {l : List α} {i : Nat} {a b : α}, l[i]? = some a → f b < f a →
    ((l.set i b).map f).sum < (l.map f).sum
  | [], i, a, b, h, _ => by simp at h
  | x :: l, 0, a, b, h, hlt => by
    cases h
    simpa using hlt
  | x :: l, i + 1, a, b, h, hlt => by
    have ih := sum_map_set (f := f) (l := l) (i := i) h hlt
    simpa using ih

theorem sum_map_eraseIdx {α : Type} {f : α → Nat} : ∀ {l : List α} {i : Nat} {a : α}, l[i]? = some a → 0 < f a →
    ((l.eraseIdx i).map f).sum < (l.map f).sum
  | [], i, a, h, _ => by simp at h
  | x :: l, 0, a, h, hlt => by
    cases h
    simpa using hlt
  | x :: l, i + 1, a, h, hlt => by
    have ih := sum_map_eraseIdx (f := f) (l := l) (i := i) h hlt
    simpa using ih

theorem Reading.progress (hs : Reading parts s) (hne : s.channels ≠ []) :
    ∃ t, s.Step t ∧ t.work < s.work := by
  have hlt : s.next < s.channels.length := hs.looks.resolve_right hne
  obtain ⟨c, hc⟩ : ∃ c, s.channels[s.next]? = some c := ⟨_, List.getElem?_eq_getElem hlt⟩
  obtain ⟨pending, queue, attached⟩ := c
  cases queue with
  | cons row queue =>
    refine ⟨_, step_of_change (.deliver hc), ?_⟩
    exact sum_map_set hc (by simp [Channel.work])
  | nil =>
    cases pending with
    | cons row pending =>
      refine ⟨_, step_of_change (.produce hc), ?_⟩
      refine sum_map_set hc ?_
      simp only [Channel.work, List.nil_append, List.length_cons, List.length_nil]
      omega
    | nil =>
      cases attached with
      | true =>
        refine ⟨_, step_of_change (.detach hc), ?_⟩
        exact sum_map_set hc (by simp [Channel.work])
      | false =>
        refine ⟨_, step_of_change (.drop hc), ?_⟩
        exact sum_map_eraseIdx hc (by simp [Channel.work])

theorem Reading.finishes (hs : Reading parts s) :
    ∃ t, ReflTransGen Reader.Step s t ∧ t.visit = none := by
  refine run_reaches (P := Reading parts) Reader.work ?_ hs
  intro s hs
  by_cases hne : s.channels = []
  · exact .inl (by simp [Reader.visit, hne])
  · obtain ⟨t, hstep, hlt⟩ := hs.progress hne
    exact .inr ⟨t, hstep, hs.step hstep, hlt⟩

/-! ## One worker -/

/-- With one worker, what has been delivered and what is still to come is what the worker produces, in its order. -/
def Alone (rows : List R) (s : Reader R) : Prop := s.channels.length ≤ 1 ∧ s.delivered ++ s.coming = rows

variable {rows : List R}

theorem Alone.step (hs : Alone rows s) (hleft : ∀ c ∈ s.channels, c.attached = false → c.pending = []) (h : s.Step t) :
    Alone rows t := by
  obtain ⟨hlen, hrows⟩ := hs
  cases change_of_step h with
  | @produce i row pending queue attached hc =>
    have hcoming : (s.channels.set i ⟨pending, queue ++ [row], attached⟩).flatMap Channel.rows = s.coming :=
      coming_set hc (by simp [Channel.rows])
    exact ⟨by simpa using hlen, by simpa [Reader.coming, hcoming] using hrows⟩
  | @detach i queue hc =>
    have hcoming : (s.channels.set i ⟨[], queue, false⟩).flatMap Channel.rows = s.coming := coming_set hc rfl
    exact ⟨by simpa using hlen, by simpa [Reader.coming, hcoming] using hrows⟩
  | @deliver row pending queue attached hc =>
    refine ⟨by simpa using hlen, ?_⟩
    -- there is no queue before the one read
    obtain ⟨c, hone⟩ : ∃ c, s.channels = [c] := by
      have hlt := (List.getElem?_eq_some_iff.mp hc).1
      exact List.length_eq_one_iff.mp (by omega)
    have hzero : s.next = 0 := by
      have hlt := (List.getElem?_eq_some_iff.mp hc).1
      rw [hone] at hlt
      simpa using hlt
    rw [hone, hzero] at hc
    cases hc
    simpa [Reader.coming, hone, hzero, Channel.rows] using hrows
  | skip hc => exact ⟨hlen, hrows⟩
  | @drop pending hc =>
    have hpending : pending = [] := hleft _ (List.mem_of_getElem? hc) rfl
    have hcoming := flatMap_eraseIdx (f := Channel.rows) hc (by simp [Channel.rows, hpending])
    refine ⟨?_, by simpa [Reader.coming, hcoming] using hrows⟩
    exact Nat.le_trans (List.length_eraseIdx_le _ _) hlen

theorem alone_run (h : ReflTransGen Reader.Step (.start [rows]) s) : Alone rows s := by
  have hboth : Reading [rows] s ∧ Alone rows s := by
    refine run_invariant (P := fun s => Reading [rows] s ∧ Alone rows s) ?_ h ⟨reading_start _, ?_⟩
    · rintro s t ⟨hr, ha⟩ hstep
      exact ⟨hr.step hstep, ha.step hr.left hstep⟩
    · simp [Alone, Reader.start, Reader.coming, Channel.rows]
  exact hboth.2

theorem alone_delivered (h : ReflTransGen Reader.Step (.start [rows]) s) (hend : s.visit = none) :
    s.delivered = rows := by
  have hnil := ((reading_run h).visit_eq_none hend).1
  have hrows := (alone_run h).2
  simpa [Reader.coming, hnil] using hrows

end PgDucklake.Scan
