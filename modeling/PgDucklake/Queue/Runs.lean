import PgDucklake.Lib.Runs
import PgDucklake.Queue.Preserve
import Mathlib.Logic.Function.Basic

/-!
# Runs of the reservation queue

Backends take critical sections of the queue in any order, with any arguments (`QueueAction`, `next`). The only
discipline is that a backend commits as published only after its publication wait returned ready. `queue_ordered` says
that the queue stays in order (`Ordered`) as long as no row range that is continued wraps past `2^64` (`fits`);
`queue_out_of_order` is a run in which one does. One writer of a catalog is ready at a time (`one_ready_writer`), and lost
reservations stay lost (`lost_reservation_stays_lost`).
-/

namespace PgDucklake.Queue

open Lib Relation

/-- The queue with the reservation each backend holds. `ready` records the tickets whose publication wait returned
ready. -/
structure QueueState where
  queue : QueueShmem
  locals : Nat → LocalReservation
  ready : List Nat

/-- The zeroed queue. -/
def QueueState.init (capacity : Nat) : QueueState := ⟨.startup capacity, fun _ => .none, []⟩

/-- A critical section, with the backend where its local reservation matters. Handles and candidates of reclaims are
arbitrary, timestamps too. -/
inductive QueueAction
  | reserve (backend : Nat) (a : ReserveArgs)
  | complete (r : NativeWriterReservation) (rowCount : Nat)
  | wait (r : NativeWriterReservation) (publicationWait : Bool) (now budgetMs : Int)
  | abandon (r : NativeWriterReservation)
  | validate (r : NativeWriterReservation) (snapshotId rowId : Nat)
  | invalidate (r : NativeWriterReservation)
  | markPublished (backend : Nat) (r : NativeWriterReservation)
  | transactionEnd (backend : Nat) (committed : Bool)
  | reclaim (candidate : BlockingReservation)

/-- The tickets a wait adds to `ready`. -/
def readyTicket (r : NativeWriterReservation) (publicationWait : Bool) : WaitOutcome → List Nat
  | .ready => if publicationWait then [r.ticket] else []
  | _ => []

/-- The backend's local reservation after a pass of Reserve. -/
def localAfter (loc : LocalReservation) : ReservePass → LocalReservation
  | .registered loc' _ => loc'
  | _ => loc

/-- The state after an action, when it is allowed. -/
def next (s : QueueState) : QueueAction → Option QueueState
  | .reserve backend a =>
    if (s.locals backend).reservation.active then none
    else
      let (queue, pass) := reservePass a s.queue
      some { s with queue := queue, locals := Function.update s.locals backend (localAfter (s.locals backend) pass) }
  | .complete r rowCount => some { s with queue := (completeNativeWriterReservation s.queue r rowCount).1 }
  | .wait r publicationWait now budgetMs =>
    let (queue, outcome) := waitIteration s.queue r publicationWait now budgetMs
    some { s with queue := queue, ready := readyTicket r publicationWait outcome ++ s.ready }
  | .abandon r => some { s with queue := abandonReservation s.queue r }
  | .validate r snapshotId rowId =>
    some { s with queue := (validateNativeWriterReservation s.queue r snapshotId rowId).1 }
  | .invalidate r => some { s with queue := invalidateNativeWriterReservation s.queue r }
  | .markPublished backend r =>
    some { s with
      locals := Function.update s.locals backend (markNativeWriterReservationPublished (s.locals backend) r) }
  | .transactionEnd backend committed =>
    -- a backend commits as published only after its publication wait returned ready
    if committed && (s.locals backend).published && !s.ready.contains (s.locals backend).reservation.ticket then none
    else
      some { s with
        queue := removeLocalReservation s.queue (s.locals backend) committed
        locals := Function.update s.locals backend .none }
  | .reclaim candidate => some { s with queue := reclaimInactiveOwner s.queue candidate }

/-- No range that the action continues wraps. -/
def fits (s : QueueState) : QueueAction → Bool
  | .reserve _ a => reserveFits a s.queue
  | .wait r false _ _ => waitFits s.queue r
  | _ => true

/-- The state after an action that is allowed and continues no wrapping range. -/
def nextFits (s : QueueState) (a : QueueAction) : Option QueueState := if fits s a then next s a else none

/-- One action. -/
def Step (s t : QueueState) : Prop := ∃ a, next s a = some t

/-- One action that continues no wrapping range. -/
def StepFits (s t : QueueState) : Prop := ∃ a, nextFits s a = some t

/-- What the queue is to keep: distinct tickets, anchors before pending slots, consecutive snapshot candidates and
ordered row ranges. -/
structure Ordered (q : QueueShmem) : Prop where
  tickets_distinct : ∀ (i j : Nat) (a b : ReservationSlot), q.slots[i]? = some a → q.slots[j]? = some b →
    a.inUse = true → b.inUse = true → i ≠ j → a.ticket ≠ b.ticket
  tickets_below : ∀ a ∈ q.slots, a.inUse = true → a.ticket < q.nextTicket
  anchors_first : ∀ a ∈ q.slots, ∀ b ∈ q.slots, Live a → Live b → a.catalog = b.catalog → a.ticket < b.ticket →
    b.committed = true → a.committed = true
  snapshots_increase : ∀ a ∈ q.slots, ∀ b ∈ q.slots, Live a → Live b → a.catalog = b.catalog → a.ticket < b.ticket →
    a.candidateSnapshotId < b.candidateSnapshotId
  snapshots_adjacent : ∀ a ∈ q.slots, ∀ b ∈ q.slots, Live a → Live b → a.catalog = b.catalog → a.ticket < b.ticket →
    a.committed = false → b.committed = false →
    (∀ c ∈ q.slots, Live c → c.catalog = a.catalog → a.ticket < c.ticket → b.ticket ≤ c.ticket) →
    b.candidateSnapshotId = a.candidateSnapshotId + 1
  rows_ordered : ∀ a ∈ q.slots, ∀ b ∈ q.slots, Live a → Live b → a.catalog = b.catalog → a.tableId = b.tableId →
    a.ticket < b.ticket → a.rowAssigned = true → a.rowCountKnown = true → b.rowAssigned = true →
    b.rowCountKnown = true → a.candidateRowId + a.rowCount ≤ b.candidateRowId

variable {q : QueueShmem}

theorem RepInv.ordered (h : RepInv q) : Ordered q where
  tickets_distinct := fun i j a b ha hb hua hub hne ht => hne (h.distinct i j a b ha hb hua hub ht)
  tickets_below := h.below
  anchors_first := h.anchors
  snapshots_increase := h.increasing
  snapshots_adjacent := h.adjacent
  rows_ordered := fun a ha b hb hla hlb hcat htab ht _ _ hassigned _ =>
    (h.ranges a ha b hb hla hlb hcat htab ht hassigned).2.2

/-! ## Ready tickets -/

/-- A ticket that became ready has no earlier pending slot in its catalog. -/
def ReadyInv (q : QueueShmem) (ready : List Nat) : Prop :=
  ∀ t ∈ ready, t < q.nextTicket ∧
    ∀ s ∈ q.slots, Live s → s.ticket = t → ∀ b ∈ q.slots, PendingIn s.catalog b → t ≤ b.ticket

/-- The live slots of `q'` are slots of `q`, perhaps committed since, or have new tickets. -/
structure Advances (q q' : QueueShmem) : Prop where
  nextTicket : q.nextTicket ≤ q'.nextTicket
  live : ∀ x ∈ q'.slots, Live x → q.nextTicket ≤ x.ticket ∨
    ∃ y ∈ q.slots, Live y ∧ y.ticket = x.ticket ∧ y.catalog = x.catalog ∧ (x.committed = false → y.committed = false)

variable {q' : QueueShmem}

theorem ReadyInv.advance {ready : List Nat} (h : ReadyInv q ready) (ha : Advances q q') :
    ReadyInv q' ready := by
  intro t ht
  obtain ⟨hlt, hfirst⟩ := h t ht
  refine ⟨Nat.lt_of_lt_of_le hlt ha.nextTicket, fun s hs hls hst b hb hpb => ?_⟩
  obtain ⟨hlb, hcb, hcat⟩ := hpb
  rcases ha.live s hs hls with hnew | ⟨y, hy, hly, hyt, hyc, _⟩
  · omega
  · rcases ha.live b hb hlb with hnew | ⟨z, hz, hlz, hzt, hzc, hzp⟩
    · omega
    · rw [← hzt]
      exact hfirst y hy hly (hyt.trans hst) z hz ⟨hlz, hzp hcb, by rw [hzc, hyc, hcat]⟩

theorem Advances.of_shrinks (hn : q'.nextTicket = q.nextTicket) (hs : Shrinks q.slots q'.slots) :
    Advances q q' where
  nextTicket := Nat.le_of_eq hn.symm
  live := by
    intro x hx hl
    obtain ⟨y, hy, hly, hc⟩ := hs.live hx hl
    exact Or.inr ⟨y, hy, hly, (core_ticket hc).symm, (core_catalog hc).symm, fun h => (core_committed hc).symm.trans h⟩

theorem Advances.of_set {i : Nat} {s s' : ReservationSlot} (hi : q.slots[i]? = some s) (hs : SamePlace s s')
    (hc : s'.committed = false → s.committed = false) :
    Advances q { q with slots := q.slots.set i s' } where
  nextTicket := Nat.le_refl _
  live := by
    intro x hx hl
    obtain ⟨y, hy, hsame, he⟩ := mem_set_same hi hs hx
    refine Or.inr ⟨y, hy, hsame.live.mp hl, hsame.ticket.symm, hsame.catalog.symm, fun hpend => ?_⟩
    rcases he with rfl | ⟨rfl, rfl⟩
    · exact hpend
    · exact hc hpend

theorem Advances.trans {q₁ q₂ q₃ : QueueShmem} (h₁ : Advances q₁ q₂) (h₂ : Advances q₂ q₃) : Advances q₁ q₃ where
  nextTicket := Nat.le_trans h₁.nextTicket h₂.nextTicket
  live := by
    intro x hx hl
    rcases h₂.live x hx hl with hnew | ⟨y, hy, hly, hyt, hyc, hyp⟩
    · exact Or.inl (Nat.le_trans h₁.nextTicket hnew)
    · rcases h₁.live y hy hly with hnew | ⟨z, hz, hlz, hzt, hzc, hzp⟩
      · exact Or.inl (hyt ▸ hnew)
      · exact Or.inr ⟨z, hz, hlz, hzt.trans hyt, hzc.trans hyc, fun h => hzp (hyp h)⟩

theorem advances_reservePass (a : ReserveArgs) (q : QueueShmem) : Advances q (reservePass a q).1 := by
  have hsh := (shrinks_dropStale a q.slots).trans (shrinks_takeFreeSlot (dropStale a q.slots))
  have h₂ : Advances q { q with slots := (takeFreeSlot (dropStale a q.slots)).1 } := .of_shrinks rfl hsh
  unfold reservePass
  revert h₂
  generalize takeFreeSlot (dropStale a q.slots) = taken
  obtain ⟨l, free⟩ := taken
  intro h₂
  cases free with
  | none => exact h₂
  | some i =>
    dsimp only
    split
    · exact h₂
    · refine ⟨Nat.le_succ _, fun x hx hl => ?_⟩
      rcases mem_set_cases hx with rfl | hx₀
      · left
        rw [(assignRows_same _ _ _).1.ticket, (assignSnapshot_same _ _ _).2.1]
        exact Nat.le_refl _
      · exact h₂.live x hx₀ hl

theorem advances_complete (q : QueueShmem) (r : NativeWriterReservation) (rowCount : Nat) :
    Advances q (completeNativeWriterReservation q r rowCount).1 := by
  unfold completeNativeWriterReservation
  split
  · rename_i i s hs
    split
    · split
      · exact .of_shrinks rfl (shrinks_invalidateFrom _ _ _)
      · exact .of_set (findSlot_some hs).1 ⟨rfl, rfl, rfl, rfl, rfl, rfl⟩ id
    · exact .of_shrinks rfl (.refl _)
  · exact .of_shrinks rfl (.refl _)

theorem advances_waitIteration (q : QueueShmem) (r : NativeWriterReservation) (publicationWait : Bool)
    (now budgetMs : Int) : Advances q (waitIteration q r publicationWait now budgetMs).1 := by
  rcases waitIteration_cases q r publicationWait now budgetMs with ⟨hs, hn⟩ | ⟨i, s, p, rowId, _, hs, _, _, _, _, _, heq⟩
  · exact .of_shrinks hn hs
  · rw [heq]
    exact .of_set (findSlot_some hs).1 ⟨rfl, rfl, rfl, rfl, rfl, rfl⟩ id

theorem advances_removeLocalReservation (q : QueueShmem) (loc : LocalReservation) (committed : Bool) :
    Advances q (removeLocalReservation q loc committed) := by
  unfold removeLocalReservation
  split
  · exact .of_shrinks rfl (.refl _)
  · rename_i i s hs
    split
    · have hset : Advances q { q with slots := q.slots.set i (commitSlot s) } :=
        .of_set (findSlot_some hs).1 ⟨rfl, rfl, rfl, rfl, rfl, rfl⟩ nofun
      exact hset.trans (.of_shrinks rfl (shrinks_pruneAnchors s _))
    · exact .of_shrinks rfl (shrinks_removeSlot (findSlot_some hs).1)

variable {s t : QueueState} {a : QueueAction}

/-- **Every action** only brings slots with new tickets. -/
theorem advances_next (h : next s a = some t) : Advances s.queue t.queue := by
  cases a with
  | reserve backend args =>
    simp only [next] at h
    split at h
    · cases h
    · cases h
      exact advances_reservePass args s.queue
  | complete r rowCount =>
    cases h
    exact advances_complete s.queue r rowCount
  | wait r publicationWait now budgetMs =>
    cases h
    exact advances_waitIteration s.queue r publicationWait now budgetMs
  | abandon r =>
    cases h
    exact .of_shrinks (abandon_nextTicket s.queue r) (shrinks_abandonReservation s.queue r)
  | validate r snapshotId rowId =>
    cases h
    exact .of_shrinks (validate_nextTicket s.queue r snapshotId rowId)
      (shrinks_validateNativeWriterReservation s.queue r snapshotId rowId)
  | invalidate r =>
    cases h
    exact .of_shrinks (invalidate_nextTicket s.queue r) (shrinks_invalidateNativeWriterReservation s.queue r)
  | markPublished backend r =>
    cases h
    exact .of_shrinks rfl (.refl _)
  | transactionEnd backend committed =>
    simp only [next] at h
    split at h
    · cases h
    · cases h
      exact advances_removeLocalReservation s.queue (s.locals backend) committed
  | reclaim candidate =>
    cases h
    exact .of_shrinks (reclaim_nextTicket s.queue candidate) (shrinks_reclaimInactiveOwner s.queue candidate)

variable {r : NativeWriterReservation}

theorem waitIteration_ready {now budgetMs : Int} (h : (waitIteration q r true now budgetMs).2 = .ready) :
    (waitIteration q r true now budgetMs).1 = q ∧ ∃ i s p, findSlot q.slots r = some (i, s) ∧ Live s ∧
      firstPendingSlot q.slots s.catalog = some p ∧ p.ticket = s.ticket := by
  revert h
  unfold waitIteration
  split
  · exact nofun
  · rename_i i s hs
    split
    · exact nofun
    · rename_i hv
      rw [if_pos rfl]
      split
      · rename_i hfirst
        cases hp : firstPendingSlot q.slots s.catalog with
        | none => rw [hp] at hfirst; cases hfirst
        | some p =>
          rw [hp] at hfirst
          exact fun _ => ⟨rfl, i, s, p, hs, ⟨(findSlot_some hs).2.1, by simpa using hv⟩, hp, by simpa using hfirst⟩
      · exact nofun

/-! ## Steps and runs -/

/-- The invariant of runs. -/
structure Inv (s : QueueState) : Prop where
  rep : RepInv s.queue
  ready : ReadyInv s.queue s.ready

theorem inv_init (capacity : Nat) : Inv (.init capacity) := ⟨repInv_startup capacity, fun _ ht => nomatch ht⟩

variable {queue : QueueShmem}

theorem Inv.advance (h : Inv s) (hr : RepInv queue) (ha : Advances s.queue queue) (locals : Nat → LocalReservation) :
    Inv ⟨queue, locals, s.ready⟩ := ⟨hr, h.ready.advance ha⟩

theorem Inv.shrink (h : Inv s) (hn : queue.nextTicket = s.queue.nextTicket) (hs : Shrinks s.queue.slots queue.slots)
    (locals : Nat → LocalReservation) : Inv ⟨queue, locals, s.ready⟩ := by
  refine h.advance ?_ (.of_shrinks hn hs) locals
  have := h.rep.shrink hs
  rwa [← hn] at this

theorem inv_wait (h : Inv s) {publicationWait : Bool} (hfit : publicationWait = false → waitFits s.queue r = true)
    (now budgetMs : Int) :
    Inv { s with
      queue := (waitIteration s.queue r publicationWait now budgetMs).1
      ready := readyTicket r publicationWait (waitIteration s.queue r publicationWait now budgetMs).2 ++ s.ready } := by
  have hrep := h.rep.waitIteration hfit now budgetMs
  have hready := h.ready.advance (advances_waitIteration s.queue r publicationWait now budgetMs)
  refine ⟨hrep, fun t ht => ?_⟩
  rcases List.mem_append.mp ht with ht | ht
  · -- a ticket that has just become ready is the first pending one
    cases publicationWait with
    | false =>
      cases ho : (waitIteration s.queue r false now budgetMs).2 <;> rw [ho] at ht <;> cases ht
    | true =>
      cases ho : (waitIteration s.queue r true now budgetMs).2 with
      | gone => rw [ho] at ht; cases ht
      | blocked => rw [ho] at ht; cases ht
      | ready =>
        rw [ho] at ht
        obtain rfl := List.mem_singleton.mp ht
        obtain ⟨heq, i, slot, p, hs, hl, hp, hpt⟩ := waitIteration_ready ho
        dsimp only
        rw [heq]
        obtain ⟨hi, hu, _, hticket, _⟩ := findSlot_some hs
        have hmem := List.mem_of_getElem? hi
        refine ⟨hticket ▸ h.rep.below slot hmem hu, fun x hx hlx hxt b hb hpb => ?_⟩
        obtain rfl := h.rep.eq_of_ticket hx hmem hlx.1 hu (hxt.trans hticket.symm)
        have := (firstPendingSlot_some hp).2.2 b hb hpb
        omega
  · exact hready t ht

/-- **Every action keeps the invariant.** -/
theorem inv_next (h : Inv s) (hf : fits s a = true) (hn : next s a = some t) :
    Inv t := by
  cases a with
  | reserve backend a =>
    simp only [next] at hn
    split at hn
    · cases hn
    · cases hn
      exact h.advance (h.rep.reservePass hf) (advances_reservePass a s.queue) _
  | complete r rowCount =>
    cases hn
    exact h.advance (h.rep.complete r rowCount) (advances_complete s.queue r rowCount) _
  | wait r publicationWait now budgetMs =>
    cases hn
    exact inv_wait h (fun hp => by subst hp; exact hf) now budgetMs
  | abandon r =>
    cases hn
    exact h.shrink (abandon_nextTicket s.queue r) (shrinks_abandonReservation s.queue r) _
  | validate r snapshotId rowId =>
    cases hn
    exact h.shrink (validate_nextTicket s.queue r snapshotId rowId)
      (shrinks_validateNativeWriterReservation s.queue r snapshotId rowId) _
  | invalidate r =>
    cases hn
    exact h.shrink (invalidate_nextTicket s.queue r) (shrinks_invalidateNativeWriterReservation s.queue r) _
  | markPublished backend r =>
    cases hn
    exact ⟨h.rep, h.ready⟩
  | transactionEnd backend committed =>
    simp only [next] at hn
    split at hn
    · cases hn
    · rename_i hguard
      cases hn
      refine h.advance (h.rep.removeLocalReservation fun hc hp i slot hs hl b hb hpb => ?_)
        (advances_removeLocalReservation s.queue _ committed) _
      -- the guard gives the ready ticket
      have hready : (s.locals backend).reservation.ticket ∈ s.ready := by
        simpa [hc, hp] using hguard
      obtain ⟨hi, _, _, hticket, _⟩ := findSlot_some hs
      have := (h.ready _ hready).2 slot (List.mem_of_getElem? hi) hl hticket b hb hpb
      omega
  | reclaim candidate =>
    cases hn
    exact h.shrink (reclaim_nextTicket s.queue candidate) (shrinks_reclaimInactiveOwner s.queue candidate) _

theorem inv_stepFits (h : Inv s) (hs : StepFits s t) : Inv t := by
  obtain ⟨a, ha⟩ := hs
  unfold nextFits at ha
  split at ha
  · exact inv_next h ‹_› ha
  · cases ha

/-- **The queue stays in order** in every run that continues no wrapping row range. -/
theorem queue_ordered {capacity : Nat} {s : QueueState} (hrun : ReflTransGen StepFits (.init capacity) s) :
    Ordered s.queue := by
  have h : Inv s := run_invariant (fun _ _ => inv_stepFits) hrun (inv_init capacity)
  exact h.rep.ordered

/-- A reservation of table 7 in one catalog, of `rowCount` rows from row 10 on. -/
def reserveSeven (rowCount : Nat) : ReserveArgs :=
  ⟨⟨1, 1⟩, 7, 0, 10, ⟨1, 1, 1, 1, 1⟩, 0, true, rowCount⟩

/-- Two writers of one table: the second continues the first's rows, and the first commits. -/
theorem queue_ordered_two_writers : ∃ s, ReflTransGen StepFits (.init 2) s ∧
    s.queue.slots.map (·.candidateRowId) = [10, 13] ∧ s.queue.slots.map (·.committed) = [true, false] ∧
      Ordered s.queue := by
  obtain ⟨s, hrun, hs⟩ := trace_reaches (fun s a t (h : nextFits s a = some t) => (⟨a, h⟩ : StepFits s t)) (.init 2)
    [.reserve 0 (reserveSeven 3), .reserve 1 (reserveSeven 2), .complete ⟨0, 1, true⟩ 3,
      .wait ⟨0, 1, true⟩ true 0 10, .markPublished 0 ⟨0, 1, true⟩, .transactionEnd 0 true]
    (fun s => s.queue.slots.map (·.candidateRowId) == [10, 13] && s.queue.slots.map (·.committed) == [true, false])
    (by decide +kernel)
  simp only [Bool.and_eq_true, beq_iff_eq] at hs
  exact ⟨s, hrun, hs.1, hs.2, queue_ordered hrun⟩

/-- Two valid slots of one table with known rows, of which the later lies before the end of the earlier. -/
def rowsOutOfOrder (a b : ReservationSlot) : Bool :=
  decide (Live a) && decide (Live b) && a.catalog == b.catalog && a.tableId == b.tableId &&
    decide (a.ticket < b.ticket) && a.rowAssigned && a.rowCountKnown && b.rowAssigned && b.rowCountKnown &&
    decide (b.candidateRowId < a.candidateRowId + a.rowCount)

theorem not_ordered_of_rows {a b : ReservationSlot} (ha : a ∈ q.slots) (hb : b ∈ q.slots)
    (h : rowsOutOfOrder a b = true) : ¬Ordered q := by
  simp only [rowsOutOfOrder, Bool.and_eq_true, decide_eq_true_eq, beq_iff_eq] at h
  obtain ⟨⟨⟨⟨⟨⟨⟨⟨⟨hla, hlb⟩, hcat⟩, htab⟩, ht⟩, haa⟩, hak⟩, hba⟩, hbk⟩, hlt⟩ := h
  intro ho
  have := ho.rows_ordered a ha b hb hla hlb hcat htab ht haa hak hba hbk
  omega

/-- The overflow test lets a range of `2^64 - 6` rows from row 10 on be continued, at row 4: the table's second
reservation lies before the first. -/
theorem queue_out_of_order : ∃ s, ReflTransGen Step (.init 2) s ∧ ¬Ordered s.queue := by
  obtain ⟨s, hrun, hs⟩ := trace_reaches (fun s a t (h : next s a = some t) => (⟨a, h⟩ : Step s t)) (.init 2)
    [.reserve 0 (reserveSeven (2 ^ 64 - 6)), .reserve 1 (reserveSeven 1)]
    (fun s => s.queue.slots.any fun a => s.queue.slots.any fun b => rowsOutOfOrder a b) (by decide +kernel)
  obtain ⟨a, ha, hs⟩ := List.any_eq_true.mp hs
  obtain ⟨b, hb, hs⟩ := List.any_eq_true.mp hs
  exact ⟨s, hrun, not_ordered_of_rows ha hb hs⟩

/-! ## Turns -/

/-- **One writer at a time.** While a pending reservation is ready to publish, no other one of its catalog is. -/
theorem one_ready_writer {capacity : Nat} {s : QueueState} (hrun : ReflTransGen StepFits (.init capacity) s) {i j : Nat}
    {a b : ReservationSlot} (ha : s.queue.slots[i]? = some a) (hb : s.queue.slots[j]? = some b) (hij : i ≠ j)
    (hpa : PendingIn a.catalog a) (hpb : PendingIn a.catalog b) (hready : a.ticket ∈ s.ready) : b.ticket ∉ s.ready := by
  have h : Inv s := run_invariant (fun _ _ => inv_stepFits) hrun (inv_init capacity)
  intro hready'
  have hle := (h.ready _ hready).2 a (List.mem_of_getElem? ha) hpa.1 rfl b (List.mem_of_getElem? hb) hpb
  have hge := (h.ready _ hready').2 b (List.mem_of_getElem? hb) hpb.1 rfl a (List.mem_of_getElem? ha)
    ⟨hpa.1, hpa.2.1, hpb.2.2.symm⟩
  exact hij (h.rep.distinct i j a b ha hb hpa.1.1 hpb.1.1 (Nat.le_antisymm hle hge))

/-- The first writer is ready; the second one, complete as well, is not. -/
theorem one_ready_writer_waits : ∃ s, ReflTransGen StepFits (.init 2) s ∧ 1 ∈ s.ready ∧ 2 ∉ s.ready := by
  let pending (ticket : Nat) (a : ReservationSlot) : Bool :=
    a.inUse && a.valid && !a.committed && a.catalog == ⟨1, 1⟩ && a.ticket == ticket
  obtain ⟨s, hrun, hs⟩ := trace_reaches (fun s a t (h : nextFits s a = some t) => (⟨a, h⟩ : StepFits s t)) (.init 2)
    [.reserve 0 (reserveSeven 3), .reserve 1 (reserveSeven 2), .complete ⟨0, 1, true⟩ 3, .complete ⟨1, 2, true⟩ 2,
      .wait ⟨0, 1, true⟩ true 0 10]
    (fun s => decide (1 ∈ s.ready) && s.queue.slots[0]?.any (pending 1) && s.queue.slots[1]?.any (pending 2))
    (by decide +kernel)
  simp only [pending, Bool.and_eq_true, Option.any_eq_true, decide_eq_true_eq, Bool.not_eq_true', beq_iff_eq] at hs
  obtain ⟨⟨hready, a, ha, ⟨⟨hla, hca⟩, hcatalog⟩, hta⟩, b, hb, ⟨⟨hlb, hcb⟩, hcatalog'⟩, htb⟩ := hs
  refine ⟨s, hrun, hready, htb ▸ one_ready_writer hrun ha hb (by simp) ⟨hla, hca, rfl⟩ ⟨hlb, hcb, ?_⟩ (hta ▸ hready)⟩
  rw [hcatalog, hcatalog']

/-! ## Lost reservations -/

/-- **A lost reservation stays lost.** A ticket without a valid slot is never valid again, nor handed to another writer,
even where row ranges wrap. -/
theorem lost_reservation_stays_lost {s t : QueueState} (hrun : ReflTransGen Step s t) {ticket : Nat}
    (hticket : ticket < s.queue.nextTicket) (hlost : ∀ x ∈ s.queue.slots, Live x → x.ticket ≠ ticket) :
    ∀ x ∈ t.queue.slots, Live x → x.ticket ≠ ticket := by
  have hstep : ∀ u v : QueueState, Advances s.queue u.queue → Step u v → Advances s.queue v.queue := by
    rintro u v hu ⟨a, ha⟩
    exact hu.trans (advances_next ha)
  have hadvances := run_invariant hstep hrun (.of_shrinks rfl (.refl _))
  intro x hx hl heq
  rcases hadvances.live x hx hl with hnew | ⟨y, hy, hly, hyt, -, -⟩
  · omega
  · exact hlost y hy hly (hyt.trans heq)

/-- The first writer gives its reservation up, and the second one's candidates go with it. -/
theorem lost_reservation_abandoned : ∃ s t, ReflTransGen Step (.init 2) s ∧ ReflTransGen Step s t ∧
    s.queue.nextTicket = 3 ∧ t.queue.nextTicket = 4 ∧ ∀ x ∈ t.queue.slots, Live x → x.ticket ≠ 2 := by
  obtain ⟨s, hrun, hs⟩ := trace_reaches (fun s a t (h : next s a = some t) => (⟨a, h⟩ : Step s t)) (.init 2)
    [.reserve 0 (reserveSeven 3), .reserve 1 (reserveSeven 2), .abandon ⟨0, 1, true⟩]
    (fun s => s.queue.nextTicket == 3 && decide (∀ x ∈ s.queue.slots, Live x → x.ticket ≠ 2) &&
      (next s (.reserve 2 (reserveSeven 1))).any (·.queue.nextTicket == 4)) (by decide +kernel)
  simp only [Bool.and_eq_true, beq_iff_eq, decide_eq_true_eq, Option.any_eq_true] at hs
  obtain ⟨⟨hnext, hlost⟩, t, ht, hafter⟩ := hs
  have hlater : ReflTransGen Step s t := .single ⟨_, ht⟩
  exact ⟨s, t, hrun, hlater, hnext, hafter, lost_reservation_stays_lost hlater (by omega) hlost⟩

end PgDucklake.Queue
