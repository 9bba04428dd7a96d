import PgDucklake.Queue.Slots

/-!
# The reservation queue: operations

The critical sections of `native_writer_queue.cpp`, each as a function on the queue: one pass of
`ReserveNativeWriterPublication` (`reservePass`), one iteration of `WaitUntilReadyImpl` (`waitIteration`),
`CompleteNativeWriterReservation`, `ValidateNativeWriterReservation`, `InvalidateNativeWriterReservation`,
`MarkNativeWriterReservationPublished` and the transaction callback's `RemoveLocalReservation`.
-/

namespace PgDucklake.Queue

open Lib

/-! ## Reserve -/

/-- The arguments of `ReserveNativeWriterPublication`, with the caller's catalog and owner. -/
structure ReserveArgs where
  catalog : CatalogKey
  tableId : Nat
  observedSnapshotId : Nat
  observedNextRowId : Nat
  owner : OwnerIdentity
  ownerCommandId : Nat
  rowCountKnown : Bool
  rowCount : Nat
deriving DecidableEq, Repr

/-- A pending candidate must still be ahead of protocol truth. A committed anchor may equal truth; it closes the
metadata-read/registration race. -/
def staleSnapshot (last : ReservationSlot) (observedSnapshotId : Nat) : Bool :=
  last.candidateSnapshotId == 0 ||
    (if last.committed then decide (last.candidateSnapshotId < observedSnapshotId)
    else decide (last.candidateSnapshotId ≤ observedSnapshotId))

/-- The same test on the row ids of the table's last slot. -/
def staleRows (lastTable : ReservationSlot) (observedNextRowId : Nat) : Bool :=
  lastTable.rowAssigned && lastTable.rowCountKnown &&
    let overflow := decide (u64Sub int64Max lastTable.rowCount < lastTable.candidateRowId)
    let expectedFrontier := if overflow then 0 else u64Add lastTable.candidateRowId lastTable.rowCount
    overflow || (if lastTable.committed then decide (expectedFrontier < observedNextRowId)
      else decide (lastTable.candidateRowId < observedNextRowId))

/-- The head of a pass: free invalid slots, and the whole catalog when its predictions are behind the metadata. -/
def dropStale (a : ReserveArgs) (slots : List ReservationSlot) : List ReservationSlot :=
  let slots := reclaimInvalidSlots slots
  match lastValidSlot slots a.catalog a.tableId false with
  | none => slots
  | some last =>
    if staleSnapshot last a.observedSnapshotId then reclaimInvalidSlots (invalidateCatalog a.catalog slots)
    else
      match lastValidSlot slots a.catalog a.tableId true with
      | none => slots
      | some lastTable =>
        if staleRows lastTable a.observedNextRowId then reclaimInvalidSlots (invalidateCatalog a.catalog slots)
        else slots

/-- The first free slot. -/
def freeSlot (slots : List ReservationSlot) : Option Nat := slots.findIdx? fun slot => !slot.inUse

/-- The search for a free slot, giving up the oldest anchor when there is none. -/
def takeFreeSlot (slots : List ReservationSlot) : List ReservationSlot × Option Nat :=
  match freeSlot slots with
  | some index => (slots, some index)
  | none =>
    match reclaimOldestCommittedAnchor slots with
    | some slots' => (slots', freeSlot slots')
    | none => (slots, none)

/-- The new slot before its candidates are known. -/
def freshSlot (a : ReserveArgs) (ticket : Nat) : ReservationSlot :=
  { ReservationSlot.zero with
    inUse := true
    valid := true
    rowCountKnown := a.rowCountKnown
    catalog := a.catalog
    ticket := ticket
    owner := a.owner
    ownerCommandId := a.ownerCommandId
    tableId := a.tableId
    rowCount := a.rowCount }

/-- Snapshot candidate: one past the catalog's last valid slot, or past the observed snapshot. -/
def assignSnapshot (a : ReserveArgs) (slots : List ReservationSlot) (slot : ReservationSlot) : ReservationSlot :=
  match lastPriorSlot slots slot false with
  | some previous =>
    if previous.candidateSnapshotId < int64Max then
      { slot with candidateSnapshotId := u64Add previous.candidateSnapshotId 1 }
    else { slot with candidateSnapshotId := u64Add a.observedSnapshotId 1, valid := false }
  | none => { slot with candidateSnapshotId := u64Add a.observedSnapshotId 1 }

/-- Row candidate: after the table's last valid slot once its range is known, or the observed next row id. -/
def assignRows (a : ReserveArgs) (slots : List ReservationSlot) (slot : ReservationSlot) : ReservationSlot :=
  match lastPriorSlot slots slot true with
  | none => { slot with candidateRowId := a.observedNextRowId, rowAssigned := true }
  | some previousTable =>
    match nextRowIdAfter previousTable with
    | some rowId => { slot with candidateRowId := rowId, rowAssigned := true }
    | none => slot

/-- How a pass of `ReserveNativeWriterPublication` ends. -/
inductive ReservePass
  /-- No free slot: `ReclaimInactiveOwners` and a second pass, or no reservation. -/
  | full
  /-- `next_ticket` is exhausted. -/
  | noTicket
  /-- A slot was registered; `slot` is its content. -/
  | registered (loc : LocalReservation) (slot : ReservationSlot)
deriving DecidableEq, Repr

/-- One pass under the spinlock. -/
def reservePass (a : ReserveArgs) (q : QueueShmem) : QueueShmem × ReservePass :=
  match takeFreeSlot (dropStale a q.slots) with
  | (slots, none) => ({ q with slots := slots }, .full)
  | (slots, some index) =>
    if q.nextTicket == u64Max then ({ q with slots := slots }, .noTicket)
    else
      let fresh := freshSlot a q.nextTicket
      let placed := slots.set index fresh
      let slot := assignRows a placed (assignSnapshot a placed fresh)
      (⟨q.nextTicket + 1, slots.set index slot⟩, .registered ⟨⟨index, q.nextTicket, true⟩, false⟩ slot)

/-! ## Complete, validate, invalidate, publish -/

/-- `CompleteNativeWriterReservation`. -/
def completeNativeWriterReservation (q : QueueShmem) (reservation : NativeWriterReservation) (rowCount : Nat) :
    QueueShmem × Bool :=
  match findSlot q.slots reservation with
  | some (index, slot) =>
    if slot.valid then
      if (slot.rowCountKnown && slot.rowCount != rowCount) || rowCount == 0 then
        ({ q with slots := invalidateFrom slot.catalog slot.ticket q.slots }, false)
      else ({ q with slots := q.slots.set index { slot with rowCount := rowCount, rowCountKnown := true } }, true)
    else (q, false)
  | none => (q, false)

/-- `ValidateNativeWriterReservation`. -/
def validateNativeWriterReservation (q : QueueShmem) (reservation : NativeWriterReservation) (snapshotId rowId : Nat) :
    QueueShmem × Bool :=
  match findSlot q.slots reservation with
  | some (_, slot) =>
    if slot.valid && slot.rowAssigned && slot.candidateSnapshotId == snapshotId && slot.candidateRowId == rowId then
      (q, true)
    else ({ q with slots := invalidateFrom slot.catalog slot.ticket q.slots }, false)
  | none => (q, false)

/-- `InvalidateNativeWriterReservation`. -/
def invalidateNativeWriterReservation (q : QueueShmem) (reservation : NativeWriterReservation) : QueueShmem :=
  match findSlot q.slots reservation with
  | some (_, slot) => { q with slots := invalidateFrom slot.catalog slot.ticket q.slots }
  | none => q

/-- `MarkNativeWriterReservationPublished`. -/
def markNativeWriterReservationPublished (loc : LocalReservation) (reservation : NativeWriterReservation) :
    LocalReservation :=
  if loc.reservation.active && reservation.active && loc.reservation.slot == reservation.slot &&
      loc.reservation.ticket == reservation.ticket then
    { loc with published := true }
  else loc

/-! ## Waiting -/

/-- What one iteration of the wait loop found. -/
inductive WaitOutcome
  /-- The slot is gone or no longer valid. -/
  | gone
  | ready
  | blocked (blocker : Option BlockingReservation) (deadline : Int)
deriving DecidableEq, Repr

/-- `TimestampTzPlusMilliseconds`; timestamps are microseconds. -/
def timestampTzPlusMilliseconds (timestamp ms : Int) : Int := timestamp + ms * 1000

/-- A new blocking predecessor is queue progress, so it gets a fresh bounded interval. A stalled blocker cannot extend
its own deadline. -/
def recordBlocker (slot : ReservationSlot) (blocker : Option BlockingReservation) (now budgetMs : Int) :
    ReservationSlot :=
  if slot.queueWaitDeadline == 0 || blocker.any (fun b => slot.queueWaitBlockerTicket != b.ticket) then
    { slot with
      queueWaitBlockerTicket := (blocker.map (·.ticket)).getD 0
      queueWaitDeadline := timestampTzPlusMilliseconds now budgetMs }
  else slot

/-- The not-ready tail of an iteration, for the slot at `index`. -/
def waitBlocked (q : QueueShmem) (index : Nat) (slot : ReservationSlot) (publicationWait : Bool) (now budgetMs : Int) :
    QueueShmem × WaitOutcome :=
  let blocker := findBlocker q.slots slot publicationWait
  let slot' := recordBlocker slot blocker now budgetMs
  ({ q with slots := q.slots.set index slot' }, .blocked blocker slot'.queueWaitDeadline)

/-- One iteration of `WaitUntilReadyImpl` under the spinlock. -/
def waitIteration (q : QueueShmem) (reservation : NativeWriterReservation) (publicationWait : Bool)
    (now budgetMs : Int) : QueueShmem × WaitOutcome :=
  match findSlot q.slots reservation with
  | none => (q, .gone)
  | some (index, slot) =>
    if !slot.valid then (q, .gone)
    else if publicationWait then
      if (firstPendingSlot q.slots slot.catalog).any (·.ticket == slot.ticket) then (q, .ready)
      else waitBlocked q index slot publicationWait now budgetMs
    else
      match lastPriorSlot q.slots slot true with
      | none => if slot.rowAssigned then (q, .ready) else waitBlocked q index slot publicationWait now budgetMs
      | some previous =>
        if previous.rowAssigned && previous.rowCountKnown then
          match rowFrontier previous with
          | some rowId =>
            ({ q with slots := q.slots.set index { slot with candidateRowId := rowId, rowAssigned := true } }, .ready)
          | none =>
            waitBlocked { q with slots := invalidateFrom slot.catalog slot.ticket q.slots } index
              { slot with valid := false } publicationWait now budgetMs
        else waitBlocked q index slot publicationWait now budgetMs

/-! ## Transaction end -/

/-- The anchor now includes every older row range of its table: those anchors are freed. -/
def pruneAnchors (anchor : ReservationSlot) (slots : List ReservationSlot) : List ReservationSlot :=
  slots.map fun prior =>
    if prior.inUse && prior.valid && prior.committed && prior.catalog == anchor.catalog &&
        prior.tableId == anchor.tableId && decide (prior.ticket < anchor.ticket) then .zero
    else prior

/-- The slot of a committed publication, kept as an anchor: a committed anchor preserves the
metadata-read/registration frontier. -/
def commitSlot (slot : ReservationSlot) : ReservationSlot :=
  { slot with committed := true, queueWaitBlockerTicket := 0, queueWaitDeadline := 0 }

/-- `RemoveLocalReservation` on the queue. A successfully published ticket was kept until top-level commit so that its
successor could not read metadata before the snapshot claim became visible. -/
def removeLocalReservation (q : QueueShmem) (loc : LocalReservation) (committed : Bool) : QueueShmem :=
  match findSlot q.slots loc.reservation with
  | none => q
  | some (index, slot) =>
    if committed && loc.published && slot.valid then
      { q with slots := pruneAnchors slot (q.slots.set index (commitSlot slot)) }
    else { q with slots := removeSlot q.slots index slot }

end PgDucklake.Queue
