import PgDucklake.Lib.Select
import PgDucklake.Lib.Words

/-!
# The reservation queue: slots and scans

The shared-memory queue of `native_writer_queue.cpp`: reservation slots, the scans over them and the helpers that
invalidate or free them. The slot array is a list of `QueueCapacity()` slots; a pointer to a slot is its index together
with its contents.
-/

namespace PgDucklake.Queue

open Lib

structure CatalogKey where
  databaseOid : Nat
  snapshotRelationOid : Nat
deriving DecidableEq, Repr

structure OwnerIdentity where
  procNumber : Int
  vxidId : Nat
  lxid : Nat
  xid : Nat
  pid : Int
deriving DecidableEq, Repr

structure ReservationSlot where
  inUse : Bool
  valid : Bool
  committed : Bool
  rowAssigned : Bool
  rowCountKnown : Bool
  catalog : CatalogKey
  ticket : Nat
  owner : OwnerIdentity
  ownerCommandId : Nat
  tableId : Nat
  candidateSnapshotId : Nat
  candidateRowId : Nat
  rowCount : Nat
  queueWaitBlockerTicket : Nat
  queueWaitDeadline : Int
deriving DecidableEq, Repr

/-- `MemSet(&slot, 0, sizeof(slot))`. -/
def ReservationSlot.zero : ReservationSlot where
  inUse := false
  valid := false
  committed := false
  rowAssigned := false
  rowCountKnown := false
  catalog := ⟨0, 0⟩
  ticket := 0
  owner := ⟨0, 0, 0, 0, 0⟩
  ownerCommandId := 0
  tableId := 0
  candidateSnapshotId := 0
  candidateRowId := 0
  rowCount := 0
  queueWaitBlockerTicket := 0
  queueWaitDeadline := 0

/-- The shared queue, without its spinlock and condition variable: every critical section is one step, and a sleeping
waiter may look again at any time. -/
structure QueueShmem where
  nextTicket : Nat
  slots : List ReservationSlot
deriving DecidableEq, Repr

structure NativeWriterReservation where
  slot : Nat
  ticket : Nat
  active : Bool
deriving DecidableEq, Repr

/-- `INVALID_SLOT`. -/
def invalidSlot : Nat := 2 ^ 32 - 1

structure LocalReservation where
  reservation : NativeWriterReservation
  published : Bool
deriving DecidableEq, Repr

/-- `Local` of a backend without a reservation. -/
def LocalReservation.none : LocalReservation := ⟨⟨invalidSlot, 0, false⟩, false⟩

/-- A blocker found by a scan; the source's `present` is the `Option` around it. -/
structure BlockingReservation where
  catalog : CatalogKey
  ticket : Nat
  owner : OwnerIdentity
deriving DecidableEq, Repr

/-- The queue after `QueueShmemStartup`. -/
def QueueShmem.startup (capacity : Nat) : QueueShmem := ⟨1, List.replicate capacity .zero⟩

/-! ## Scans -/

/-- `FindSlot`: the slot a reservation still holds, with its index. -/
def findSlot (slots : List ReservationSlot) (reservation : NativeWriterReservation) : Option (Nat × ReservationSlot) :=
  if reservation.active then
    match slots[reservation.slot]? with
    | some slot => if !slot.inUse || slot.ticket != reservation.ticket then none else some (reservation.slot, slot)
    | none => none
  else none

/-- The loop body of `InvalidateFrom`. -/
def invalidateSlot (catalog : CatalogKey) (ticket : Nat) (slot : ReservationSlot) : ReservationSlot :=
  if slot.inUse && slot.valid && slot.catalog == catalog && decide (ticket ≤ slot.ticket) then
    { slot with valid := false }
  else slot

/-- `InvalidateFrom`: every later candidate depends on its predecessors' snapshot and row ranges. -/
def invalidateFrom (catalog : CatalogKey) (ticket : Nat) (slots : List ReservationSlot) : List ReservationSlot :=
  slots.map (invalidateSlot catalog ticket)

/-- `InvalidateCatalog`. -/
def invalidateCatalog (catalog : CatalogKey) (slots : List ReservationSlot) : List ReservationSlot :=
  invalidateFrom catalog 0 slots

/-- `ReclaimInvalidSlots`. -/
def reclaimInvalidSlots (slots : List ReservationSlot) : List ReservationSlot :=
  slots.map fun slot => if slot.inUse && !slot.valid then .zero else slot

/-- `ReclaimOldestCommittedAnchor`, of whatever catalog; `none` when there is no anchor. -/
def reclaimOldestCommittedAnchor (slots : List ReservationSlot) : Option (List ReservationSlot) :=
  (minBy (fun slot => slot.inUse && slot.committed) (·.ticket) slots).map fun oldest => slots.set oldest.1 .zero

/-- `FirstPendingSlot`. -/
def firstPendingSlot (slots : List ReservationSlot) (catalog : CatalogKey) : Option ReservationSlot :=
  (minBy (fun slot => slot.inUse && slot.valid && !slot.committed && slot.catalog == catalog) (·.ticket) slots).map (·.2)

/-- `LastValidSlot`. -/
def lastValidSlot (slots : List ReservationSlot) (catalog : CatalogKey) (tableId : Nat) (sameTable : Bool) :
    Option ReservationSlot :=
  (maxBy (fun slot => !(!slot.inUse || !slot.valid || slot.catalog != catalog || (sameTable && slot.tableId != tableId)))
    (·.ticket) slots).map (·.2)

/-- `LastPriorSlot`. -/
def lastPriorSlot (slots : List ReservationSlot) (current : ReservationSlot) (sameTable : Bool) :
    Option ReservationSlot :=
  (maxBy (fun slot => !(!slot.inUse || !slot.valid || slot.catalog != current.catalog ||
      decide (current.ticket ≤ slot.ticket) || (sameTable && slot.tableId != current.tableId)))
    (·.ticket) slots).map (·.2)

/-- `FindBlocker`. -/
def findBlocker (slots : List ReservationSlot) (current : ReservationSlot) (publicationWait : Bool) :
    Option BlockingReservation :=
  (minBy (fun slot => !(!slot.inUse || !slot.valid || slot.committed || slot.catalog != current.catalog ||
      decide (current.ticket ≤ slot.ticket)) &&
      !(!publicationWait && (slot.tableId != current.tableId || slot.rowCountKnown)))
    (·.ticket) slots).map fun blocker => ⟨blocker.2.catalog, blocker.2.ticket, blocker.2.owner⟩

/-- The row id after a slot's range, when the source's overflow test lets it be used: both sides are `uint64_t`. -/
def rowFrontier (slot : ReservationSlot) : Option Nat :=
  if slot.candidateRowId ≤ u64Sub int64Max slot.rowCount then some (u64Add slot.candidateRowId slot.rowCount) else none

/-- The first row id a successor takes from its predecessor in the same table. -/
def nextRowIdAfter (previous : ReservationSlot) : Option Nat :=
  if previous.rowAssigned && previous.rowCountKnown then rowFrontier previous else none

/-! ## Freeing slots -/

/-- The slot's candidates and its successors' become invalid, and the slot is freed. -/
def removeSlot (slots : List ReservationSlot) (index : Nat) (slot : ReservationSlot) : List ReservationSlot :=
  (invalidateFrom slot.catalog slot.ticket slots).set index .zero

/-- `AbandonReservation`. -/
def abandonReservation (q : QueueShmem) (reservation : NativeWriterReservation) : QueueShmem :=
  match findSlot q.slots reservation with
  | some (index, slot) => { q with slots := removeSlot q.slots index slot }
  | none => q

/-- `ReclaimInactiveOwner` after `OwnerTransactionIsActive` said no: the first slot of that ticket, catalog and owner is
removed, whatever has become of it since the blocker was found. -/
def reclaimInactiveOwner (q : QueueShmem) (candidate : BlockingReservation) : QueueShmem :=
  match best (fun slot => slot.inUse && slot.ticket == candidate.ticket && slot.catalog == candidate.catalog &&
      slot.owner == candidate.owner) (fun _ _ => false) q.slots with
  | some (index, slot) => { q with slots := removeSlot q.slots index slot }
  | none => q

end PgDucklake.Queue
