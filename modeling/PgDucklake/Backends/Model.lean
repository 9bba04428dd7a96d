import PgDucklake.Queue.Held
import PgDucklake.Queue.Runs
import PgDucklake.Writer.Moves

/-!
# Backends that use the reservation queue

The publication protocol of every catalog together with the one queue in shared memory. A backend is a writer of a
catalog with its `Local` reservation; the answers that were free in the protocol are now those of the queue. Each critical
section of the queue is one step: `next`.

`batch.reservation` is not kept apart from `Local.reservation`: a transaction has one batch, and the two are set and
dropped together.
-/

namespace PgDucklake.Backends

open Lib Queue Writer Relation

/-- Where a backend stands inside a call of the queue. -/
inductive QueueCall
  | none
  /-- The first pass of `ReserveNativeWriterPublication` found the queue full. -/
  | reserveAgain
  /-- Registered; the row candidate waits for a predecessor's row count. -/
  | waitRows (commandId snapshotId : Nat)
  /-- The wait for the row candidate returned ready. -/
  | readRows (commandId snapshotId : Nat)
  /-- `WaitForNativeWriterPublication`. -/
  | waitPublication
  /-- The claim was lost under a valid reservation, which is to be invalidated. -/
  | invalidate
  /-- `QueueBackendExit` has run; the transaction is about to abort. -/
  | exiting
deriving DecidableEq, Repr

/-- What a backend holds besides its writer. -/
structure Session where
  loc : LocalReservation
  call : QueueCall
deriving DecidableEq, Repr

/-- A backend: its catalog and its writer there. -/
abbrev BackendId := CatalogKey × Nat

/-- A batch with the state it was published from. -/
structure PublishedBatch where
  catalog : CatalogKey
  batch : Batch
  st : PublicationState

/-- The catalogs, the queue and the backends. `published` records the batches that were committed, newest first. -/
structure State where
  catalogs : CatalogKey → Writer.State
  queue : QueueShmem
  sessions : BackendId → Session
  published : List PublishedBatch

/-- The writer of a backend. -/
def State.writer (s : State) (p : BackendId) : Option Backend := (s.catalogs p.1).writers p.2

def State.setSession (s : State) (p : BackendId) (session : Session) : State :=
  { s with sessions := Function.update s.sessions p session }

def State.setCall (s : State) (p : BackendId) (call : QueueCall) : State :=
  s.setSession p { s.sessions p with call := call }

/-- An action of the protocol in one catalog. -/
def State.act (env : Env) (s : State) (k : CatalogKey) (a : Writer.Action) : Option State :=
  (Writer.next env (s.catalogs k) a).map fun c => { s with catalogs := Function.update s.catalogs k c }

/-! ## Actions -/

inductive Action
  | prepare (p : BackendId) (tableId schemaVersion : Nat) (isTransactionBlock usesXactSnapshot : Bool) (nestLevel : Nat)
  | external (k : CatalogKey) (e : ExternalCommit)
  /-- A database command, or the end of the transaction. -/
  | command (p : BackendId) (a : Writer.Action)
  /-- The end of `PrepareNativeInlineWrite` with `ducklake.native_writer_reservation_queue` off, or after a failed check. -/
  | noReserve (p : BackendId) (commandId : Nat)
  /-- A pass of `ReserveNativeWriterPublication`; COPY passes no row count. -/
  | reserve (p : BackendId) (commandId : Nat) (owner : OwnerIdentity) (rowCount : Option Nat)
  | waitRows (p : BackendId) (now budgetMs : Int)
  | readRows (p : BackendId)
  | complete (p : BackendId)
  | waitPublication (p : BackendId) (now budgetMs : Int)
  /-- A wait times out. -/
  | abandon (p : BackendId)
  | check (p : BackendId)
  | invalidate (p : BackendId)
  | markPublished (p : BackendId)
  | callback (p : BackendId)
  /-- `ReclaimInactiveOwner`, by whoever found this blocker. -/
  | reclaim (candidate : BlockingReservation)
  | backendExit (p : BackendId)

/-- The commands of a batch that do not concern the queue, by its writer. -/
def isCommandOf (w : Nat) : Writer.Action → Bool
  | .read v | .derive v | .bind v _ | .prewrite v _ | .claim v _ | .retag v .. | .tableStats v _ | .changeRecord v _
  | .commit v | .abort v => v == w
  | _ => false

def isAbort : Writer.Action → Bool
  | .abort _ => true
  | _ => false

/-- A claim lost under a valid reservation is followed by `InvalidateNativeWriterReservation`. -/
def callAfter (before after : Phase) : QueueCall :=
  match before, after with
  | .claim _ true _, .publishRead _ _ => .invalidate
  | .claim _ true _, .failed _ => .invalidate
  | _, _ => .none

/-- The batch a commit publishes. -/
def publishedAfter (k : CatalogKey) (before : Backend) (after : Phase) : List PublishedBatch :=
  match before.phase, after with
  | .published _ st, .ended true => [⟨k, before.batch, st⟩]
  | _, _ => []

/-- The arguments of Reserve in `PrepareNativeInlineWrite`. -/
def reserveArgs (k : CatalogKey) (b : Batch) (st : PublicationState) (commandId : Nat) (owner : OwnerIdentity)
    (rowCount : Option Nat) : ReserveArgs :=
  ⟨k, b.tableId, st.snapshotId, st.nextRowId, { owner with xid := b.ownerXid }, commandId, rowCount.isSome,
    rowCount.getD 0⟩

/-- `OwnerTransactionIsActive`: the commit or abort of a transaction clears the owner's `lxid`. -/
def ownerTransactionIsActive (s : State) (k : CatalogKey) (owner : OwnerIdentity) : Bool :=
  (s.catalogs k).status owner.xid == .inProgress

/-! ## Steps -/

section Steps

variable (env : Env) (s : State) (p : BackendId)

/-- `ReserveNativeWriterPublication` returns. -/
def finishReserve (commandId : Nat) (answer : Option (Nat × Nat)) : Option State :=
  (s.act env p.1 (.reserve p.2 commandId answer)).map (·.setCall p .none)

/-- The queue's part of `PublishNativeInlineWrite` before the loop is done. -/
def finishWait (answer : Bool) : Option State := (s.act env p.1 (.publish p.2 answer)).map (·.setCall p .none)

/-- A registered reservation: give up, return the candidates, or wait for the rows. -/
def afterRegister (commandId : Nat) (slot : ReservationSlot) : Option State :=
  if !slot.valid then finishReserve env s p commandId none
  else if slot.rowAssigned then finishReserve env s p commandId (some (slot.candidateSnapshotId, slot.candidateRowId))
  else some (s.setCall p (.waitRows commandId slot.candidateSnapshotId))

/-- A pass of Reserve. -/
def reserveStep (b : Batch) (st : PublicationState) (commandId : Nat) (owner : OwnerIdentity) (rowCount : Option Nat) :
    Option State :=
  let (queue, pass) := reservePass (reserveArgs p.1 b st commandId owner rowCount) s.queue
  match pass with
  | .full =>
    if (s.sessions p).call == .none then some ({ s with queue := queue }.setCall p .reserveAgain)
    else finishReserve env { s with queue := queue } p commandId none
  | .noTicket => finishReserve env { s with queue := queue } p commandId none
  | .registered loc slot =>
    afterRegister env ({ s with queue := queue }.setSession p ⟨loc, (s.sessions p).call⟩) p commandId slot

/-- An iteration of the wait for the row candidate. -/
def waitRowsStep (commandId snapshotId : Nat) (now budgetMs : Int) : Option State :=
  let (queue, outcome) := waitIteration s.queue (s.sessions p).loc.reservation false now budgetMs
  match outcome with
  | .gone => finishReserve env { s with queue := queue } p commandId none
  | .ready => some ({ s with queue := queue }.setCall p (.readRows commandId snapshotId))
  | .blocked _ _ => some { s with queue := queue }

/-- The row candidate is read back, unless the reservation was invalidated in between. -/
def readRowsStep (commandId snapshotId : Nat) : Option State :=
  match findSlot s.queue.slots (s.sessions p).loc.reservation with
  | some (_, current) =>
    if !current.valid || !current.rowAssigned then finishReserve env s p commandId none
    else finishReserve env s p commandId (some (snapshotId, current.candidateRowId))
  | none => finishReserve env s p commandId none

/-- The start of `PublishNativeInlineWrite`. -/
def completeStep (b : Batch) : Option State :=
  match publishPhase b true with
  | .publishRead _ _ =>
    if (s.sessions p).loc.reservation.active then
      match completeNativeWriterReservation s.queue (s.sessions p).loc.reservation b.rowsInserted with
      | (queue, true) => some ({ s with queue := queue }.setCall p .waitPublication)
      | (queue, false) => finishWait env { s with queue := queue } p false
    else finishWait env s p false
  -- no rows, or their ids are exhausted
  | _ => finishWait env s p false

/-- An iteration of the publication wait. -/
def waitPublicationStep (now budgetMs : Int) : Option State :=
  let (queue, outcome) := waitIteration s.queue (s.sessions p).loc.reservation true now budgetMs
  match outcome with
  | .gone => finishWait env { s with queue := queue } p false
  | .ready => finishWait env { s with queue := queue } p true
  | .blocked _ _ => some { s with queue := queue }

/-- The checks of an attempt; the reservation is validated last. -/
def checkStep (b : Batch) (valid : Bool) (st : PublicationState) : Option State :=
  match checkPublicationState env b st with
  | .error _ => s.act env p.1 (.check p.2 false)
  | .ok () =>
    if valid && (s.sessions p).loc.reservation.active then
      let (queue, answer) := validateNativeWriterReservation s.queue (s.sessions p).loc.reservation (finalSnapshotId st)
        (finalRowId st)
      State.act env { s with queue := queue } p.1 (.check p.2 answer)
    else s.act env p.1 (.check p.2 false)

/-- A command of the batch, with what follows from it. -/
def commandStep (b : Backend) (a : Writer.Action) : Option State :=
  (s.act env p.1 a).map fun t =>
    let after := ((t.writer p).map (·.phase)).getD .returned
    { t with published := publishedAfter p.1 b after ++ t.published }.setCall p (callAfter b.phase after)

end Steps

/-- The state after an action, when it can happen. -/
def next (env : Env) (s : State) : Action → Option State
  | .prepare p tableId schemaVersion isTransactionBlock usesXactSnapshot nestLevel =>
    (s.act env p.1 (.prepare p.2 tableId schemaVersion isTransactionBlock usesXactSnapshot nestLevel)).map
      (·.setCall p .none)
  | .external k e => s.act env k (.external e)
  | .command p a =>
    match s.writer p with
    | some b =>
      if isCommandOf p.2 a && ((s.sessions p).call == .none || isAbort a) then commandStep env s p b a else none
    | none => none
  | .noReserve p commandId =>
    match s.writer p, (s.sessions p).call with
    | some ⟨_, .prepared _⟩, .none => finishReserve env s p commandId none
    | _, _ => none
  | .reserve p commandId owner rowCount =>
    match s.writer p with
    | some ⟨b, .prepared st⟩ =>
      match checkPreparedState b st with
      | .error _ => none
      | .ok () =>
        if !(s.sessions p).loc.reservation.active &&
            ((s.sessions p).call == .none || (s.sessions p).call == .reserveAgain) then
          reserveStep env s p b st commandId owner rowCount
        else none
    | _ => none
  | .waitRows p now budgetMs =>
    match s.writer p, (s.sessions p).call with
    | some ⟨_, .prepared _⟩, .waitRows commandId snapshotId => waitRowsStep env s p commandId snapshotId now budgetMs
    | _, _ => none
  | .readRows p =>
    match s.writer p, (s.sessions p).call with
    | some ⟨_, .prepared _⟩, .readRows commandId snapshotId => readRowsStep env s p commandId snapshotId
    | _, _ => none
  | .complete p =>
    match s.writer p, (s.sessions p).call with
    | some ⟨b, .prewriting⟩, .none => completeStep env s p b
    | _, _ => none
  | .waitPublication p now budgetMs =>
    match s.writer p, (s.sessions p).call with
    | some ⟨_, .prewriting⟩, .waitPublication => waitPublicationStep env s p now budgetMs
    | _, _ => none
  | .abandon p =>
    let t := { s with queue := abandonReservation s.queue (s.sessions p).loc.reservation }
    match (s.sessions p).call with
    | .waitRows commandId _ => finishReserve env t p commandId none
    | .waitPublication => finishWait env t p false
    | _ => none
  | .check p =>
    match s.writer p, (s.sessions p).call with
    | some ⟨b, .publishCheck _ valid st⟩, .none => checkStep env s p b valid st
    | _, _ => none
  | .invalidate p =>
    match (s.sessions p).call with
    | .invalidate =>
      some ({ s with queue := invalidateNativeWriterReservation s.queue (s.sessions p).loc.reservation }.setCall p .none)
    | _ => none
  | .markPublished p =>
    match s.writer p, (s.sessions p).call with
    | some ⟨_, .markPublished _ _⟩, .none =>
      (s.act env p.1 (.markPublished p.2)).map (·.setSession p
        ⟨markNativeWriterReservationPublished (s.sessions p).loc (s.sessions p).loc.reservation, .none⟩)
    | _, _ => none
  | .callback p =>
    match s.writer p with
    | some ⟨_, .ended committed⟩ =>
      (State.act env { s with queue := removeLocalReservation s.queue (s.sessions p).loc committed } p.1
        (.callback p.2)).map (·.setSession p ⟨.none, .none⟩)
    | _ => none
  | .reclaim candidate =>
    if ownerTransactionIsActive s candidate.catalog candidate.owner then none
    else some { s with queue := reclaimInactiveOwner s.queue candidate }
  | .backendExit p =>
    match s.writer p with
    | some ⟨_, .ended _⟩ | none => none
    | some _ =>
      some ({ s with queue := removeLocalReservation s.queue (s.sessions p).loc false }.setSession p ⟨.none, .exiting⟩)

/-- One step of the system. -/
def Step (env : Env) (s t : State) : Prop := ∃ a, next env s a = some t

end PgDucklake.Backends
