import PgDucklake.Lib.Ledger
import PgDucklake.Lib.Runs
import PgDucklake.Writer.Catalog

/-!
# The publication protocol

Native writers as state machines over the catalog: `PrepareNativeInlineWrite`, the prewrite of rows and
`PublishNativeInlineWrite` with its attempts (`RunPublicationAttempt`), one step per SPI command. Each command reads what
is committed and what its own transaction wrote (READ COMMITTED). Answers of the reservation queue are parameters of the
actions: the queue is only a hint. External writers commit in one step.

The subtransaction of an attempt needs no state of its own: a lost claim has written nothing, and any error in it is
thrown on and ends the transaction.
-/

namespace PgDucklake.Writer

open Lib Relation

/-! ## State -/

/-- Where a writer stands. `attempt` counts lost claims, `reservationValid` is the local of
`PublishNativeInlineWrite`. -/
inductive Phase
  /-- The first query of `PrepareNativeInlineWrite`. -/
  | prepareRead
  /-- Its second query, when the table has no statistics row. -/
  | prepareDerive (st : PublicationState)
  /-- Checks and the reservation. -/
  | prepared (st : PublicationState)
  | prewriting
  | publishRead (attempt : Nat) (reservationValid : Bool)
  | publishDerive (attempt : Nat) (reservationValid : Bool) (st : PublicationState)
  | publishCheck (attempt : Nat) (reservationValid : Bool) (st : PublicationState)
  | claim (attempt : Nat) (reservationValid : Bool) (st : PublicationState)
  | retag (reservationValid : Bool) (st : PublicationState)
  | tableStats (reservationValid : Bool) (st : PublicationState)
  | changeRecord (reservationValid : Bool) (st : PublicationState)
  | markPublished (reservationValid : Bool) (st : PublicationState)
  | published (reservationValid : Bool) (st : PublicationState)
  /-- `PublishNativeInlineWrite` had no rows to publish. -/
  | returned
  | failed (e : WriterError)
  /-- The transaction has ended; its callback is still to run. -/
  | ended (committed : Bool)
deriving DecidableEq, Repr

/-- A backend inside a native write. -/
structure Backend where
  batch : Batch
  phase : Phase
deriving DecidableEq, Repr

/-- A committed range of rows of a table, with the transaction and the snapshot that published it. -/
structure Publication where
  xid : Nat
  snapshotId : Nat
  schemaVersion : Nat
  native : Bool
  range : Range Nat
deriving DecidableEq, Repr

/-- The database. `history` records what was committed, newest first. -/
structure Store where
  catalog : Catalog
  nextXid : Nat
  status : Nat → XidStatus
  history : List Publication

/-- The database with the writers that are inside a native write. -/
structure State extends Store where
  writers : Nat → Option Backend

/-- What a command of transaction `x` sees. -/
def Store.sees (s : Store) (x : Nat) : Nat → Bool := seenBy s.status x

/-- The transactions that are committed. -/
def Store.isCommitted (s : Store) : Nat → Bool := committedIn s.status

/-- Writer `w` moves on. -/
def State.setWriter (s : State) (w : Nat) (backend : Backend) : State :=
  { s with writers := Function.update s.writers w (some backend) }

/-- The ids a publication uses. -/
def finalSnapshotId (st : PublicationState) : Nat := st.snapshotId + 1

def finalRowId (st : PublicationState) : Nat := st.nextRowId

/-- The rows of a batch at given ids. -/
def rowsAt (tableId schemaVersion rowId snapshotId count : Nat) : List InlinedRow :=
  (List.range count).map fun i => ⟨tableId, schemaVersion, rowId + i, snapshotId⟩

/-! ## Commands -/

/-- A chunk of prewritten rows, with the candidate values. -/
def prewriteRows (b : Batch) (count : Nat) (heap : List (Version InlinedRow)) : List (Version InlinedRow) :=
  heap ++ (rowsAt b.tableId b.schemaVersion (b.candidateRowId + b.rowsInserted) b.candidateSnapshotId count).map
    fun row => ⟨b.ownerXid, b.ownerCommandId, none, row⟩

/-- The batch after a chunk was inserted from position `pos` of the heap on. -/
def Batch.recordChunk (b : Batch) (pos count : Nat) : Batch :=
  { recordNativeInlineWriteRows b ((List.range count).map (pos + ·)) with rowsInserted := b.rowsInserted + count }

/-- How `INSERT INTO ducklake_snapshot .. ON CONFLICT (snapshot_id) DO NOTHING` ends. -/
inductive ClaimResult
  /-- Waiting for an in-progress inserter of the same id. -/
  | blocked
  | lost
  | claimed
deriving DecidableEq, Repr

/-- The unique check of the claim. -/
def claimSnapshot (s : Store) (x snapshotId : Nat) : ClaimResult :=
  if s.catalog.snapshot.any fun v => v.data.snapshotId == snapshotId && v.xmin != x && s.status v.xmin == .inProgress then
    .blocked
  else if s.catalog.snapshot.any fun v => v.data.snapshotId == snapshotId && v.visible (s.sees x) then .lost
  else .claimed

/-- The claimed row. -/
def claimRow (st : PublicationState) : SnapshotRow :=
  ⟨finalSnapshotId st, st.schemaVersion, st.nextCatalogId, st.nextFileId + 1⟩

/-- The loop of `RetagPrewrittenRowsInplace`: fetch by pointer, check the row's identity, overwrite it in place. -/
def retagInplace (sees : Nat → Bool) (b : Batch) (st : PublicationState) :
    List Nat → List (Version InlinedRow) → Except WriterError (List (Version InlinedRow))
  | [], heap => .ok heap
  | pointer :: pointers, heap =>
    match heap[pointer]? with
    | none => .error .rowDisappeared
    | some v =>
      if !v.visible sees then .error .rowDisappeared
      else if !b.owns v then .error .rowIdentityChanged
      else
        retagInplace sees b st pointers (heap.set pointer
          { v with data := { v.data with
              rowId := finalRowId st + v.data.rowId - b.candidateRowId
              beginSnapshot := finalSnapshotId st } })

/-- `RetagPrewrittenRows`. `supportsInplace` is `RelationSupportsInplaceRetag`. -/
def retagPrewrittenRows (sees : Nat → Bool) (b : Batch) (st : PublicationState) (supportsInplace : Bool)
    (commandId : Nat) (heap : List (Version InlinedRow)) : Except WriterError (List (Version InlinedRow)) :=
  if !b.inlineTableBound then .error .notBound
  else if b.rowPointerTrackingEnabled && b.rowPointers.length == b.rowsInserted && supportsInplace then
    retagInplace sees b st b.rowPointers heap
  else
    let p := fun v => b.inRelation v && b.owns v
    if updateCount sees p heap != b.rowsInserted then .error (.retagged (updateCount sees p heap) b.rowsInserted)
    else
      .ok (updateRows sees b.ownerXid commandId p (fun row =>
        { row with rowId := finalRowId st + row.rowId - b.candidateRowId, beginSnapshot := finalSnapshotId st }) heap)

/-- The table statistics of an attempt. -/
def writeTableStats (sees : Nat → Bool) (b : Batch) (st : PublicationState) (commandId : Nat)
    (heap : List (Version TableStatsRow)) : Except WriterError (List (Version TableStatsRow)) :=
  if st.hasTableStats then
    let p := fun v : Version TableStatsRow => v.data.tableId == b.tableId
    if updateCount sees p heap != 1 then .error .statsRowDisappeared
    else
      .ok (updateRows sees b.ownerXid commandId p (fun row =>
        { row with
          recordCount := st.recordCount + b.rowsInserted
          nextRowId := finalRowId st + b.rowsInserted }) heap)
  else .ok (insertRow b.ownerXid commandId ⟨b.tableId, b.rowsInserted, finalRowId st + b.rowsInserted⟩ heap)

/-- The change record of an attempt. -/
def changeRow (b : Batch) (st : PublicationState) : ChangeRow :=
  ⟨finalSnapshotId st, some ("inlined_insert:" ++ toString b.tableId)⟩

/-! ## External writers -/

/-- Rows an external commit adds to a table, inlined or in a data file. -/
structure ExternalInsert where
  tableId : Nat
  schemaVersion : Nat
  rows : Nat
  inlined : Bool

/-- An external commit: its snapshot row, its change record, the rows it adds and what it leaves of the tables the writer
only reads. -/
structure ExternalCommit where
  schemaVersion : Nat
  nextCatalogId : Nat
  nextFileId : Nat
  changesMade : String
  inserts : List ExternalInsert
  tableIsLive : Nat → Bool
  maxInlineSchemaVersion : Nat → Option Int

/-- The next row id of a table, 0 without a statistics row. -/
def tableNextRowId (sees : Nat → Bool) (heap : List (Version TableStatsRow)) (tableId : Nat) : Nat :=
  (((view sees heap).find? (·.tableId == tableId)).map (·.nextRowId)).getD 0

/-- Both counters of the table move by the rows added. -/
def bumpTableStats (sees : Nat → Bool) (x tableId rows : Nat) (heap : List (Version TableStatsRow)) :
    List (Version TableStatsRow) :=
  if (view sees heap).any (·.tableId == tableId) then
    updateRows sees x 0 (fun v => v.data.tableId == tableId) (fun row =>
      { row with recordCount := row.recordCount + rows, nextRowId := row.nextRowId + rows }) heap
  else insertRow x 0 ⟨tableId, rows, rows⟩ heap

/-- One table of an external commit by transaction `x` at a snapshot. -/
def externalInsert (sees : Nat → Bool) (x snapshotId : Nat) (acc : Catalog × List Publication) (ins : ExternalInsert) :
    Catalog × List Publication :=
  let start := tableNextRowId sees acc.1.tableStats ins.tableId
  ({ acc.1 with
      tableStats := bumpTableStats sees x ins.tableId ins.rows acc.1.tableStats
      inlined :=
        if ins.inlined then
          acc.1.inlined ++ (rowsAt ins.tableId ins.schemaVersion start snapshotId ins.rows).map fun row => ⟨x, 0, none, row⟩
        else acc.1.inlined },
    ⟨x, snapshotId, ins.schemaVersion, false, ⟨ins.tableId, start, ins.rows⟩⟩ :: acc.2)

/-- The commit of an external writer at the snapshot after the latest. -/
def externalCommit (s : Store) (e : ExternalCommit) (latest : Nat) : Store :=
  let x := s.nextXid
  let (catalog, history) := e.inserts.foldl (externalInsert (s.sees x) x (latest + 1)) (s.catalog, s.history)
  { catalog := { catalog with
      snapshot := insertRow x 0 ⟨latest + 1, e.schemaVersion, e.nextCatalogId, e.nextFileId⟩ catalog.snapshot
      changes := insertRow x 0 ⟨latest + 1, some e.changesMade⟩ catalog.changes
      tableIsLive := e.tableIsLive
      maxInlineSchemaVersion := e.maxInlineSchemaVersion }
    nextXid := x + 1
    status := Function.update s.status x .committed
    history := history }

/-! ## Steps -/

/-- The steps of the writers `w`, and commits of external writers. -/
inductive Action
  | prepare (w tableId schemaVersion : Nat) (isTransactionBlock usesXactSnapshot : Bool) (nestLevel : Nat)
  | read (w : Nat)
  | derive (w : Nat)
  /-- The reservation and its answer: candidate snapshot and row ids. -/
  | reserve (w commandId : Nat) (answer : Option (Nat × Nat))
  | bind (w : Nat) (supportsInplace : Bool)
  | prewrite (w count : Nat)
  /-- The answer is that of `CompleteNativeWriterReservation` and `WaitForNativeWriterPublication`. -/
  | publish (w : Nat) (answer : Bool)
  /-- The answer is that of `ValidateNativeWriterReservation`. -/
  | check (w : Nat) (answer : Bool)
  | claim (w commandId : Nat)
  | retag (w commandId : Nat) (supportsInplace : Bool)
  | tableStats (w commandId : Nat)
  | changeRecord (w commandId : Nat)
  | markPublished (w : Nat)
  | commit (w : Nat)
  | abort (w : Nat)
  | callback (w : Nat)
  | external (e : ExternalCommit)

/-- The catalog state a read finds; a table without statistics needs the second query. -/
def afterRead (derive done : PublicationState → Phase) : Except WriterError PublicationState → Phase
  | .error e => .failed e
  | .ok st => if st.hasTableStats then done st else derive st

/-- After the checks: go on, or fail. -/
def afterCheck (done : Phase) : Except WriterError Unit → Phase
  | .error e => .failed e
  | .ok () => done

/-- The batch with its reservation's candidates, or with the observed ones. -/
def Batch.withCandidates (b : Batch) (st : PublicationState) (commandId : Nat) (answer : Option (Nat × Nat)) : Batch :=
  { b with
    startSnapshotId := st.snapshotId
    candidateSnapshotId := (answer.map (·.1)).getD (st.snapshotId + 1)
    candidateRowId := (answer.map (·.2)).getD st.nextRowId
    ownerCommandId := commandId }

/-- The phase in which `PublishNativeInlineWrite` starts its loop. -/
def publishPhase (b : Batch) (answer : Bool) : Phase :=
  if b.rowsInserted == 0 then .returned
  else if u64Add b.candidateRowId b.rowsInserted < b.candidateRowId ||
      int64Max < u64Add b.candidateRowId b.rowsInserted then .failed .exhaustedRowIds
  else .publishRead 0 answer

/-- The phase after a lost claim. -/
def lostPhase (env : Env) (attempt : Nat) : Phase :=
  if attempt == env.maxRetryCount then .failed (.retriesExceeded env.maxRetryCount)
  else .publishRead (attempt + 1) false

/-- The phase after a won claim: retag when the candidates are not the final ids. -/
def claimedPhase (b : Batch) (reservationValid : Bool) (st : PublicationState) : Phase :=
  if finalSnapshotId st != b.candidateSnapshotId || finalRowId st != b.candidateRowId then .retag reservationValid st
  else .tableStats reservationValid st

/-- What the transaction of a published batch adds to the history. -/
def publicationOf (b : Batch) (st : PublicationState) : Publication :=
  ⟨b.ownerXid, finalSnapshotId st, b.schemaVersion, true, ⟨b.tableId, finalRowId st, b.rowsInserted⟩⟩

/-- One step of writer `w`. -/
def writerStep (env : Env) (s : State) (w : Nat) (backend : Backend) (a : Action) : Option State :=
  let b := backend.batch
  match backend.phase, a with
  | .prepareRead, .read _ =>
    let result := readPublicationState s.catalog (s.sees b.ownerXid) b int64Max
    some (s.setWriter w ⟨b, afterRead .prepareDerive .prepared result⟩)
  | .prepareDerive st, .derive _ =>
    let st := { st with recordCount := 0, nextRowId := deriveNextRowId s.catalog (s.sees b.ownerXid) b }
    some (s.setWriter w ⟨b, .prepared st⟩)
  | .prepared st, .reserve _ commandId answer =>
    some (s.setWriter w ⟨b.withCandidates st commandId answer, afterCheck .prewriting (checkPreparedState b st)⟩)
  | .prewriting, .bind _ supportsInplace =>
    if b.rowsInserted == 0 then
      some (s.setWriter w ⟨{ b with inlineTableBound := true, rowPointerTrackingEnabled := supportsInplace }, .prewriting⟩)
    else none
  | .prewriting, .prewrite _ count =>
    if b.inlineTableBound then
      some ({ s with catalog := { s.catalog with inlined := prewriteRows b count s.catalog.inlined } }.setWriter w
        ⟨b.recordChunk s.catalog.inlined.length count, .prewriting⟩)
    else none
  | .prewriting, .publish _ answer => some (s.setWriter w ⟨b, publishPhase b answer⟩)
  | .publishRead attempt valid, .read _ =>
    let result := readPublicationState s.catalog (s.sees b.ownerXid) b b.startSnapshotId
    some (s.setWriter w ⟨b, afterRead (.publishDerive attempt valid) (.publishCheck attempt valid) result⟩)
  | .publishDerive attempt valid st, .derive _ =>
    let st := { st with recordCount := 0, nextRowId := deriveNextRowId s.catalog (s.sees b.ownerXid) b }
    some (s.setWriter w ⟨b, .publishCheck attempt valid st⟩)
  | .publishCheck attempt valid st, .check _ answer =>
    some (s.setWriter w ⟨b, afterCheck (.claim attempt (valid && answer) st) (checkPublicationState env b st)⟩)
  | .claim attempt valid st, .claim _ commandId =>
    match claimSnapshot s.toStore b.ownerXid (finalSnapshotId st) with
    | .blocked => none
    | .lost => some (s.setWriter w ⟨b, lostPhase env attempt⟩)
    | .claimed =>
      let snapshot := insertRow b.ownerXid commandId (claimRow st) s.catalog.snapshot
      some ({ s with catalog := { s.catalog with snapshot := snapshot } }.setWriter w ⟨b, claimedPhase b valid st⟩)
  | .retag valid st, .retag _ commandId supportsInplace =>
    match retagPrewrittenRows (s.sees b.ownerXid) b st supportsInplace commandId s.catalog.inlined with
    | .error e => some (s.setWriter w ⟨b, .failed e⟩)
    | .ok inlined =>
      some ({ s with catalog := { s.catalog with inlined := inlined } }.setWriter w ⟨b, .tableStats valid st⟩)
  | .tableStats valid st, .tableStats _ commandId =>
    match writeTableStats (s.sees b.ownerXid) b st commandId s.catalog.tableStats with
    | .error e => some (s.setWriter w ⟨b, .failed e⟩)
    | .ok tableStats =>
      some ({ s with catalog := { s.catalog with tableStats := tableStats } }.setWriter w ⟨b, .changeRecord valid st⟩)
  | .changeRecord valid st, .changeRecord _ commandId =>
    let changes := insertRow b.ownerXid commandId (changeRow b st) s.catalog.changes
    some ({ s with catalog := { s.catalog with changes := changes } }.setWriter w ⟨b, .markPublished valid st⟩)
  | .markPublished valid st, .markPublished _ => some (s.setWriter w ⟨b, .published valid st⟩)
  | .published _ st, .commit _ =>
    some ({ s with
      status := Function.update s.status b.ownerXid .committed
      history := publicationOf b st :: s.history }.setWriter w ⟨b, .ended true⟩)
  | .returned, .commit _ =>
    some ({ s with status := Function.update s.status b.ownerXid .committed }.setWriter w ⟨b, .ended true⟩)
  | .ended _, .callback _ => some { s with writers := Function.update s.writers w none }
  | .ended _, _ => none
  | _, .abort _ =>
    some ({ s with status := Function.update s.status b.ownerXid .aborted }.setWriter w ⟨b, .ended false⟩)
  | _, _ => none

/-- The writer of an action, `none` for external commits. -/
def Action.writer : Action → Option Nat
  | .prepare w .. | .read w | .derive w | .reserve w .. | .bind w _ | .prewrite w _ | .publish w _ | .check w _
  | .claim w _ | .retag w .. | .tableStats w _ | .changeRecord w _ | .markPublished w | .commit w | .abort w
  | .callback w => some w
  | .external _ => none

/-- The phase in which `PrepareNativeInlineWrite` starts. -/
def preparePhase (isTransactionBlock usesXactSnapshot : Bool) (nestLevel : Nat) : Phase :=
  if isTransactionBlock || usesXactSnapshot then .failed .notImplicitReadCommitted
  else if nestLevel != 1 then .failed .insideSubtransaction
  else .prepareRead

/-- The state after an action, when it can happen. -/
def next (env : Env) (s : State) : Action → Option State
  | .prepare w tableId schemaVersion isTransactionBlock usesXactSnapshot nestLevel =>
    match s.writers w with
    | some _ => none
    | none =>
      some ({ s with nextXid := s.nextXid + 1 }.setWriter w
        ⟨.empty tableId schemaVersion s.nextXid, preparePhase isTransactionBlock usesXactSnapshot nestLevel⟩)
  | .external e =>
    -- an external writer waits for an in-progress inserter of its snapshot id
    match maxBy (fun _ => true) (·.snapshotId) (view s.isCommitted s.catalog.snapshot) with
    | none => none
    | some (_, latest) =>
      if claimSnapshot s.toStore s.nextXid (latest.snapshotId + 1) == .claimed then some { s with toStore := externalCommit s.toStore e latest.snapshotId }
      else none
  | a =>
    match a.writer with
    | none => none
    | some w => (s.writers w).bind fun backend => writerStep env s w backend a

/-- One step of the system. -/
def Step (env : Env) (s t : State) : Prop := ∃ a, next env s a = some t

end PgDucklake.Writer
