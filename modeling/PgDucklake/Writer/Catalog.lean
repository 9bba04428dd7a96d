import PgDucklake.Lib.Mvcc
import PgDucklake.Lib.Select
import PgDucklake.Lib.Words
import Mathlib.Data.List.Sort

/-!
# The DuckLake catalog as the native writer reads it

The metadata tables that `native_inline_writer.cpp` touches, as heaps of row versions, with the two queries of
`ReadPublicationState` (`readPublicationState`, `deriveNextRowId`), `ValidateBinding`, the checks of the publication loop
(`checkPublicationState`) and the error texts.

Columns no query of the writer uses are left out. Protocol fields are natural numbers: the writer refuses NULL and
negative ones as corrupted data.
-/

namespace PgDucklake.Writer

open Lib

/-! ## Tables -/

/-- `ducklake_snapshot`. -/
structure SnapshotRow where
  snapshotId : Nat
  schemaVersion : Nat
  nextCatalogId : Nat
  nextFileId : Nat
deriving DecidableEq, Repr

/-- `ducklake_table_stats`. -/
structure TableStatsRow where
  tableId : Nat
  recordCount : Nat
  nextRowId : Nat
deriving DecidableEq, Repr

/-- A row of `ducklake_inlined_data_<table_id>_<schema_version>`: the relation, then its system columns. -/
structure InlinedRow where
  tableId : Nat
  schemaVersion : Nat
  rowId : Nat
  beginSnapshot : Nat
deriving DecidableEq, Repr

/-- `ducklake_snapshot_changes`. -/
structure ChangeRow where
  snapshotId : Nat
  changesMade : Option String
deriving DecidableEq, Repr

/-- The catalog. `ducklake_metadata`, `ducklake_table` and `ducklake_inlined_data_tables` are only read by the writer;
they appear as the answers to its subqueries. -/
structure Catalog where
  snapshot : List (Version SnapshotRow)
  tableStats : List (Version TableStatsRow)
  inlined : List (Version InlinedRow)
  changes : List (Version ChangeRow)
  version : Option String
  tableIsLive : Nat → Bool
  maxInlineSchemaVersion : Nat → Option Int

/-! ## Errors -/

/-- The errors of the native writer. -/
inductive WriterError
  | notImplicitReadCommitted
  | insideSubtransaction
  | couldNotReadState
  | unsupportedVersion (found : String)
  | targetTableChanged (tableId schemaVersion : Nat)
  | exhaustedIds
  | exhaustedRowIds
  | incompleteChangeHistory
  | conflictingChange (tableId : Nat)
  | invalidChangeRecord
  | outOfMemory
  | notBound
  | rowDisappeared
  | rowIdentityChanged
  | retagged (rows expected : Nat)
  | statsRowDisappeared
  | retriesExceeded (maxRetryCount : Nat)
deriving DecidableEq, Repr

/-! ## Batches -/

/-- `MAX_TRACKED_ROW_POINTERS`: 512 KiB of 8-byte row pointers. -/
def maxTrackedRowPointers : Nat := 512 * 1024 / 8

/-- `NativeInlineWriteBatch`. Row pointers are positions in the heap; `inlineTableBound` stands for a valid
`inline_table_oid`, which is always the relation of the table and its schema version. -/
structure Batch where
  tableId : Nat
  schemaVersion : Nat
  startSnapshotId : Nat
  candidateSnapshotId : Nat
  candidateRowId : Nat
  ownerXid : Nat
  ownerCommandId : Nat
  inlineTableBound : Bool
  rowPointers : List Nat
  rowPointerTrackingEnabled : Bool
  rowsInserted : Nat
deriving DecidableEq, Repr

/-- The batch at the start of `PrepareNativeInlineWrite`. -/
def Batch.empty (tableId schemaVersion ownerXid : Nat) : Batch where
  tableId := tableId
  schemaVersion := schemaVersion
  startSnapshotId := 0
  candidateSnapshotId := 0
  candidateRowId := 0
  ownerXid := ownerXid
  ownerCommandId := 0
  inlineTableBound := false
  rowPointers := []
  rowPointerTrackingEnabled := true
  rowsInserted := 0

/-- The prewritten rows of a batch: created by its transaction and command, with its candidate values. A committed batch
of another writer may have the same candidate values. -/
def Batch.owns (b : Batch) (v : Version InlinedRow) : Bool :=
  v.xmin == b.ownerXid && v.cmin == b.ownerCommandId && v.data.beginSnapshot == b.candidateSnapshotId &&
    decide (b.candidateRowId ≤ v.data.rowId) && decide (v.data.rowId < b.candidateRowId + b.rowsInserted)

/-- In the inline relation of the batch. -/
def Batch.inRelation (b : Batch) (v : Version InlinedRow) : Bool :=
  v.data.tableId == b.tableId && v.data.schemaVersion == b.schemaVersion

/-- `RecordNativeInlineWriteRows`: pointers are dropped for good past the memory cap. -/
def recordNativeInlineWriteRows (b : Batch) (pointers : List Nat) : Batch :=
  if pointers.length == 0 || !b.rowPointerTrackingEnabled then b
  else if maxTrackedRowPointers - b.rowPointers.length < pointers.length then
    { b with rowPointers := [], rowPointerTrackingEnabled := false }
  else { b with rowPointers := b.rowPointers ++ pointers }

/-! ## Reading the publication state -/

structure PublicationState where
  snapshotId : Nat
  schemaVersion : Nat
  nextCatalogId : Nat
  nextFileId : Nat
  recordCount : Nat
  nextRowId : Nat
  inlineSchemaVersion : Nat
  changeRowCount : Nat
  nonnullChangeCount : Nat
  hasTableStats : Bool
  tableIsLive : Bool
  changesMade : String
deriving DecidableEq, Repr

/-- The inline schema version of a table, or `UINT64_MAX` for none. -/
def inlineSchemaVersion (c : Catalog) (tableId : Nat) : Nat :=
  match c.maxInlineSchemaVersion tableId with
  | some v => if v < 0 then u64Max else v.toNat
  | none => u64Max

/-- `STRING_AGG(changes_made, ',' ORDER BY snapshot_id)`; NULLs do not take part. -/
def aggregateChanges (changes : List ChangeRow) : String :=
  ",".intercalate ((changes.insertionSort fun a b => a.snapshotId ≤ b.snapshotId).filterMap (·.changesMade))

/-- The first query of `ReadPublicationState`, by a command that sees the transactions in `sees`. Without a
`ducklake_table_stats` row the counters are left for `deriveNextRowId`. -/
def readPublicationState (c : Catalog) (sees : Nat → Bool) (b : Batch) (changesAfter : Nat) :
    Except WriterError PublicationState :=
  match maxBy (fun _ => true) (·.snapshotId) (view sees c.snapshot) with
  | none => .error .couldNotReadState
  | some (_, s) =>
    if c.version != some "1.0" then .error (.unsupportedVersion (c.version.getD "<missing>"))
    else
      let stats := (view sees c.tableStats).find? (·.tableId == b.tableId)
      let changes := (view sees c.changes).filter fun r => decide (changesAfter < r.snapshotId)
      .ok
        { snapshotId := s.snapshotId
          schemaVersion := s.schemaVersion
          nextCatalogId := s.nextCatalogId
          nextFileId := s.nextFileId
          recordCount := (stats.map (·.recordCount)).getD 0
          nextRowId := (stats.map (·.nextRowId)).getD 0
          inlineSchemaVersion := inlineSchemaVersion c b.tableId
          changeRowCount := changes.length
          nonnullChangeCount := (changes.filter (·.changesMade.isSome)).length
          hasTableStats := stats.isSome
          tableIsLive := c.tableIsLive b.tableId
          changesMade := aggregateChanges changes }

/-- The second query of `ReadPublicationState`, `COALESCE(MAX(row_id) + 1, 0)` over the inline relation. A child
publication attempt sees its parent's prewritten tuples; they are not part of the committed allocation base when no stats
row exists. -/
def deriveNextRowId (c : Catalog) (sees : Nat → Bool) (b : Batch) : Nat :=
  ((c.inlined.filter fun v => v.visible sees && b.inRelation v && !(decide (0 < b.rowsInserted) && b.owns v)).map
    (·.data.rowId + 1)).foldr max 0

/-- `ValidateBinding`. -/
def validateBinding (b : Batch) (st : PublicationState) : Except WriterError Unit :=
  if !st.tableIsLive || st.inlineSchemaVersion != b.schemaVersion then
    .error (.targetTableChanged b.tableId b.schemaVersion)
  else .ok ()

/-- `ChangeCheckResult`. -/
inductive ChangeCheckResult
  | ok
  | conflict
  | invalid
  | outOfMemory
deriving DecidableEq, Repr

/-- What the writer takes from outside: DuckLake's parser of change records, as `CheckInterveningChanges` uses it, and
`ducklake.native_writer_max_retry_count`. -/
structure Env where
  checkInterveningChanges : String → Nat → ChangeCheckResult
  maxRetryCount : Nat

/-- The checks of `PrepareNativeInlineWrite` on the state it read. -/
def checkPreparedState (b : Batch) (st : PublicationState) : Except WriterError Unit :=
  match validateBinding b st with
  | .error e => .error e
  | .ok () => if int64Max ≤ st.snapshotId || int64Max < st.nextRowId then .error .exhaustedIds else .ok ()

/-- The checks of an attempt of `PublishNativeInlineWrite` on the state it read. -/
def checkPublicationState (env : Env) (b : Batch) (st : PublicationState) : Except WriterError Unit :=
  match validateBinding b st with
  | .error e => .error e
  | .ok () =>
    if st.snapshotId < b.startSnapshotId || st.changeRowCount != st.snapshotId - b.startSnapshotId ||
        st.nonnullChangeCount != st.snapshotId - b.startSnapshotId then .error .incompleteChangeHistory
    else
      match env.checkInterveningChanges st.changesMade b.tableId with
      | .conflict => .error (.conflictingChange b.tableId)
      | .invalid => .error .invalidChangeRecord
      | .outOfMemory => .error .outOfMemory
      | .ok =>
        if int64Max ≤ st.snapshotId || int64Max ≤ st.nextFileId || int64Max < b.rowsInserted ||
            int64Max - b.rowsInserted < st.nextRowId || int64Max - b.rowsInserted < st.recordCount then
          .error .exhaustedIds
        else .ok ()

/-- The ids that the checks of an attempt let through. -/
structure InRange (b : Batch) (st : PublicationState) : Prop where
  snapshot : st.snapshotId < int64Max
  nextFile : st.nextFileId < int64Max
  nextRow : st.nextRowId + b.rowsInserted ≤ int64Max
  recordCount : st.recordCount + b.rowsInserted ≤ int64Max

theorem checkPublicationState_inRange {env : Env} {b : Batch} {st : PublicationState}
    (h : checkPublicationState env b st = .ok ()) : InRange b st := by
  unfold checkPublicationState at h
  split at h
  · cases h
  · split at h
    · cases h
    · split at h
      · cases h
      · cases h
      · cases h
      · split at h
        · cases h
        · rename_i hids
          simp only [Bool.or_eq_true, decide_eq_true_eq, not_or, Nat.not_le, Nat.not_lt] at hids
          obtain ⟨⟨⟨⟨hsnapshot, hfile⟩, hrows⟩, hnext⟩, hrecords⟩ := hids
          exact ⟨hsnapshot, hfile, by omega, by omega⟩

end PgDucklake.Writer
