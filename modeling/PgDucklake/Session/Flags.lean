import PgDucklake.Lib.ErrorFlow

/-!
# Suppress-sync flags

Three global variables of a session switch parts of catalog sync off: `syncing_from_metadata`, `sort_synced_from_pg` and
`skip_snapshot_sync`. The procedures, the snapshot trigger and the publication attempt set them around inner calls, each of
which may end by a PostgreSQL error or by a C++ exception. `flags_restored_iff` says for every sequence of calls of a
session which ends of inner calls the flags survive; `failed_index_keeps_flag` is a `set_sort` after which one stays set.
-/

namespace PgDucklake.Flags

open Lib Prog

structure SyncFlags where
  syncingFromMetadata : Bool
  sortSyncedFromPg : Bool
  skipSnapshotSync : Bool
  deriving DecidableEq, Repr

/-- The flags of a new session. -/
def SyncFlags.clear : SyncFlags := ⟨false, false, false⟩

def setSyncing (b : Bool) : Prog SyncFlags Unit := update fun f => { f with syncingFromMetadata := b }

def setSortSynced (b : Bool) : Prog SyncFlags Unit := update fun f => { f with sortSyncedFromPg := b }

def setSkip (b : Bool) : Prog SyncFlags Unit := update fun f => { f with skipSnapshotSync := b }

/-! ## The procedures -/

/-- How the inner calls of `set_sort` and `reset_sort` end: the checks of the arguments, the DuckDB query, `SPI_connect`,
the sync of the index and `SPI_finish`. -/
structure SortCalls where
  checks : Exit Unit
  query : Exit Unit
  connect : Exit Unit
  sync : Exit Unit
  finish : Exit Unit
  deriving DecidableEq, Repr

/-- The body that the two procedures share. -/
def sortProcedure (c : SortCalls) : Prog SyncFlags Unit :=
  guarded do
    call c.checks
    setSortSynced true
    catchAll (call c.query) do
      setSortSynced false
      call .thrown
    setSortSynced false
    call c.connect
    setSyncing true
    call c.sync
    setSyncing false
    call c.finish

/-- `ducklake_set_sort`; the sync is `CreateSortedIndexForTable`. -/
def setSort (c : SortCalls) : Prog SyncFlags Unit := sortProcedure c

/-- `ducklake_reset_sort`; the sync is `DropSortedIndexForTable`. -/
def resetSort (c : SortCalls) : Prog SyncFlags Unit := sortProcedure c

/-! ## The snapshot trigger -/

/-- How the inner calls of the trigger end: the check that it is called as one; the reading of the snapshot id,
`SPI_connect` and the change of `duckdb.force_execution`; the handlers; and what follows them. -/
structure TriggerCalls where
  checks : Exit Unit
  connect : Exit Unit
  syncNewTables : Exit Unit
  syncDroppedTables : Exit Unit
  syncSortKeys : Exit Unit
  finish : Exit Unit
  deriving DecidableEq, Repr

/-- What a run of the trigger has synchronised. -/
inductive Synced
  | nothing
  | tables
  | tablesAndSortKeys
  deriving DecidableEq, Repr

/-- The handlers, in order. `SyncSortKeys` returns at once if the sort was set from PostgreSQL. -/
def syncHandlers (c : TriggerCalls) : Prog SyncFlags Synced := do
  call c.syncNewTables
  call c.syncDroppedTables
  let f ← get
  if f.sortSyncedFromPg then pure .tables
  else do
    call c.syncSortKeys
    pure .tablesAndSortKeys

/-- `ducklake_snapshot_trigger`, with the setting `ducklake.enable_metadata_sync`. -/
def snapshotTrigger (enableMetadataSync : Bool) (c : TriggerCalls) : Prog SyncFlags Synced :=
  guarded do
    call c.checks
    let f ← get
    if f.skipSnapshotSync || !enableMetadataSync then pure .nothing
    else do
      call c.connect
      setSyncing true
      let synced ← pgFinally (syncHandlers c) fun f => { f with syncingFromMetadata := false }
      call c.finish
      pure synced

/-! ## The publication attempt -/

/-- How the inner calls of an attempt end: the start of the subtransaction, `SPI_connect`, the claim, all that follows up
to the end of the subtransaction, and in the handler the copy of the error and the rollback. -/
structure AttemptCalls where
  begin : Exit Unit
  connect : Exit Unit
  claim : Exit Bool
  publish : Exit Unit
  copyError : Exit Unit
  rollback : Exit Unit
  deriving DecidableEq, Repr

/-- `RunPublicationAttempt`. -/
def runPublicationAttempt (c : AttemptCalls) : Prog SyncFlags Bool := do
  let old ← get
  call c.begin
  let claimed ← pgTry (do
      call c.connect
      setSkip true
      let claimed ← call c.claim
      setSkip old.skipSnapshotSync
      call c.publish
      pure claimed) do
    call c.copyError
    setSkip old.skipSnapshotSync
    call c.rollback
    call .longjmp
  setSkip old.skipSnapshotSync
  pure claimed

/-! ## Sequences of calls -/

inductive Call
  | setSort (c : SortCalls)
  | resetSort (c : SortCalls)
  | snapshotTrigger (enableMetadataSync : Bool) (c : TriggerCalls)
  | runPublicationAttempt (c : AttemptCalls)
  deriving DecidableEq, Repr

/-- The flags after a call, however it ends. -/
def Call.after (f : SyncFlags) : Call → SyncFlags
  | .setSort c => (Flags.setSort c f).2
  | .resetSort c => (Flags.resetSort c f).2
  | .snapshotTrigger enabled c => (Flags.snapshotTrigger enabled c f).2
  | .runPublicationAttempt c => (Flags.runPublicationAttempt c f).2

/-- Every call of the sequence leaves the flags as it has found them. -/
def AllRestored : SyncFlags → List Call → Prop
  | _, [] => True
  | f, c :: cs => c.after f = f ∧ AllRestored (c.after f) cs

/-- The ends of inner calls that the flags survive. -/
def SortCalls.Clean (c : SortCalls) : Prop :=
  c.checks = .ret () → c.query ≠ .longjmp ∧ (c.query = .ret () → c.connect = .ret () → c.sync = .ret ())

/-- No handler ends by an exception, up to the first that does not return. -/
def TriggerCalls.Clean (c : TriggerCalls) : Prop :=
  c.checks = .ret () → c.connect = .ret () → c.syncNewTables ≠ .thrown ∧
    (c.syncNewTables = .ret () → c.syncDroppedTables ≠ .thrown ∧
      (c.syncDroppedTables = .ret () → c.syncSortKeys ≠ .thrown))

def AttemptCalls.Clean (c : AttemptCalls) : Prop :=
  c.begin = .ret () → c.connect = .ret () → c.claim ≠ .thrown ∧ (c.claim = .longjmp → c.copyError = .ret ())

def Call.Clean : Call → Prop
  | .setSort c => c.Clean
  | .resetSort c => c.Clean
  | .snapshotTrigger enabled c => enabled = true → c.Clean
  | .runPublicationAttempt c => c.Clean

/-! ## One call -/

theorem sortProcedure_restored_iff (c : SortCalls) : (sortProcedure c .clear).2 = .clear ↔ c.Clean := by
  obtain ⟨checks, query, connect, sync, finish⟩ := c
  simp only [sortProcedure, setSortSynced, setSyncing, SyncFlags.clear, SortCalls.Clean]
  cases checks with
  | longjmp => simp
  | thrown => simp
  | ret =>
    cases query with
    | longjmp => simp
    | thrown => simp
    | ret =>
      cases connect with
      | longjmp => simp
      | thrown => simp
      | ret =>
        cases sync with
        | longjmp => simp
        | thrown => simp
        | ret => cases finish <;> simp

theorem snapshotTrigger_restored_iff (enabled : Bool) (c : TriggerCalls) :
    (snapshotTrigger enabled c .clear).2 = .clear ↔ (enabled = true → c.Clean) := by
  obtain ⟨checks, connect, syncNewTables, syncDroppedTables, syncSortKeys, finish⟩ := c
  simp only [snapshotTrigger, syncHandlers, setSyncing, SyncFlags.clear, TriggerCalls.Clean]
  cases enabled with
  | false => cases checks <;> simp
  | true =>
    cases checks with
    | longjmp => simp
    | thrown => simp
    | ret =>
      cases connect with
      | longjmp => simp
      | thrown => simp
      | ret =>
        cases syncNewTables with
        | longjmp => simp
        | thrown => simp
        | ret =>
          cases syncDroppedTables with
          | longjmp => simp
          | thrown => simp
          | ret =>
            cases syncSortKeys with
            | longjmp => simp
            | thrown => simp
            | ret => cases finish <;> simp

theorem runPublicationAttempt_restored_iff (c : AttemptCalls) :
    (runPublicationAttempt c .clear).2 = .clear ↔ c.Clean := by
  obtain ⟨begin, connect, claim, publish, copyError, rollback⟩ := c
  simp only [runPublicationAttempt, setSkip, SyncFlags.clear, AttemptCalls.Clean]
  cases begin with
  | longjmp => simp
  | thrown => simp
  | ret =>
    cases connect with
    | longjmp => cases copyError <;> cases rollback <;> simp
    | thrown => simp
    | ret =>
      cases claim with
      | longjmp => cases copyError <;> cases rollback <;> simp
      | thrown => simp
      | ret => cases publish <;> cases copyError <;> cases rollback <;> simp

theorem after_clear_iff (c : Call) : c.after .clear = .clear ↔ c.Clean := by
  cases c with
  | setSort c => exact sortProcedure_restored_iff c
  | resetSort c => exact sortProcedure_restored_iff c
  | snapshotTrigger enabled c => exact snapshotTrigger_restored_iff enabled c
  | runPublicationAttempt c => exact runPublicationAttempt_restored_iff c

/-! ## Sequences -/

theorem allRestored_iff : ∀ calls : List Call, AllRestored .clear calls ↔ ∀ c ∈ calls, c.Clean
  | [] => by simp [AllRestored]
  | c :: calls => by
    rw [AllRestored, List.forall_mem_cons, ← after_clear_iff c]
    refine and_congr_right fun h => ?_
    rw [h]
    exact allRestored_iff calls

/-- The flags after a sequence of calls. -/
def afterAll (f : SyncFlags) (calls : List Call) : SyncFlags := calls.foldl Call.after f

theorem afterAll_of_allRestored : ∀ {f : SyncFlags} {calls : List Call}, AllRestored f calls → afterAll f calls = f
  | _, [], _ => rfl
  | f, c :: calls, h => by
    have hrest := afterAll_of_allRestored h.2
    rw [h.1] at hrest
    rw [afterAll, List.foldl_cons, h.1]
    exact hrest

/-- A trigger run whose calls return. -/
def TriggerCalls.ok : TriggerCalls := ⟨.ret (), .ret (), .ret (), .ret (), .ret (), .ret ()⟩

/-- In a session, every call leaves the flags as it has found them exactly if no inner call of a sequence ends in a way
that passes over the code that restores a flag. Then a later snapshot of another writer is synchronised in full. -/
theorem flags_restored_iff (calls : List Call) :
    (AllRestored .clear calls ↔ ∀ c ∈ calls, c.Clean) ∧
      (AllRestored .clear calls →
        (snapshotTrigger true .ok (afterAll .clear calls)).1 = .ret .tablesAndSortKeys) := by
  refine ⟨allRestored_iff calls, fun h => ?_⟩
  rw [afterAll_of_allRestored h]
  rfl

/-- `CREATE INDEX` fails inside `set_sort`, e.g. because PostgreSQL does not accept a key that DuckDB accepts: the error
leaves `syncing_from_metadata` set. -/
theorem failed_index_keeps_flag :
    (setSort ⟨.ret (), .ret (), .ret (), .longjmp, .ret ()⟩ .clear) = (.longjmp, ⟨true, false, false⟩) := rfl

end PgDucklake.Flags
