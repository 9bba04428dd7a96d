import PgDucklake.Sync.Catalog
import Mathlib.Data.List.Sort

/-!
# The snapshot trigger

DuckLake's metadata tables, and the two handlers by which `ducklake_snapshot_trigger` carries the tables that a snapshot
began or ended over to PostgreSQL. `syncNewTables_eq` says what the loop over the joined rows does: for one table after
another, nothing if a relation of that name exists, else `CREATE SCHEMA` and `CREATE TABLE`.
-/

namespace PgDucklake.Sync

/-! ## Metadata -/

/-- A row of `ducklake_schema`. -/
structure SchemaRow where
  schemaId : Nat
  schemaName : String
  endSnapshot : Option Nat
  deriving DecidableEq, Repr

/-- A row of `ducklake_table`. -/
structure TableRow where
  tableId : Nat
  schemaId : Nat
  tableName : String
  beginSnapshot : Nat
  endSnapshot : Option Nat
  deriving DecidableEq, Repr

/-- A row of `ducklake_column`. -/
structure ColumnRow where
  tableId : Nat
  columnOrder : Nat
  columnName : String
  columnType : String
  nullsAllowed : Bool
  parentColumn : Option Nat
  endSnapshot : Option Nat
  deriving DecidableEq, Repr

structure Metadata where
  schemas : List SchemaRow
  tables : List TableRow
  columns : List ColumnRow
  deriving DecidableEq, Repr

/-! ## Types -/

/-- The type modifier of a decimal. -/
def decimalTypmod (width scale : Nat) : Nat := (width <<< 16 ||| (scale &&& 0x7ff)) + 4

/-- `DuckLakeTypeToPgType` of a type name; `fromString` is `DuckLakeTypes::FromString`, `none` when it throws. -/
def duckLakeTypeToPgType (fromString : String → Option LogicalType) (dlType : String) : PgType :=
  match fromString dlType with
  | none => .text
  | some t =>
    match t.id with
    | .boolean => .bool
    | .tinyint | .smallint | .utinyint => .int2
    | .integer | .usmallint => .int4
    | .bigint | .uinteger => .int8
    | .hugeint | .ubigint | .uhugeint => .numeric none
    | .float => .float4
    | .double => .float8
    | .decimal => .numeric (some (decimalTypmod t.width t.scale))
    | .varchar => .text
    | .blob => .bytea
    | .uuid => .uuid
    | .date => .date
    | .time => .time
    | .timeTz => .timetz
    | .timestamp | .timestampMs | .timestampNs | .timestampSec => .timestamp
    | .timestampTz => .timestamptz
    | .interval => .interval
    | .variant => .variant
    | .other => .text

section Handlers

variable (fromString : String → Option LogicalType) (refuses : Catalog → Ddl → Bool)

/-! ## `SyncNewTables` -/

/-- A row of the join, with the column of the LEFT JOIN. -/
structure ColInfo where
  schemaName : String
  tableName : String
  column : Option PgColumn
  deriving DecidableEq, Repr

/-- The live top-level columns of a table, in column order. -/
def Metadata.liveColumns (md : Metadata) (tableId : Nat) : List ColumnRow :=
  (md.columns.filter fun c => c.tableId == tableId && c.parentColumn.isNone && c.endSnapshot.isNone).insertionSort
    fun a b => a.columnOrder ≤ b.columnOrder

/-- A column as the statement writes it. -/
def ColumnRow.toPg (c : ColumnRow) : PgColumn := ⟨c.columnName, duckLakeTypeToPgType fromString c.columnType, !c.nullsAllowed⟩

/-- The columns of a table as the statement writes them. -/
def Metadata.pgColumns (md : Metadata) (tableId : Nat) : List PgColumn :=
  (md.liveColumns tableId).map (·.toPg fromString)

/-- A table that the query finds, with its schema's name. -/
structure NamedTable where
  schemaName : String
  tableName : String
  tableId : Nat
  deriving DecidableEq, Repr

def NamedTable.qualified (t : NamedTable) : String × String := (t.schemaName, t.tableName)

/-- The tables begun at a snapshot, joined with the live schemas, by table id. -/
def Metadata.newTables (md : Metadata) (sid : Nat) : List NamedTable :=
  ((md.tables.filter (·.beginSnapshot == sid)).insertionSort fun a b => a.tableId ≤ b.tableId).flatMap fun t =>
    (md.schemas.filter fun s => s.schemaId == t.schemaId && s.endSnapshot.isNone).map fun s =>
      ⟨s.schemaName, t.tableName, t.tableId⟩

/-- The rows of one table: one without a column if it has none. -/
def Metadata.colInfos (md : Metadata) (t : NamedTable) : List ColInfo :=
  match md.pgColumns fromString t.tableId with
  | [] => [⟨t.schemaName, t.tableName, none⟩]
  | cs => cs.map fun c => ⟨t.schemaName, t.tableName, some c⟩

/-- The variables of the loop: `ddl` is the statement under construction, `none` when the string is empty. -/
structure SyncLoop where
  catalog : Catalog
  prev : String × String
  ddl : Option (String × String × List PgColumn)
  skipTable : Bool

/-- `emit_ddl`. -/
def SyncLoop.emitDdl (st : SyncLoop) : Option SyncLoop :=
  match st.ddl with
  | some (schema, name, columns) =>
    if st.skipTable then some { st with ddl := none, skipTable := false }
    else (exec refuses st.catalog (.createTable schema name columns)).map fun c =>
      { st with catalog := c, ddl := none, skipTable := false }
  | none => some { st with skipTable := false }

/-- The schema of a table, created unless it is `public`. -/
def ensureSchema (c : Catalog) (schema : String) : Option Catalog :=
  if schema ≠ "public" then exec refuses c (.createSchema schema) else some c

/-- The head of an iteration: a row of another table emits the last statement and opens the next, or skips it. -/
def SyncLoop.openTable (st : SyncLoop) (ci : ColInfo) : Option SyncLoop :=
  if (ci.schemaName, ci.tableName) = st.prev then some st
  else (st.emitDdl refuses).bind fun st =>
    if (st.catalog.lookup (ci.schemaName, ci.tableName)).isSome then
      some { st with skipTable := true, prev := (ci.schemaName, ci.tableName) }
    else (ensureSchema refuses st.catalog ci.schemaName).map fun catalog =>
      { st with catalog, prev := (ci.schemaName, ci.tableName), ddl := some (ci.schemaName, ci.tableName, []) }

/-- The tail of an iteration: the row's column. -/
def SyncLoop.addColumn (st : SyncLoop) (ci : ColInfo) : SyncLoop :=
  match ci.column with
  | none => st
  | some col =>
    if st.skipTable then st
    else { st with ddl := st.ddl.map fun (schema, name, cols) => (schema, name, cols ++ [col]) }

def SyncLoop.iterate (st : SyncLoop) (ci : ColInfo) : Option SyncLoop :=
  (st.openTable refuses ci).map (·.addColumn ci)

/-- `SyncNewTables`. -/
def syncNewTables (md : Metadata) (sid : Nat) (c : Catalog) : Option Catalog := do
  let rows := (md.newTables sid).flatMap (md.colInfos fromString)
  let st ← rows.foldlM (SyncLoop.iterate refuses) ⟨c, ("", ""), none, false⟩
  let st ← st.emitDdl refuses
  some st.catalog

/-! ## `SyncDroppedTables` -/

/-- The names of the tables ended at a snapshot. -/
def Metadata.droppedTables (md : Metadata) (sid : Nat) : List (String × String) :=
  (md.tables.filter (·.endSnapshot == some sid)).flatMap fun t =>
    (md.schemas.filter (·.schemaId == t.schemaId)).map fun s => (s.schemaName, t.tableName)

/-- One iteration: a name that no relation has is passed over. -/
def syncDroppedTable (c : Catalog) (q : String × String) : Option Catalog :=
  if (c.lookup q).isSome then exec refuses c (.dropTable q.1 q.2) else some c

/-- `SyncDroppedTables`. -/
def syncDroppedTables (md : Metadata) (sid : Nat) (c : Catalog) : Option Catalog :=
  (md.droppedTables sid).foldlM (syncDroppedTable refuses) c

/-! ## The trigger -/

/-- `ducklake_snapshot_trigger`: new tables first, then dropped ones. `none` aborts the transaction of the commit. -/
def snapshotTrigger (md : Metadata) (sid : Nat) (c : Catalog) : Option Catalog := do
  let c ← syncNewTables fromString refuses md sid c
  syncDroppedTables refuses md sid c

end Handlers

/-! ## What the loop does -/

section Loop

variable {fromString : String → Option LogicalType} {refuses : Catalog → Ddl → Bool} {md : Metadata}

/-- One table of `SyncNewTables`. -/
def syncNewTable (fromString : String → Option LogicalType) (refuses : Catalog → Ddl → Bool) (md : Metadata)
    (c : Catalog) (t : NamedTable) : Option Catalog :=
  if (c.lookup t.qualified).isSome then some c
  else (ensureSchema refuses c t.schemaName).bind fun c =>
    exec refuses c (.createTable t.schemaName t.tableName (md.pgColumns fromString t.tableId))

/-- The catalog once the statement under construction has run. -/
def SyncLoop.emitted (refuses : Catalog → Ddl → Bool) (st : SyncLoop) : Option Catalog :=
  (st.emitDdl refuses).map (·.catalog)

/-- The loop after the first rows of a table that PostgreSQL does not have. -/
def SyncLoop.opened (st : SyncLoop) (t : NamedTable) (columns : List PgColumn) (c : Catalog) : SyncLoop :=
  { st with catalog := c, prev := t.qualified, ddl := some (t.schemaName, t.tableName, columns) }

theorem SyncLoop.emitDdl_some {st st' : SyncLoop} (h : st.emitDdl refuses = some st') :
    st'.ddl = none ∧ st'.skipTable = false := by
  unfold SyncLoop.emitDdl at h
  split at h
  · split at h
    · cases h; exact ⟨rfl, rfl⟩
    · obtain ⟨c, -, rfl⟩ := Option.map_eq_some_iff.mp h
      exact ⟨rfl, rfl⟩
  · cases h
    exact ⟨by assumption, rfl⟩

theorem SyncLoop.iterate_columns {st : SyncLoop} {t : NamedTable} (hprev : st.prev = t.qualified) (cs : List PgColumn) :
    (cs.map fun c => (⟨t.schemaName, t.tableName, some c⟩ : ColInfo)).foldlM (SyncLoop.iterate refuses) st =
      some (if st.skipTable then st
        else { st with ddl := st.ddl.map fun (schema, name, cols) => (schema, name, cols ++ cs) }) := by
  induction cs generalizing st with
  | nil =>
    obtain ⟨c, prev, ddl, skip⟩ := st
    cases skip <;> cases ddl <;> simp
  | cons col cs ih =>
    have hstep : st.iterate refuses ⟨t.schemaName, t.tableName, some col⟩ = some (st.addColumn ⟨t.schemaName, t.tableName, some col⟩) := by
      have hp : (t.schemaName, t.tableName) = st.prev := hprev.symm
      simp [SyncLoop.iterate, SyncLoop.openTable, hp]
    have hprev' : (st.addColumn ⟨t.schemaName, t.tableName, some col⟩).prev = t.qualified := by
      unfold SyncLoop.addColumn
      dsimp only
      split <;> exact hprev
    rw [List.map_cons, List.foldlM_cons, hstep, Option.bind_eq_bind, Option.bind_some, ih hprev']
    obtain ⟨c, prev, ddl, skip⟩ := st
    cases skip <;> cases ddl <;> simp [SyncLoop.addColumn]

/-- **The rows of one table**: the last statement runs, and the table is skipped or its statement is complete. -/
theorem SyncLoop.iterate_table {st : SyncLoop} {t : NamedTable} (hprev : t.qualified ≠ st.prev) :
    (md.colInfos fromString t).foldlM (SyncLoop.iterate refuses) st =
      (st.emitDdl refuses).bind fun st' =>
        if (st'.catalog.lookup t.qualified).isSome then some { st' with skipTable := true, prev := t.qualified }
        else (ensureSchema refuses st'.catalog t.schemaName).map
          (st'.opened t (md.pgColumns fromString t.tableId)) := by
  have hopen : ∀ col, st.openTable refuses ⟨t.schemaName, t.tableName, col⟩ =
      (st.emitDdl refuses).bind fun st' =>
        if (st'.catalog.lookup t.qualified).isSome then some { st' with skipTable := true, prev := t.qualified }
        else (ensureSchema refuses st'.catalog t.schemaName).map (st'.opened t []) := by
    intro col
    exact if_neg hprev
  unfold Metadata.colInfos
  split
  next hnil =>
    simp only [List.foldlM_cons, List.foldlM_nil, SyncLoop.iterate, hopen, hnil]
    cases st.emitDdl refuses with
    | none => rfl
    | some st' =>
      simp only [Option.bind_some]
      split
      · rfl
      · cases ensureSchema refuses st'.catalog t.schemaName <;> rfl
  next cs hcs =>
    cases hcols : md.pgColumns fromString t.tableId with
    | nil => exact absurd hcols hcs
    | cons col cols =>
      rw [List.map_cons, List.foldlM_cons, SyncLoop.iterate, hopen]
      cases he : st.emitDdl refuses with
      | none => rfl
      | some st' =>
        obtain ⟨hddl, hskip⟩ := SyncLoop.emitDdl_some he
        simp only [Option.bind_some, Option.bind_eq_bind]
        split
        · rw [Option.map_some, Option.bind_some, SyncLoop.iterate_columns rfl]
          simp [SyncLoop.addColumn]
        · cases hs : ensureSchema refuses st'.catalog t.schemaName with
          | none => rfl
          | some c =>
            rw [Option.map_some, Option.map_some, Option.bind_some, SyncLoop.iterate_columns]
            · simp [SyncLoop.addColumn, SyncLoop.opened, hskip]
            · simp [SyncLoop.addColumn, SyncLoop.opened, hskip]

theorem SyncLoop.iterate_tables {st : SyncLoop} {ts : List NamedTable}
    (hchain : (st.prev :: ts.map (·.qualified)).IsChain (· ≠ ·)) :
    ((ts.flatMap (md.colInfos fromString)).foldlM (SyncLoop.iterate refuses) st).bind (SyncLoop.emitted refuses) =
      (st.emitted refuses).bind fun c => ts.foldlM (syncNewTable fromString refuses md) c := by
  induction ts generalizing st with
  | nil =>
    simp only [List.flatMap_nil, List.foldlM_nil]
    exact (Option.bind_fun_some _).symm
  | cons t ts ih =>
    obtain ⟨hne, hchain⟩ := List.isChain_cons_cons.mp hchain
    rw [List.flatMap_cons, List.foldlM_append, SyncLoop.iterate_table hne.symm]
    simp only [SyncLoop.emitted]
    cases he : st.emitDdl refuses with
    | none => rfl
    | some st' =>
      obtain ⟨hddl, hskip⟩ := SyncLoop.emitDdl_some he
      simp only [Option.bind_eq_bind, Option.bind_some, Option.map_some, List.foldlM_cons, syncNewTable]
      split
      next hsome =>
        rw [Option.bind_some, ih hchain]
        simp [SyncLoop.emitted, SyncLoop.emitDdl, hddl]
      next hnone =>
        cases hs : ensureSchema refuses st'.catalog t.schemaName with
        | none => rfl
        | some c =>
          rw [Option.map_some, Option.bind_some, ih hchain]
          simp only [SyncLoop.emitted, SyncLoop.opened, SyncLoop.emitDdl, hskip, Bool.false_eq_true, ↓reduceIte,
            Option.map_map, Option.bind_some]
          cases exec refuses c (.createTable t.schemaName t.tableName (md.pgColumns fromString t.tableId)) <;> rfl

/-- **`SyncNewTables` is a loop over tables.** -/
theorem syncNewTables_eq {sid : Nat} {c : Catalog} (hnd : ((md.newTables sid).map (·.qualified)).Nodup)
    (hne : ∀ t ∈ md.newTables sid, t.qualified ≠ ("", "")) :
    syncNewTables fromString refuses md sid c = (md.newTables sid).foldlM (syncNewTable fromString refuses md) c := by
  have hchain : (("", "") :: (md.newTables sid).map (·.qualified)).IsChain (· ≠ ·) := by
    refine (List.Pairwise.isChain ?_)
    refine List.pairwise_cons.mpr ⟨fun q hq => ?_, hnd⟩
    obtain ⟨t, ht, rfl⟩ := List.mem_map.mp hq
    exact (hne t ht).symm
  have hdef : syncNewTables fromString refuses md sid c =
      (((md.newTables sid).flatMap (md.colInfos fromString)).foldlM (SyncLoop.iterate refuses)
        ⟨c, ("", ""), none, false⟩).bind (SyncLoop.emitted refuses) := by
    simp only [syncNewTables, Option.bind_eq_bind]
    congr 1
    funext st
    exact Option.map_eq_bind.symm
  rw [hdef, SyncLoop.iterate_tables hchain]
  rfl

end Loop

end PgDucklake.Sync
