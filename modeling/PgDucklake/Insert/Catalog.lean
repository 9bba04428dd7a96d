import Mathlib.Data.List.Sort
import PgDucklake.Insert.Nodes

/-!
# What the direct insert planner reads

INSERT query trees as the planner hook receives them, the relations and metadata rows behind them, and the functions
that look these up: `GetTableInliningState`, `GetInlinedColumnTypes` with its session cache, and
`CheckInsertPreconditions`.
-/

namespace PgDucklake.Insert

/-! ## Query trees -/

structure TargetEntry where
  expr : Expr
  resno : Int
  resjunk : Bool

/-- The parts of a query node that a matcher wants to be absent. -/
inductive Clause
  | aggs | windowFuncs | subLinks | distinctOn | recursive | modifyingCte | forUpdate | rowSecurity | isReturn
  | cteList | rtable | fromlist | quals | noJointree | overriding | onConflict | returningList | groupClause
  | groupDistinct | groupingSets | havingQual | windowClause | distinctClause | sortClause | limitOffset | limitCount
  | rowMarks | setOperations | withCheckOptions | resultRelation | utilityStmt
  deriving DecidableEq, Repr

/-- A subquery in FROM, as far as the UNNEST matcher reads it. -/
structure SourceQuery where
  isSelect : Bool
  hasTargetSRFs : Bool
  clauses : List Clause
  targetList : List TargetEntry

inductive RangeTblEntry
  | relation (relid : Oid) (inh : Bool)
  | subquery (query : SourceQuery)
  | values (valuesLists : List (List Expr))
  | other

inductive FromNode
  | rangeTblRef (rtindex : Nat)
  | other

structure FromExpr where
  fromlist : List FromNode
  quals : Option Expr

structure Query where
  isInsert : Bool
  resultRelation : Nat
  rtable : List RangeTblEntry
  jointree : Option FromExpr
  targetList : List TargetEntry
  clauses : List Clause

/-- The target list without the junk entries. -/
def Query.targets (parse : Query) : List TargetEntry := parse.targetList.filter fun tle => !tle.resjunk

/-! ## Relations and metadata -/

/-- `Form_pg_attribute`; a column is generated or an identity column if the field is not `'\0'`. -/
structure Attribute where
  attname : String
  atttypid : Oid
  attisdropped : Bool := false
  attgenerated : Bool := false
  attidentity : Bool := false
  deriving DecidableEq, Repr

abbrev TupleDesc := List Attribute

def Attribute.isLive (attr : Attribute) : Bool := !attr.attisdropped

/-- The columns of a table that are not dropped. -/
def TupleDesc.live (desc : TupleDesc) : TupleDesc := desc.filter Attribute.isLive

structure Relation where
  relname : String
  nspname : String
  /-- `relam` is the access method of DuckLake. -/
  isDucklake : Bool
  /-- `relkind` is `RELKIND_RELATION`. -/
  isPlainTable : Bool
  /-- NOT NULL or CHECK constraints, or generated columns. -/
  hasConstraints : Bool
  descr : TupleDesc
  deriving DecidableEq, Repr

/-- A row of `ducklake_schema`. -/
structure SchemaRow where
  schemaId : UInt64
  schemaName : String
  endSnapshot : Option UInt64
  deriving DecidableEq, Repr

/-- A row of `ducklake_table`. -/
structure TableRow where
  tableId : UInt64
  schemaId : UInt64
  tableName : String
  endSnapshot : Option UInt64
  deriving DecidableEq, Repr

/-- A row of `ducklake_column`. -/
structure ColumnRow where
  tableId : UInt64
  columnOrder : Nat
  columnType : Option String
  parentColumn : Option UInt64
  endSnapshot : Option UInt64
  deriving DecidableEq, Repr

/-- What one statement sees of the catalogs. -/
structure Catalog where
  relation : Oid → Option Relation
  schemas : List SchemaRow
  tables : List TableRow
  columns : List ColumnRow
  /-- The rows of `ducklake_inlined_data_tables`: table id and schema version. -/
  inlinedDataTables : List (UInt64 × UInt64)
  /-- The global value of `data_inlining_row_limit`. -/
  dataInliningRowLimit : Option Int
  /-- The columns of `ducklake.ducklake_inlined_data_<table id>_<schema version>`, if it exists. -/
  inlinedRelation : UInt64 → UInt64 → Option TupleDesc

/-! ## Inlining state -/

structure InliningInfo where
  tableId : UInt64
  schemaVersion : UInt64
  rowLimit : Int
  deriving DecidableEq, Repr

inductive TableInliningState
  | ok (info : InliningInfo)
  | noTable
  | noInlinedTable
  deriving DecidableEq, Repr

/-- `MAX(schema_version)` of the inlined data tables of a table. -/
def Catalog.maxSchemaVersion (c : Catalog) (tableId : UInt64) : Option UInt64 :=
  ((c.inlinedDataTables.filter fun row => row.1 == tableId).map (·.2)).max?

/-- The live table of that name in a live schema of that name. -/
def Catalog.findTable (c : Catalog) (tableName schemaName : String) : Option TableRow :=
  c.tables.find? fun dt => dt.tableName == tableName && dt.endSnapshot.isNone &&
    c.schemas.any fun ds => ds.schemaId == dt.schemaId && ds.schemaName == schemaName && ds.endSnapshot.isNone

def getTableInliningState (c : Catalog) (tableOid : Oid) : TableInliningState :=
  match c.relation tableOid with
  | none => .noTable
  | some rel =>
    match c.findTable rel.relname rel.nspname with
    | none => .noTable
    | some dt =>
      match c.maxSchemaVersion dt.tableId with
      | none => .noInlinedTable
      | some schemaVersion =>
        match c.dataInliningRowLimit with
        | none => .noInlinedTable
        | some rowLimit => if rowLimit ≤ 0 then .noInlinedTable else .ok ⟨dt.tableId, schemaVersion, rowLimit⟩

/-! ## Column types -/

def byteaOid : Oid := 17
def textOid : Oid := 25
def varcharOid : Oid := 1043

/-- `pg_strcasecmp(s, t) == 0`. -/
def strcaseEq (s t : String) : Bool := s.toList.map Char.toLower == t.toList.map Char.toLower

/-- `pg_strncasecmp(s, t, n) == 0`. -/
def strncaseEq (s t : String) (n : Nat) : Bool :=
  (s.toList.take n).map Char.toLower == (t.toList.take n).map Char.toLower

def duckDBTypeToInlinedOid (duckdbType : String) (elementType : Oid) : Oid :=
  if strncaseEq duckdbType "STRUCT" 6 || strncaseEq duckdbType "MAP" 3 || duckdbType.toList.contains '[' then
    invalidOid
  else if strcaseEq duckdbType "VARIANT" || strcaseEq duckdbType "GEOMETRY" then invalidOid
  else if strcaseEq duckdbType "VARCHAR" || strcaseEq duckdbType "BLOB" then byteaOid
  else if strcaseEq duckdbType "TIMESTAMP WITH TIME ZONE" || strcaseEq duckdbType "TIMESTAMPTZ" then invalidOid
  else if strcaseEq duckdbType "UBIGINT" || strcaseEq duckdbType "HUGEINT" || strcaseEq duckdbType "UHUGEINT" ||
      strcaseEq duckdbType "DATE" || strcaseEq duckdbType "TIMESTAMP" || strcaseEq duckdbType "TIMESTAMP_S" ||
      strcaseEq duckdbType "TIMESTAMP_MS" || strcaseEq duckdbType "TIMESTAMP_NS" then varcharOid
  else elementType

/-- The live top-level columns of a table, in their order. -/
def Catalog.columnRows (c : Catalog) (tableId : UInt64) : List ColumnRow :=
  (c.columns.filter fun row => row.tableId == tableId && row.endSnapshot.isNone && row.parentColumn.isNone).insertionSort
    fun a b => a.columnOrder ≤ b.columnOrder

/-- The inlined type of each column, unless one is not supported. -/
def inlinedOids : List ColumnRow → List Oid → Option (List Oid)
  | row :: rows, elementType :: elementTypes =>
    match row.columnType with
    | none => none
    | some duckdbType =>
      let inlinedOid := duckDBTypeToInlinedOid duckdbType elementType
      if !oidIsValid inlinedOid then none else (inlinedOids rows elementTypes).map (inlinedOid :: ·)
  | _, _ => some []

def getInlinedColumnTypes (c : Catalog) (tableId : UInt64) (elementTypes : List Oid) : Option (List Oid) :=
  let rows := c.columnRows tableId
  if rows.length ≠ elementTypes.length then none else inlinedOids rows elementTypes

/-! ## Session caches -/

structure Caches where
  inliningInfo : Oid → Option InliningInfo
  inlinedColTypes : UInt64 → UInt64 → Option (List Oid)

/-- `ResetDirectInsertCaches`. -/
def Caches.empty : Caches := ⟨fun _ => none, fun _ _ => none⟩

def getCachedInlinedColumnTypes (c : Catalog) (caches : Caches) (tableId schemaVersion : UInt64)
    (elementTypes : List Oid) : Option (List Oid) :=
  match caches.inlinedColTypes tableId schemaVersion with
  | some colTypes => some colTypes
  | none => getInlinedColumnTypes c tableId elementTypes

/-! ## Preconditions -/

inductive DirectInsertReason
  | noInlinedTable
  | unsupportedInsertShape
  | invalidRte
  | greaterThanLimit
  | colTypesUnsupported
  deriving DecidableEq, Repr

structure InsertPrecondition where
  targetOid : Oid
  tableId : UInt64
  schemaVersion : UInt64
  rowLimit : Int
  targetRel : Relation
  deriving DecidableEq, Repr

/-- The relation cannot be the target of a direct insert. -/
def Relation.isUnsupported (rel : Relation) : Bool :=
  !rel.isPlainTable || rel.hasConstraints ||
    rel.descr.any fun attr => attr.attisdropped || attr.attgenerated || attr.attidentity

/-- The clauses of an INSERT that a direct insert does not implement. -/
def unsupportedClauses : List Clause :=
  [.returningList, .onConflict, .cteList, .modifyingCte, .withCheckOptions, .overriding]

/-- `CheckInsertPreconditions`. `inBlock` stands for `IsTransactionBlock() || IsolationUsesXactSnapshot()`. An error
without a reason means that the statement is none of the direct insert's business. -/
def checkInsertPreconditions (c : Catalog) (caches : Caches) (inBlock : Bool) (parse : Query) :
    Except (Option DirectInsertReason) InsertPrecondition :=
  if !parse.isInsert then .error none
  else if inBlock then .error none
  else if parse.resultRelation = 0 then .error none
  else
    match parse.rtable[parse.resultRelation - 1]? with
    | some (.relation targetOid inh) =>
      match c.relation targetOid with
      | none => .error none
      | some rel =>
        if !rel.isDucklake then .error none
        else if rel.isUnsupported || parse.clauses.any (unsupportedClauses.contains ·) || inh then
          .error (some .unsupportedInsertShape)
        else
          match caches.inliningInfo targetOid with
          | some info => .ok ⟨targetOid, info.tableId, info.schemaVersion, info.rowLimit, rel⟩
          | none =>
            match getTableInliningState c targetOid with
            | .ok info => .ok ⟨targetOid, info.tableId, info.schemaVersion, info.rowLimit, rel⟩
            | _ => .error (some .noInlinedTable)
    | _ => .error none

end PgDucklake.Insert
