import PgDucklake.Lib.Runs
import PgDucklake.Sorted.Indexes

/-!
# The sort commands

`CREATE INDEX … USING ducklake_sorted` and `DROP INDEX` with what the utility hook adds, `set_sort` and `reset_sort`, and
a snapshot of an external DuckDB client with the sync that its trigger runs. Each is one transaction: a command that
fails leaves the catalogs as they were, but not the flag `syncing_from_metadata` of its session.
-/

namespace PgDucklake.Sorted

open Lib

/-- The parsers, and the names that PostgreSQL makes up for indexes. -/
structure Env extends Grammars where
  choose : Database → IndexStmt → String

variable (env : Env)

/-! ## The utility hook -/

/-- The checks and the text of `get_create_sorted_index_def`. -/
def getCreateSortedIndexDef (db : Database) (stmt : IndexStmt) : Option String :=
  if stmt.concurrent || stmt.unique || stmt.whereClause || stmt.including || stmt.tableSpace then none
  else if stmt.relation ∉ db.tables then none
  else sortSpec stmt.params

/-- `ALTER TABLE … SET SORTED BY`, unless the index comes from a sync. -/
def applyCreateSortedIndex (syncing : Bool) (db : Database) (table : QName) (query : String) : Option Database :=
  if syncing then some db
  else (env.duckdb query).map fun items => db.setSpec table (some (items.map SortItem.resolve))

/-- `CREATE INDEX … USING ducklake_sorted`. -/
def createIndex (syncing : Bool) (db : Database) (stmt : IndexStmt) : Option Database :=
  (getCreateSortedIndexDef db stmt).bind fun query =>
    (defineIndex env.choose db stmt).bind fun db' =>
      applyCreateSortedIndex env syncing db' stmt.relation query

/-- A name in a statement. -/
structure RangeVar where
  schemaname : Option String
  relname : String
  deriving DecidableEq, Repr

def RangeVar.resolve (rv : RangeVar) (db : Database) (path : List String) : Option QName :=
  match rv.schemaname with
  | some schema => if (schema, rv.relname) ∈ db.names then some (schema, rv.relname) else none
  | none => db.rangeVarGetRelid path rv.relname

/-- `ALTER TABLE … RESET SORTED BY` for the tables, unless the drop comes from a sync. -/
def handleDropSortedIndex (syncing : Bool) (db : Database) (drops : List QName) : Database :=
  if syncing then db else drops.foldl (fun db table => db.setSpec table none) db

/-- `DROP INDEX [IF EXISTS]`. -/
def dropIndex (syncing : Bool) (db : Database) (path : List String) (missingOk : Bool) (objects : List RangeVar) :
    Option Database :=
  let found := objects.filterMap fun rv => rv.resolve db path
  if !missingOk && found.length != objects.length then none
  else if found.any fun q => !db.isIndex q then none
  else some (handleDropSortedIndex syncing (db.removeIndexes found) (findSortedIndexDrops db found))

/-! ## Sync -/

/-- `DROP INDEX` for each sorted index of the table, by its bare name. -/
def dropIndexes (db : Database) (path : List String) (table : QName) : Option Database :=
  (db.sortedOn table).foldlM (fun db i => dropIndex true db path false [⟨none, i.name⟩]) db

/-- `CREATE INDEX ON schema.table USING ducklake_sorted (sort_spec)`. -/
def indexStmtFor (table : QName) (params : List IndexElem) : IndexStmt where
  idxname := none
  relation := table
  params := params
  concurrent := false
  unique := false
  whereClause := false
  including := false
  tableSpace := false
  ifNotExists := false

def createSortedIndexForTable (path : List String) (db : Database) (create : QName × String) : Option Database :=
  (dropIndexes db path create.1).bind fun db' =>
    (env.postgres create.2).bind fun params => createIndex env true db' (indexStmtFor create.1 params)

def syncSortedIndexes (path : List String) (creates : List (QName × String)) (resets : List QName) (db : Database) :
    Option Database :=
  (creates.foldlM (createSortedIndexForTable env path) db).bind fun db' =>
    resets.foldlM (fun db table => dropIndexes db path table) db'

/-- `ducklake.set_sort`; a NULL is `none`. -/
def setSort (db : Database) (path : List String) (table : QName) (sortedBy : List (Option String)) : Option Database :=
  if table ∉ db.tables then none
  else if sortedBy = [] then none
  else (sortedBy.mapM id).bind fun keys =>
    let spec := ", ".intercalate keys
    (env.duckdb spec).bind fun items =>
      syncSortedIndexes env path [(table, spec)] [] (db.setSpec table (some (items.map SortItem.resolve)))

/-- `ducklake.reset_sort`. -/
def resetSort (db : Database) (path : List String) (table : QName) : Option Database :=
  if table ∉ db.tables then none
  else syncSortedIndexes env path [] [table] (db.setSpec table none)

/-! ## External snapshots -/

/-- The sort changes of one snapshot, by table id: new keys, or `none` for a reset. -/
structure Snapshot where
  changes : List (QName × Option (List SortKey))
  tables_unique : (changes.map Prod.fst).Nodup
  keys_ne : ∀ c ∈ changes, c.2 ≠ some []

/-- The rows of the query for new sort keys. -/
def Snapshot.rows (snapshot : Snapshot) : List (QName × SortKey) :=
  snapshot.changes.flatMap fun c => (c.2.getD []).map fun k => (c.1, k)

/-- The local variables of the loop over the rows. -/
structure Grouping where
  prev : QName
  idxCols : String
  creates : List (QName × String)

/-- A table that PostgreSQL does not have is passed over, but its columns stay. -/
def Grouping.flush (db : Database) (group : Grouping) : Grouping :=
  if group.idxCols = "" then group
  else if group.prev ∉ db.names then group
  else { group with idxCols := "", creates := group.creates ++ [(group.prev, group.idxCols)] }

def Grouping.append (group : Grouping) (k : SortKey) : Grouping :=
  { group with idxCols := (if group.idxCols = "" then "" else group.idxCols ++ ", ") ++ k.text }

def Grouping.row (db : Database) (group : Grouping) (row : QName × SortKey) : Grouping :=
  if row.1 = group.prev then group.append row.2
  else { group.flush db with prev := row.1 }.append row.2

def sortCreates (db : Database) (snapshot : Snapshot) : List (QName × String) :=
  ((snapshot.rows.foldl (Grouping.row db) ⟨("", ""), "", []⟩).flush db).creates

/-- The tables whose sort keys ended, as far as PostgreSQL has them. -/
def sortResets (db : Database) (snapshot : Snapshot) : List QName :=
  (snapshot.changes.filter fun c => c.2.isNone && (db.specs c.1).isSome && decide (c.1 ∈ db.names)).map Prod.fst

/-- The search path that the trigger function is declared with. -/
def triggerPath : List String := ["pg_catalog", "pg_temp"]

/-- The client's metadata. -/
def Database.publish (db : Database) (snapshot : Snapshot) : Database :=
  snapshot.changes.foldl (fun db c => db.setSpec c.1 c.2) db

/-- The client commits and `ducklake_snapshot_trigger` runs `SyncSortKeys`. -/
def external (db : Database) (snapshot : Snapshot) : Option Database :=
  syncSortedIndexes env triggerPath (sortCreates db snapshot) (sortResets db snapshot) (db.publish snapshot)

/-! ## Runs -/

/-- The catalogs, and `syncing_from_metadata` of every session. -/
structure State where
  db : Database
  syncing : Nat → Bool

inductive Command
  | createIndex (stmt : IndexStmt)
  | dropIndex (path : List String) (missingOk : Bool) (objects : List RangeVar)
  | setSort (path : List String) (table : QName) (sortedBy : List (Option String))
  | resetSort (path : List String) (table : QName)
  | external (snapshot : Snapshot)

/-- The catalogs after a command; `none` is an error. -/
def Command.exec (syncing : Bool) (db : Database) : Command → Option Database
  | .createIndex stmt => Sorted.createIndex env syncing db stmt
  | .dropIndex path missingOk objects => Sorted.dropIndex syncing db path missingOk objects
  | .setSort path table sortedBy => Sorted.setSort env db path table sortedBy
  | .resetSort path table => Sorted.resetSort env db path table
  | .external snapshot => Sorted.external env db snapshot

/-- The flag of the session after a command that has completed. -/
def Command.flag (syncing : Bool) : Command → Bool
  | .createIndex _ => syncing
  | .dropIndex _ _ _ => syncing
  | _ => false

/-- The flag of the session after an error. The procedures set it without a handler around what follows, and the handler
of the trigger does not see C++ exceptions. -/
def Command.flagsAfterError (syncing : Bool) : Command → List Bool
  | .createIndex _ => [syncing]
  | .dropIndex _ _ _ => [syncing]
  | .setSort _ _ _ => [syncing, true]
  | .resetSort _ _ => [syncing, true]
  | .external _ => [syncing, false, true]

def State.setFlag (s : State) (session : Nat) (flag : Bool) : State :=
  { s with syncing := Function.update s.syncing session flag }

/-- A command of a session completes if `ok` holds of it and of the state, or it fails, at any point and for any
reason. -/
inductive Step (ok : State → Nat → Command → Prop) : State → State → Prop
  | completed {s : State} {session : Nat} {c : Command} {db : Database} (hok : ok s session c)
      (h : c.exec env (s.syncing session) s.db = some db) :
      Step ok s ({ s with db := db }.setFlag session (c.flag (s.syncing session)))
  | failed {s : State} {session : Nat} {c : Command} {flag : Bool}
      (h : flag ∈ c.flagsAfterError (s.syncing session)) : Step ok s (s.setFlag session flag)

end PgDucklake.Sorted
