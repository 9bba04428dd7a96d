import PgDucklake.Lib.ErrorFlow

/-!
# Utility statements that create tables

`DucklakeUtilityHook` and the create-table event trigger of one session. What the hook reads off a statement reaches the
trigger through two global variables, the pending create options and the stack of pending `CREATE TABLE AS` queries. A
statement may run others before and after the trigger: functions that its query calls, and event triggers of the user.
Every statement and every call inside it may fail, and a failure may be caught by the statement around it.

`applied`, `filled` and `balances` record what happens; no program reads them.
-/

namespace PgDucklake.Statements

open Lib Prog

/-! ## Statements -/

/-- An option of the WITH clause. -/
structure DefElem where
  defnamespace : Option String
  defname : String
  arg : Option String
  deriving DecidableEq, Repr

inductive Kind
  /-- CREATE TABLE. -/
  | create
  /-- CREATE TABLE AS and what shares its node: SELECT INTO, CREATE MATERIALIZED VIEW. -/
  | createAs
  | other
  deriving DecidableEq, Repr

/-- A statement, the surroundings it runs in, and how the calls made for it end. -/
structure Head where
  kind : Kind
  accessMethod : Option String
  options : List DefElem
  /-- The tag is CREATE TABLE or CREATE TABLE AS, for which the event trigger is declared. -/
  tagged : Bool
  temporary : Bool
  /-- A column has the variant type. -/
  variantColumns : Bool
  /-- IF NOT EXISTS, and the relation exists. -/
  skipped : Bool
  /-- `default_table_access_method`. -/
  defaultAccessMethod : String
  /-- `syncing_from_metadata` when the trigger fires. -/
  syncing : Bool
  /-- `ctas_skip_data`. -/
  skipData : Bool
  /-- PostgreSQL raises an error before the trigger. -/
  workFails : Bool
  /-- `get_tabledef`, the DuckDB query that creates the table, and the one that fills it. -/
  tabledef : Exit Unit
  createQuery : Exit Unit
  insertQuery : Exit Unit
  /-- PostgreSQL raises an error after the trigger. -/
  restFails : Bool
  deriving DecidableEq, Repr

/-- A statement on a new table, in which nothing fails. -/
def Head.plain (kind : Kind) (accessMethod : Option String) (options : List DefElem) : Head where
  kind := kind
  accessMethod := accessMethod
  options := options
  tagged := true
  temporary := false
  variantColumns := false
  skipped := false
  defaultAccessMethod := "heap"
  syncing := false
  skipData := false
  workFails := false
  tabledef := .ret ()
  createQuery := .ret ()
  insertQuery := .ret ()
  restFails := false

mutual

inductive Stmt
  | mk (head : Head) (before after : Stmts)

/-- Statements in a row; `caught` if an error of the statement does not end the row. -/
inductive Stmts
  | nil
  | cons (caught : Bool) (stmt : Stmt) (rest : Stmts)

end

def Head.createsTable (h : Head) : Bool := h.kind != .other

/-- `USING ducklake`, as written. -/
def Head.usingDucklake (h : Head) : Bool := h.accessMethod == some "ducklake"

/-- The table that the statement makes is a ducklake table. -/
def Head.makesDucklake (h : Head) : Bool := h.createsTable && h.accessMethod.getD h.defaultAccessMethod == "ducklake"

def DefElem.isDucklakeNamespace (d : DefElem) : Bool := d.defnamespace == some "ducklake"

/-- The `ducklake.table_path` of the statement. -/
def Head.tablePath (h : Head) : Option String :=
  (h.options.find? fun d => d.isDucklakeNamespace && d.defname == "table_path").bind (·.arg)

/-! ## The session -/

/-- A `CREATE TABLE AS` that the trigger fills: its own query, whether USING ducklake was written, and the query taken. -/
structure Fill where
  own : Nat
  written : Bool
  taken : Option Nat
  deriving DecidableEq, Repr

structure Session where
  /-- `g_pending`. -/
  pending : Option String
  /-- `table_path_override_`. -/
  tablePathOverride : Option String
  /-- `pending_ctas_queries`, last first. -/
  pendingCtasQueries : List Nat
  /-- The number of query nodes so far. -/
  queries : Nat
  /-- For each table created in DuckDB: the path of the statement, and the path applied. -/
  applied : List (Option String × Option String)
  filled : List Fill
  /-- For each statement: the pending queries before and after. -/
  balances : List (List Nat × List Nat)
  deriving DecidableEq, Repr

def Session.start : Session := ⟨none, none, [], 0, [], [], []⟩

/-! ## Create options -/

/-- The loop over the options: the path, and what is left for PostgreSQL; `none` is an error. -/
def parseOptions : List DefElem → (parsed : Option String) → Option (Option String × List DefElem)
  | [], parsed => some (parsed, [])
  | d :: ds, parsed =>
    if !d.isDucklakeNamespace then (parseOptions ds parsed).map fun r => (r.1, d :: r.2)
    else if d.defname == "table_path" then
      if parsed.isSome then none
      else
        match d.arg with
        | none => none
        | some path => if path == "" then none else parseOptions ds (some path)
    else none

/-- The path is stashed; the result says whether there is one. -/
def stripDucklakeCreateOptions (options : List DefElem) : Prog Session Bool :=
  match parseOptions options none with
  | none => call .longjmp
  | some (none, _) => pure false
  | some (some path, _) => do
    update fun s => { s with pending := some path }
    pure true

def takePendingCreateOptions : Prog Session (Option String) := do
  let s ← get
  update fun s => { s with pending := none }
  pure s.pending

def clearPendingCreateOptions : Prog Session Unit := update fun s => { s with pending := none }

/-! ## Pending queries -/

def pushPendingCtasQuery (query : Nat) : Prog Session Unit :=
  update fun s => { s with pendingCtasQueries := query :: s.pendingCtasQueries }

def takePendingCtasQuery : Prog Session (Option Nat) := do
  let s ← get
  update fun s => { s with pendingCtasQueries := s.pendingCtasQueries.tail }
  pure s.pendingCtasQueries.head?

def Session.removeCtasQuery (s : Session) (query : Nat) : Session :=
  if s.pendingCtasQueries.head? = some query then { s with pendingCtasQueries := s.pendingCtasQueries.tail } else s

def removePendingCtasQuery (query : Nat) : Prog Session Unit := update fun s => s.removeCtasQuery query

/-! ## The event trigger -/

/-- The table definition and the DuckDB query. -/
def createStatements (h : Head) : Prog Session Unit := do
  call h.tabledef
  update fun s => { s with applied := s.applied ++ [(h.tablePath, s.tablePathOverride)] }
  call h.createQuery

theorem createStatements_state {h : Head} (s : Session) : (createStatements h s).2 = s ∨
    (createStatements h s).2 = { s with applied := s.applied ++ [(h.tablePath, s.tablePathOverride)] } := by
  cases htab : h.tabledef with
  | ret a => exact Or.inr (by simp [createStatements, htab])
  | longjmp => exact Or.inl (by simp [createStatements, htab])
  | thrown => exact Or.inl (by simp [createStatements, htab])

/-- The scope of `TablePathOverrideGuard`. -/
def createInDuckDB (h : Head) (taken : Option String) : Prog Session Unit := do
  when taken.isSome (update fun s => { s with tablePathOverride := taken })
  destructing (createStatements h) fun s => if taken.isSome then { s with tablePathOverride := none } else s

/-- The data of a `CREATE TABLE AS`. -/
def fillFromQuery (h : Head) (own : Nat) : Prog Session Unit := do
  let query ← takePendingCtasQuery
  update fun s => { s with filled := s.filled ++ [⟨own, h.usingDucklake, query⟩] }
  if query.isNone then call .longjmp else call h.insertQuery

/-- `ducklake_create_table_trigger`. -/
def createTableTrigger (h : Head) (own : Nat) : Prog Session Unit :=
  guarded do
    if h.syncing || h.skipped then pure ()
    else if !h.makesDucklake then
      if h.variantColumns then call .longjmp else pure ()
    else if h.temporary then call .longjmp
    else do
      let taken ← takePendingCreateOptions
      createInDuckDB h taken
      when (h.kind == .createAs && !h.skipData) (fillFromQuery h own)

/-! ## The utility hook -/

/-- PostgreSQL knows no options of this namespace. -/
def Head.rejected (h : Head) : Bool := !h.usingDucklake && h.options.any (·.isDucklakeNamespace)

/-- A `CREATE TABLE AS` whose query the hook keeps. -/
def Head.isCtas (h : Head) : Bool := h.kind == .createAs && h.usingDucklake

/-- The query node of a new statement. -/
def newQuery : Prog Session Nat := do
  let s ← get
  update fun s => { s with queries := s.queries + 1 }
  pure s.queries

def stripOptions (h : Head) : Prog Session Bool :=
  if h.createsTable && h.usingDucklake then stripDucklakeCreateOptions h.options else pure false

/-- `prev_process_utility_hook`: PostgreSQL's work on the statement, the event trigger, and the statements inside. -/
def processUtility (h : Head) (own : Nat) (before after : Prog Session Unit) : Prog Session Unit := do
  before
  when (h.workFails || h.rejected) (call .longjmp)
  when (h.createsTable && h.tagged) (createTableTrigger h own)
  after
  when h.restFails (call .longjmp)

/-- The hook's `PG_CATCH`. -/
def hookCatch (h : Head) (own : Nat) (stripped : Bool) : Prog Session Unit := do
  when stripped clearPendingCreateOptions
  when h.isCtas (removePendingCtasQuery own)
  call .longjmp

/-- The hook, from the options on. -/
def hookBody (h : Head) (own : Nat) (before after : Prog Session Unit) : Prog Session Unit := do
  let stripped ← stripOptions h
  when h.isCtas (pushPendingCtasQuery own)
  pgTry (processUtility h own before after) (hookCatch h own stripped)
  when h.isCtas (removePendingCtasQuery own)

/-- A record of the pending queries around a program. -/
def observed {α : Type} (p : Prog Session α) : Prog Session α := fun s =>
  match p s with
  | (e, t) => (e, { t with balances := t.balances ++ [(s.pendingCtasQueries, t.pendingCtasQueries)] })

mutual

/-- `DucklakeUtilityHook`, for statements that create tables and others. -/
def utilityHook : Stmt → Prog Session Unit
  | .mk h before after => observed do
    let own ← newQuery
    hookBody h own (runAll before) (runAll after)

/-- A caught error does not end the row. -/
def runAll : Stmts → Prog Session Unit
  | .nil => pure ()
  | .cons caught stmt rest => do
    pgTry (utilityHook stmt) (if caught then pure () else call .longjmp)
    runAll rest

end

/-! ## What statements keep -/

section Keeps

variable {I : Session → Prop} {p : Prog Session Unit}

theorem keeps_observed (hp : Keeps I p) (hI : ∀ s b, I s → I { s with balances := b }) :
    Keeps I (observed p) := by
  intro s hs
  have hq := hp s hs
  unfold Statements.observed
  rcases hrun : p s with ⟨e, t⟩
  rw [hrun] at hq
  cases e with
  | ret a => exact hI t _ hq
  | longjmp => exact hI t _ hq
  | thrown => exact hq

theorem keeps_caught (hp : Keeps I p) (caught : Bool) : Keeps I (p.pgTry (if caught then pure () else call .longjmp)) := by
  refine hp.pgTry ?_
  cases caught with
  | true => exact keeps_pure ()
  | false => exact keeps_longjmp

end Keeps

end PgDucklake.Statements
