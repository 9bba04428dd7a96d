import PgDucklake.Lib.Arrange
import PgDucklake.Scan.Plans

/-!
# What a plan may return

A plan has a set of results: a scan without ORDER BY may return its rows in any order, and equal keys may come out
either way. `Plan.returns` says which lists of rows a plan may return, a PostgreSQL scan by the query that
`constructTableScanQuery` builds for it.
-/

namespace PgDucklake.Scan

open Lib Std

/-- How the two engines order values. PostgreSQL goes by the column (its type and collation), DuckDB by the value and
by its settings for an order that is left open. -/
structure Engines (V : Type) where
  pgCmp : Nat → V → V → Ordering
  duckCmp : V → V → Ordering
  duckDescending : OrderType → Bool
  duckNullsFirst : OrderType → OrderByNullType → Bool
  pg_trans : ∀ column, TransCmp (pgCmp column)
  duck_trans : TransCmp duckCmp

/-- The direction that the suffix of a key in the scan query asks for. -/
def pgDescending (orderType : OrderType) : Bool := orderType = .descending

/-- The NULL placement that it asks for: without NULLS FIRST or LAST, PostgreSQL puts NULLs first exactly for DESC. -/
def pgNullsFirst (orderType : OrderType) : OrderByNullType → Bool
  | .orderDefault => pgDescending orderType
  | .nullsFirst => true
  | .nullsLast => false

variable {V : Type}

/-! ## Scans -/

/-- One ORDER BY key of a scan query, by the table's column. -/
structure ScanKey where
  column : Nat
  orderType : OrderType
  nullOrder : OrderByNullType
  deriving DecidableEq, Repr

/-- The tail of the scan query; the SELECT list and the WHERE clause are `LogicalGet.row` and `LogicalGet.filter`. -/
structure ScanQuery where
  orderBy : List ScanKey
  limit : Option Nat
  offset : Nat
  deriving DecidableEq, Repr

/-- The table's column under a position of the scan. -/
def LogicalGet.column (g : LogicalGet V) (i : Nat) : Option Nat :=
  match g.columnIds[i]? with
  | some (.column primary _) => some primary
  | _ => none

/-- The ORDER BY keys; a position that is out of range is an error. -/
def LogicalGet.scanKeys (g : LogicalGet V) : List PostgresOrderBySpec → Option (List ScanKey)
  | [] => some []
  | spec :: specs =>
    match g.column spec.columnIndex with
    | none => none
    | some column => (g.scanKeys specs).map (⟨column, spec.orderType, spec.nullOrder⟩ :: ·)

def LogicalGet.constructTableScanQuery (g : LogicalGet V) : Option ScanQuery :=
  if g.columnIds = [.rowId] then some ⟨[], none, 0⟩ -- SELECT COUNT(*)
  else
    match g.scanKeys g.bindData.orderBys with
    | none => none
    | some [] => some ⟨[], none, 0⟩
    | some keys => some ⟨keys, g.bindData.limit, g.bindData.offset⟩

/-- PostgreSQL's comparison of two tuples under one key. -/
def ScanKey.cmp (sys : Engines V) (k : ScanKey) (s t : Nat → Option V) : Ordering :=
  nullCmp (sys.pgCmp k.column) (pgDescending k.orderType) (pgNullsFirst k.orderType k.nullOrder) (s k.column)
    (t k.column)

/-- LIMIT and OFFSET. -/
def cut {α : Type} (limit : Option Nat) (offset : Nat) (l : List α) : List α :=
  match limit with
  | none => l
  | some n => (l.drop offset).take n

/-- The tuples that PostgreSQL may return for a scan query. -/
def ScanQuery.returns (sys : Engines V) (q : ScanQuery) (tuples out : List (Nat → Option V)) : Prop :=
  ∃ sorted, Arranged (lexCmp (q.orderBy.map (ScanKey.cmp sys))) tuples sorted ∧ out = cut q.limit q.offset sorted

/-- The value under a position of the scan. -/
def LogicalGet.cell (g : LogicalGet V) (t : Nat → Option V) (i : Nat) : Option V := (g.column i).bind t

/-- The row that a scan passes on for a tuple: its column list, or the positions of it that are still needed. -/
def LogicalGet.row (g : LogicalGet V) (t : Nat → Option V) : Row V where
  columns := (if g.projectionIds.isEmpty then List.range g.columnIds.length else g.projectionIds).map (g.cell t)
  lookup b := if b.tableIndex = g.tableIndex then g.cell t b.columnIndex else none

/-! ## Operators -/

def Expr.eval (r : Row V) : Expr V → Option V
  | .boundRef index => (r.columns[index]?).join
  | .boundColumnRef binding => r.lookup binding
  | .other f => f r

/-- A projection computes its expressions under bindings of its own. -/
def projectRow (tableIndex : Nat) (expressions : List (Expr V)) (r : Row V) : Row V where
  columns := expressions.map (Expr.eval r)
  lookup b := if b.tableIndex = tableIndex then (expressions[b.columnIndex]?).bind (Expr.eval r) else r.lookup b

/-- DuckDB's comparison of two rows under one key. -/
def BoundOrderByNode.cmp (sys : Engines V) (n : BoundOrderByNode V) (r s : Row V) : Ordering :=
  nullCmp sys.duckCmp (sys.duckDescending n.type) (sys.duckNullsFirst n.type n.nullOrder) (n.expression.eval r)
    (n.expression.eval s)

/-- DuckDB's comparison of two rows. -/
def ordersCmp (sys : Engines V) (orders : List (BoundOrderByNode V)) : Row V → Row V → Ordering :=
  lexCmp (orders.map (BoundOrderByNode.cmp sys))

mutual

/-- `p` may return the rows `out`. -/
def Plan.returns (sys : Engines V) : Plan V → List (Row V) → Prop
  | .get g, out => ∃ q, g.constructTableScanQuery = some q ∧
      ∃ tuples, q.returns sys (g.rel.tuples.filter g.filter) tuples ∧ out = tuples.map g.row
  | .projection tableIndex expressions child, out =>
    ∃ input, child.returns sys input ∧ out = input.map (projectRow tableIndex expressions)
  | .orderBy orders child, out => ∃ input, child.returns sys input ∧ Arranged (ordersCmp sys orders) input out
  | .topN orders limit offset child, out => ∃ input, child.returns sys input ∧
      ∃ sorted, Arranged (ordersCmp sys orders) input sorted ∧ out = cut (some limit) offset sorted
  | .other op children, out => ∃ inputs, returnsAll sys children inputs ∧ op.returns inputs out

def returnsAll (sys : Engines V) : List (Plan V) → List (List (Row V)) → Prop
  | [], inputs => inputs = []
  | child :: children, inputs => ∃ input rest, child.returns sys input ∧ returnsAll sys children rest ∧
      inputs = input :: rest

end

/-! ## Every plan returns something -/

theorem ScanKey.cmp_trans (sys : Engines V) (k : ScanKey) : TransCmp (k.cmp sys) := by
  have := sys.pg_trans k.column
  have h := nullCmp_trans (sys.pgCmp k.column) (pgDescending k.orderType) (pgNullsFirst k.orderType k.nullOrder)
  exact { eq_swap := h.eq_swap, isLE_trans := h.isLE_trans }

theorem BoundOrderByNode.cmp_trans (sys : Engines V) (n : BoundOrderByNode V) : TransCmp (n.cmp sys) := by
  have := sys.duck_trans
  have h := nullCmp_trans sys.duckCmp (sys.duckDescending n.type) (sys.duckNullsFirst n.type n.nullOrder)
  exact { eq_swap := h.eq_swap, isLE_trans := h.isLE_trans }

theorem scanKeys_arranged (sys : Engines V) (keys : List ScanKey) (tuples : List (Nat → Option V)) :
    ∃ sorted, Arranged (lexCmp (keys.map (ScanKey.cmp sys))) tuples sorted := by
  refine arranged_exists (lexCmp_trans ?_) tuples
  intro c hc
  obtain ⟨k, -, rfl⟩ := List.mem_map.mp hc
  exact k.cmp_trans sys

theorem orders_arranged (sys : Engines V) (orders : List (BoundOrderByNode V)) (rows : List (Row V)) :
    ∃ sorted, Arranged (ordersCmp sys orders) rows sorted := by
  refine arranged_exists (lexCmp_trans ?_) rows
  intro c hc
  obtain ⟨n, -, rfl⟩ := List.mem_map.mp hc
  exact n.cmp_trans sys

mutual

/-- Every scan of the plan has a query. -/
def Plan.Answerable : Plan V → Prop
  | .get g => g.constructTableScanQuery.isSome
  | .projection _ _ child => child.Answerable
  | .orderBy _ child => child.Answerable
  | .topN _ _ _ child => child.Answerable
  | .other _ children => AllAnswerable children

def AllAnswerable : List (Plan V) → Prop
  | [] => True
  | child :: children => child.Answerable ∧ AllAnswerable children

end

mutual

theorem Plan.returns_exists (sys : Engines V) : ∀ p : Plan V, p.Answerable → ∃ out, p.returns sys out
  | .get g, h => by
    obtain ⟨q, hq⟩ := Option.isSome_iff_exists.mp h
    obtain ⟨sorted, hs⟩ := scanKeys_arranged sys q.orderBy (g.rel.tuples.filter g.filter)
    exact ⟨_, q, hq, _, ⟨sorted, hs, rfl⟩, rfl⟩
  | .projection _ _ child, h => by
    obtain ⟨input, hin⟩ := child.returns_exists sys h
    exact ⟨_, input, hin, rfl⟩
  | .orderBy orders child, h => by
    obtain ⟨input, hin⟩ := child.returns_exists sys h
    obtain ⟨sorted, hs⟩ := orders_arranged sys orders input
    exact ⟨sorted, input, hin, hs⟩
  | .topN orders _ _ child, h => by
    obtain ⟨input, hin⟩ := child.returns_exists sys h
    obtain ⟨sorted, hs⟩ := orders_arranged sys orders input
    exact ⟨_, input, hin, sorted, hs, rfl⟩
  | .other op children, h => by
    obtain ⟨inputs, hin⟩ := returnsAll_exists sys children h
    obtain ⟨out, hout⟩ := op.total inputs
    exact ⟨out, inputs, hin, hout⟩

theorem returnsAll_exists (sys : Engines V) : ∀ ps : List (Plan V), AllAnswerable ps →
    ∃ inputs, returnsAll sys ps inputs
  | [], _ => ⟨[], rfl⟩
  | child :: children, h => by
    obtain ⟨input, hin⟩ := child.returns_exists sys h.1
    obtain ⟨rest, hrest⟩ := returnsAll_exists sys children h.2
    exact ⟨_, input, rest, hin, hrest, rfl⟩

end

end PgDucklake.Scan
