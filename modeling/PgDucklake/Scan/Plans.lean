import Mathlib.Data.List.Basic

/-!
# The ORDER BY pushdown

DuckDB's logical plans as far as the pushdown optimizer tells their operators apart, and the optimizer itself. An
`ORDER_BY` or `TOP_N` over projections over a PostgreSQL scan is removed where a btree index can produce the order, and
its keys, limit and offset are left in the bind data of the scan.
-/

namespace PgDucklake.Scan

inductive OrderType
  | orderDefault
  | ascending
  | descending
  deriving DecidableEq, Repr

inductive OrderByNullType
  | orderDefault
  | nullsFirst
  | nullsLast
  deriving DecidableEq, Repr

/-- A column as DuckDB's binder names it: an operator of the plan and a position in its output. -/
structure Binding where
  tableIndex : Nat
  columnIndex : Nat
  deriving DecidableEq, Repr

/-- A row that an operator passes on, by position and by binding. -/
structure Row (V : Type) where
  columns : List (Option V)
  lookup : Binding → Option V

/-- The bound expressions. Only plain references to a column can be pushed. -/
inductive Expr (V : Type)
  | boundRef (index : Nat)
  | boundColumnRef (binding : Binding)
  | other (eval : Row V → Option V)

/-- One key of an `ORDER BY`. -/
structure BoundOrderByNode (V : Type) where
  expression : Expr V
  type : OrderType
  nullOrder : OrderByNullType

/-- What a scan reads under one of its positions: a column of the table, numbered from 0, possibly only some fields of
it, or a column that the table does not store. -/
inductive ColumnIndex
  | column (primary : Nat) (hasChildren : Bool)
  | rowId
  | virtualColumn (id : Nat)
  deriving DecidableEq, Repr

/-- One pushed key: a position in the scan's column list and the requested order. -/
structure PostgresOrderBySpec where
  columnIndex : Nat
  orderType : OrderType
  nullOrder : OrderByNullType
  deriving DecidableEq, Repr

/-- The part of the scan's bind data that the pushdown writes, as the constructor leaves it. -/
structure BindData where
  orderBys : List PostgresOrderBySpec := []
  limit : Option Nat := none
  offset : Nat := 0
  deriving DecidableEq, Repr

/-- The flags of one index column. -/
structure IndOption where
  desc : Bool
  nullsFirst : Bool
  deriving DecidableEq, Repr

/-- What the pushdown reads of an index. An expression column has attribute number 0. -/
structure Index where
  isValid : Bool
  isBtree : Bool
  nKeyAtts : Nat
  indkey : List Int
  isPartial : Bool
  options : List IndOption
  deriving DecidableEq, Repr

/-- A PostgreSQL table with its indexes. A tuple gives the value of each column, `none` for NULL. -/
structure Table (V : Type) where
  tuples : List (Nat → Option V)
  indexes : List Index

/-- A scan of a PostgreSQL table. `filter` is the WHERE clause made from the table filters. -/
structure LogicalGet (V : Type) where
  tableIndex : Nat
  columnIds : List ColumnIndex
  projectionIds : List Nat
  filter : (Nat → Option V) → Bool
  rel : Table V
  bindData : BindData

/-- An operator of any other kind, a scan by another table function included: the results it may return for what its
children return. -/
structure Operator (V : Type) where
  returns : List (List (Row V)) → List (Row V) → Prop
  total : ∀ inputs, ∃ out, returns inputs out

inductive Plan (V : Type)
  | get (g : LogicalGet V)
  | projection (tableIndex : Nat) (expressions : List (Expr V)) (child : Plan V)
  | orderBy (orders : List (BoundOrderByNode V)) (child : Plan V)
  | topN (orders : List (BoundOrderByNode V)) (limit offset : Nat) (child : Plan V)
  | other (op : Operator V) (children : List (Plan V))

/-! ## Indexes -/

/-- The index column produces the requested order when the index is read forward. -/
def matchesForward (o : IndOption) (s : PostgresOrderBySpec) : Bool :=
  -- DESC defaults to NULLS FIRST, ASC defaults to NULLS LAST
  let indexNullsFirst := o.nullsFirst || o.desc
  let specDesc := decide (s.orderType = .descending)
  let specNullsFirst := match s.nullOrder with
    | .orderDefault => specDesc
    | .nullsFirst => true
    | .nullsLast => false
  specDesc == o.desc && specNullsFirst == indexNullsFirst

/-- The same for the index read backward. -/
def matchesBackward (o : IndOption) (s : PostgresOrderBySpec) : Bool :=
  let indexNullsFirst := o.nullsFirst || o.desc
  let specDesc := decide (s.orderType = .descending)
  let specNullsFirst := match s.nullOrder with
    | .orderDefault => specDesc
    | .nullsFirst => true
    | .nullsLast => false
  specDesc == !o.desc && specNullsFirst == !indexNullsFirst

/-- The loop over the keys: the attributes match one by one and one of the two directions is left. -/
def keysMatch : List Int → List IndOption → List Int → List PostgresOrderBySpec → Bool → Bool → Bool
  | attnum :: indkey, options, attr :: attrs, spec :: specs, forward, backward =>
    let option := options.headD ⟨false, false⟩
    let forward' := forward && matchesForward option spec
    let backward' := backward && matchesBackward option spec
    decide (0 < attnum) && attnum == attr && (forward' || backward') &&
      keysMatch indkey options.tail attrs specs forward' backward'
  | _, _, _, _, forward, backward => forward || backward

def indexSupportsOrder (indexes : List Index) (orderAttrs : List Int) (orders : List PostgresOrderBySpec) : Bool :=
  !orderAttrs.isEmpty && indexes.any fun index =>
    index.isValid && index.isBtree && decide (orderAttrs.length ≤ index.nKeyAtts) &&
      decide (orderAttrs.length ≤ index.indkey.length) && !index.isPartial &&
      keysMatch index.indkey index.options orderAttrs orders true true

/-! ## From an expression to a column of the scan -/

variable {V : Type}

/-- The position of an expression over the scan in the scan's column list. A binding is looked up by the number of the
table's column. -/
def extractColumnIndex (expr : Expr V) (get : LogicalGet V) : Option Nat :=
  match expr with
  | .boundRef index =>
    let mapped := if get.projectionIds.isEmpty then some index else get.projectionIds[index]?
    mapped.filter fun i =>
      match get.columnIds[i]? with
      | some (.column _ false) => true
      | _ => false
  | .boundColumnRef binding =>
    if binding.tableIndex ≠ get.tableIndex then none
    else get.columnIds.findIdx? fun id => id == .column binding.columnIndex false
  | .other _ => none

/-- The scan under a chain of projections. -/
def findUnderlyingGet : Plan V → Option (LogicalGet V)
  | .get g => some g
  | .projection _ _ child => findUnderlyingGet child
  | _ => none

/-- The expression that an expression over a projection stands for below it. -/
def throughProjection (tableIndex : Nat) (expressions : List (Expr V)) (expr : Expr V) : Option (Expr V) :=
  match expr with
  | .boundRef index => expressions[index]?
  | .boundColumnRef binding =>
    if binding.tableIndex = tableIndex then expressions[binding.columnIndex]? else some expr
  | .other _ => some expr

def resolveColumnIndex (expr : Expr V) (get : LogicalGet V) : Plan V → Option Nat
  | .projection tableIndex expressions child =>
    match throughProjection tableIndex expressions expr with
    | none => none
    | some below => resolveColumnIndex below get child
  | _ => extractColumnIndex expr get

/-! ## The rewrite -/

/-- The bind data of the scan under a chain of projections is replaced. -/
def Plan.withBindData (bindData : BindData) : Plan V → Plan V
  | .get g => .get { g with bindData := bindData }
  | .projection tableIndex expressions child => .projection tableIndex expressions (child.withBindData bindData)
  | plan => plan

/-- The loop over the order nodes: the specs to push and the attribute numbers to look for in an index. -/
def pushedOrders (child : Plan V) (get : LogicalGet V) :
    List (BoundOrderByNode V) → Option (List PostgresOrderBySpec × List Int)
  | [] => some ([], [])
  | node :: nodes =>
    match resolveColumnIndex node.expression get child with
    | none => none
    | some i =>
      match get.columnIds[i]? with
      | some (.column primary false) =>
        (pushedOrders child get nodes).map fun (specs, attrs) =>
          (⟨i, node.type, node.nullOrder⟩ :: specs, (primary + 1 : Int) :: attrs)
      | _ => none

/-- The attempt at one order node with its limit and offset; `rebuild` puts the node over its child again. An attempt
that fails leaves the bind data cleared. -/
def tryPushdown (orders : List (BoundOrderByNode V)) (limit : Option Nat) (offset : Nat) (child : Plan V)
    (rebuild : Plan V → Plan V) : Plan V :=
  match findUnderlyingGet child with
  | none => rebuild child
  | some get =>
    match pushedOrders child get orders with
    | none => rebuild (child.withBindData {})
    | some (specs, attrs) =>
      if indexSupportsOrder get.rel.indexes attrs specs then child.withBindData ⟨specs, limit, offset⟩
      else rebuild (child.withBindData {})

def tryPushdownOrder : Plan V → Plan V
  | .orderBy orders child => tryPushdown orders none 0 child (.orderBy orders)
  | .topN orders limit offset child => tryPushdown orders (some limit) offset child (.topN orders limit offset)
  | plan => plan

mutual

/-- Children first, then the operator itself. -/
def pushdownRecursive : Plan V → Plan V
  | .get g => .get g
  | .projection tableIndex expressions child => .projection tableIndex expressions (pushdownRecursive child)
  | .orderBy orders child => tryPushdownOrder (.orderBy orders (pushdownRecursive child))
  | .topN orders limit offset child => tryPushdownOrder (.topN orders limit offset (pushdownRecursive child))
  | .other op children => .other op (pushdownChildren children)

def pushdownChildren : List (Plan V) → List (Plan V)
  | [] => []
  | child :: children => pushdownRecursive child :: pushdownChildren children

end

end PgDucklake.Scan
