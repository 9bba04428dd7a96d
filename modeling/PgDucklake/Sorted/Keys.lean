import Mathlib.Data.List.Forall2
import Mathlib.Tactic.Common

/-!
# Sort keys

A sort order is written twice: as the parameters of a `ducklake_sorted` index, which PostgreSQL parses and keeps, and as
a text that DuckDB parses for `SET SORTED BY`. `sortSpec` prints the first as the second (`get_create_sorted_index_def`),
`keysText` prints the keys that DuckLake stores as index parameters (`SyncSortKeys`). PostgreSQL and DuckDB fill in a
missing null placement differently (`IndexElem.nulls`, `SortItem.resolve`).
-/

namespace PgDucklake.Sorted

inductive Direction
  | asc
  | desc
  deriving DecidableEq, Repr

inductive NullOrder
  | first
  | last
  deriving DecidableEq, Repr

/-! ## Index parameters -/

/-- `A_Const`. -/
inductive Value
  | null
  | integer (n : Int)
  | float (text : String)
  | string (text : String)
  | boolean (b : Bool)
  | bitString (text : String)
  deriving DecidableEq, Repr

/-- A raw expression. `other` is any node that has no case in `NodeToSQL`. -/
inductive Node
  | columnRef (fields : List String)
  | funcCall (funcname : List String) (args : List Node) (variadic : Bool)
  | aConst (v : Value)
  | typeCast (arg : Node) (names typmods : List String) (arrayBounds : Nat)
  | other (text : String)

/-- The quoted text of a string, with every quote doubled. -/
def escapeSQLString (s : String) : String :=
  "'" ++ String.ofList (s.toList.flatMap fun c => if c.toNat = 39 then [c, c] else [c]) ++ "'"

/-- A constant of a kind without a case is printed as NULL. -/
def Value.toSQL : Value → String
  | .null => "NULL"
  | .integer n => toString n
  | .float text => text
  | .string text => escapeSQLString text
  | .boolean _ => "NULL"
  | .bitString _ => "NULL"

mutual

/-- Names are printed without quotes; the modifiers and the array bounds of a type and VARIADIC are not printed. -/
def nodeToSQL : Node → Option String
  | .columnRef fields => some (".".intercalate fields)
  | .funcCall funcname args _ =>
    (nodesToSQL args).map fun texts => ".".intercalate funcname ++ "(" ++ ", ".intercalate texts ++ ")"
  | .aConst v => some v.toSQL
  | .typeCast arg names _ _ =>
    (nodeToSQL arg).map fun text => text ++ "::" ++ ".".intercalate (names.filter fun n => n ≠ "pg_catalog")
  | .other _ => none

def nodesToSQL : List Node → Option (List String)
  | [] => some []
  | n :: ns => (nodeToSQL n).bind fun text => (nodesToSQL ns).map (text :: ·)

end

inductive IndexKey
  | name (column : String)
  | expr (node : Node)

/-- `IndexElem`. A missing direction is ascending. -/
structure IndexElem where
  key : IndexKey
  ordering : Option Direction
  nullsOrdering : Option NullOrder
  collation : List String
  opclass : List String

def IndexElem.direction (e : IndexElem) : Direction := e.ordering.getD .asc

/-- The null placement that PostgreSQL gives the key: nulls are larger than all other values. -/
def IndexElem.nulls (e : IndexElem) : NullOrder :=
  e.nullsOrdering.getD (match e.direction with
    | .asc => .last
    | .desc => .first)

def Direction.text : Direction → String
  | .asc => " ASC"
  | .desc => " DESC"

def NullOrder.text : NullOrder → String
  | .first => " NULLS FIRST"
  | .last => " NULLS LAST"

def IndexKey.text : IndexKey → Option String
  | .name column => some column
  | .expr node => nodeToSQL node

/-- One key of the text, or an error. -/
def IndexElem.text (e : IndexElem) : Option String :=
  if e.collation ≠ [] then none
  else if e.opclass ≠ [] ∧ (e.opclass.length ≠ 2 ∨ e.opclass.head? ≠ some "ducklake") then none
  else e.key.text.map fun text => text ++ e.direction.text ++ (e.nullsOrdering.map NullOrder.text).getD ""

/-- The key list of `SET SORTED BY` for an index. -/
def sortSpec (params : List IndexElem) : Option String := (params.mapM IndexElem.text).map (", ".intercalate ·)

/-! ## DuckLake's keys -/

/-- A key of `SET SORTED BY` as DuckDB reads it. -/
structure SortItem where
  expression : String
  direction : Direction
  nulls : Option NullOrder
  deriving DecidableEq, Repr

/-- A row of `ducklake_sort_expression`. -/
structure SortKey where
  expression : String
  direction : Direction
  nulls : NullOrder
  deriving DecidableEq, Repr

/-- DuckDB's default is NULLS LAST in both directions. -/
def SortItem.resolve (i : SortItem) : SortKey := ⟨i.expression, i.direction, i.nulls.getD .last⟩

def SortKey.text (k : SortKey) : String := k.expression ++ k.direction.text ++ k.nulls.text

/-- The index parameters for the keys of a table. -/
def keysText (keys : List SortKey) : String := ", ".intercalate (keys.map SortKey.text)

/-! ## The two readings -/

/-- The parsers. -/
structure Grammars where
  /-- The keys in `SET SORTED BY (…)`; `none` is an error. -/
  duckdb : String → Option (List SortItem)
  /-- The parameters in `CREATE INDEX … (…)`; `none` is an error. -/
  postgres : String → Option (List IndexElem)
  /-- The text is an expression for the index key. -/
  denotes : String → IndexKey → Prop

variable (g : Grammars)

/-- DuckDB and PostgreSQL have read the same key, with the same marks. -/
structure SameRead (i : SortItem) (e : IndexElem) : Prop where
  key : g.denotes i.expression e.key
  direction : i.direction = e.direction
  nulls : i.nulls = e.nullsOrdering

/-- The index key is the key of the specification. -/
structure SameKey (k : SortKey) (e : IndexElem) : Prop where
  key : g.denotes k.expression e.key
  direction : k.direction = e.direction
  nulls : k.nulls = e.nulls

/-- A key whose null placement is left to the default is ascending. -/
def IndexElem.Placed (e : IndexElem) : Prop := e.direction = .desc → e.nullsOrdering ≠ none

variable {g}

theorem SameRead.resolve {i : SortItem} {e : IndexElem} (h : SameRead g i e) (hplaced : e.Placed) :
    SameKey g i.resolve e := by
  refine ⟨h.key, h.direction, ?_⟩
  have hnulls := h.nulls
  cases hmark : e.nullsOrdering with
  | some n => simp [SortItem.resolve, IndexElem.nulls, hnulls, hmark]
  | none =>
    have hasc : e.direction = .asc := by
      cases hd : e.direction with
      | asc => rfl
      | desc => exact absurd hmark (hplaced hd)
    simp [SortItem.resolve, IndexElem.nulls, hnulls, hmark, hasc]

theorem sameKeys_of_sameReads {items : List SortItem} {elems : List IndexElem}
    (h : List.Forall₂ (SameRead g) items elems) (hplaced : ∀ e ∈ elems, e.Placed) :
    List.Forall₂ (SameKey g) (items.map SortItem.resolve) elems := by
  induction h with
  | nil => exact .nil
  | cons hread _ ih =>
    refine .cons (hread.resolve (hplaced _ (List.mem_cons_self ..))) (ih fun e he => ?_)
    exact hplaced e (List.mem_cons_of_mem _ he)

end PgDucklake.Sorted
