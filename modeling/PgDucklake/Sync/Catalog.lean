import PgDucklake.Lib.Keys
import PgDucklake.Types
import Mathlib.Tactic.Common

/-!
# The PostgreSQL catalog

The part of `pg_class` and `pg_namespace` that catalog sync reads and writes, and what the three statements that it
generates do (`exec`). A `Catalog` carries PostgreSQL's own rules: names are unique in a schema and short, and only a
partitioned table has tables as parts. `mem_exec_create`, `mem_exec_drop` and `exec_createSchema` say what a statement
that PostgreSQL accepts leaves.
-/

namespace PgDucklake.Sync

/-! ## Identifiers -/

/-- The longest prefix of whole characters within `n` bytes. -/
def takeBytes : Nat → List Char → List Char
  | _, [] => []
  | n, c :: cs => if c.utf8Size ≤ n then c :: takeBytes (n - c.utf8Size) cs else []

/-- An identifier as the parser keeps it: `NAMEDATALEN - 1` bytes at most. -/
def truncateIdentifier (s : String) : String := String.ofList (takeBytes 63 s.toList)

theorem takeBytes_idem (n : Nat) (cs : List Char) : takeBytes n (takeBytes n cs) = takeBytes n cs := by
  induction cs generalizing n with
  | nil => rfl
  | cons c cs ih =>
    by_cases h : c.utf8Size ≤ n
    · simp [takeBytes, h, ih]
    · simp [takeBytes, h]

@[simp] theorem truncateIdentifier_idem (s : String) :
    truncateIdentifier (truncateIdentifier s) = truncateIdentifier s := by
  simp [truncateIdentifier, takeBytes_idem]

/-! ## Relations -/

/-- The PostgreSQL types that `DuckLakeTypeToPgType` names; a `numeric` may carry a type modifier. -/
inductive PgType where
  | bool | int2 | int4 | int8 | numeric (typmod : Option Nat) | float4 | float8 | text | bytea | uuid | date | time
  | timetz | timestamp | timestamptz | interval | variant
  deriving DecidableEq, Repr

structure PgColumn where
  name : String
  type : PgType
  notNull : Bool
  deriving DecidableEq, Repr

inductive RelKind where
  | table | partitionedTable | view | materializedView | foreignTable | sequence | index | compositeType
  deriving DecidableEq, Repr

inductive AccessMethod where
  | heap | ducklake | other
  deriving DecidableEq, Repr

/-- A row of `pg_class`. -/
structure Relation where
  oid : Nat
  schema : String
  name : String
  kind : RelKind
  /-- `none` for relations without storage. -/
  accessMethod : Option AccessMethod
  columns : List PgColumn
  /-- The relations of which this one is a part, and with which it is dropped: an index or an owned sequence of its
  table, a partition of its parents. -/
  partOf : List Nat
  deriving DecidableEq, Repr

def Relation.qualified (r : Relation) : String × String := (r.schema, r.name)

def Relation.isDucklake (r : Relation) : Bool := r.accessMethod == some .ducklake

/-- A catalog, with PostgreSQL's rules for it. -/
structure Catalog where
  schemas : List String
  relations : List Relation
  nextOid : Nat
  oid_lt : ∀ r ∈ relations, r.oid < nextOid
  oids_unique : (relations.map (·.oid)).Nodup
  names_unique : (relations.map (·.qualified)).Nodup
  names_short : ∀ r ∈ relations, truncateIdentifier r.schema = r.schema ∧ truncateIdentifier r.name = r.name
  /-- The ducklake access method is that of plain tables. -/
  ducklake_table : ∀ r ∈ relations, r.isDucklake = true → r.kind = .table
  partOf_lt : ∀ r ∈ relations, ∀ o ∈ r.partOf, o < nextOid
  /-- A plain table has no table as a part. -/
  table_parts : ∀ r ∈ relations, ∀ r' ∈ relations, r.kind = .table → r.oid ∈ r'.partOf →
    r'.kind ≠ .table ∧ r'.kind ≠ .partitionedTable

/-- `get_namespace_oid` and `get_relname_relid`: the relation of that name, which is compared in full. -/
def Catalog.lookup (c : Catalog) (q : String × String) : Option Relation := c.relations.find? (·.qualified == q)

theorem Catalog.lookup_some {c : Catalog} {q : String × String} {r : Relation} :
    c.lookup q = some r ↔ r ∈ c.relations ∧ r.qualified = q := Lib.find?_key c.names_unique

theorem Catalog.lookup_none {c : Catalog} {q : String × String} :
    c.lookup q = none ↔ ∀ r ∈ c.relations, r.qualified ≠ q := by
  simp [Catalog.lookup, List.find?_eq_none]

/-! ## Statements -/

/-- The statements that catalog sync generates. -/
inductive Ddl where
  | createSchema (name : String)
  | createTable (schema name : String) (columns : List PgColumn)
  | dropTable (schema name : String)
  deriving DecidableEq, Repr

def PgColumn.truncated (c : PgColumn) : PgColumn := { c with name := truncateIdentifier c.name }

/-- `CREATE SCHEMA IF NOT EXISTS`. -/
def Catalog.createSchema (c : Catalog) (name : String) : Catalog :=
  if truncateIdentifier name ∈ c.schemas then c else { c with schemas := truncateIdentifier name :: c.schemas }

/-- The relation that `CREATE TABLE … USING ducklake` makes. -/
def Catalog.newTable (c : Catalog) (schema name : String) (columns : List PgColumn) : Relation where
  oid := c.nextOid
  schema := truncateIdentifier schema
  name := truncateIdentifier name
  kind := .table
  accessMethod := some .ducklake
  columns := columns.map (·.truncated)
  partOf := []

/-- A catalog with one more ducklake table. -/
def Catalog.addTable (c : Catalog) (schema name : String) (columns : List PgColumn)
    (h : c.lookup (truncateIdentifier schema, truncateIdentifier name) = none) : Catalog where
  schemas := c.schemas
  relations := c.newTable schema name columns :: c.relations
  nextOid := c.nextOid + 1
  oid_lt := by
    intro r hr
    rcases List.mem_cons.mp hr with rfl | hr
    · exact Nat.lt_succ_self _
    · exact Nat.lt_succ_of_lt (c.oid_lt r hr)
  oids_unique := by
    rw [List.map_cons, List.nodup_cons]
    refine ⟨fun hin => ?_, c.oids_unique⟩
    obtain ⟨r, hr, he⟩ := List.mem_map.mp hin
    exact absurd (c.oid_lt r hr) (by rw [he]; exact Nat.lt_irrefl _)
  names_unique := by
    rw [List.map_cons, List.nodup_cons]
    refine ⟨fun hin => ?_, c.names_unique⟩
    obtain ⟨r, hr, he⟩ := List.mem_map.mp hin
    exact Catalog.lookup_none.mp h r hr he
  names_short := by
    intro r hr
    rcases List.mem_cons.mp hr with rfl | hr
    · exact ⟨truncateIdentifier_idem _, truncateIdentifier_idem _⟩
    · exact c.names_short r hr
  ducklake_table := by
    intro r hr hd
    rcases List.mem_cons.mp hr with rfl | hr
    · rfl
    · exact c.ducklake_table r hr hd
  partOf_lt := by
    intro r hr o ho
    rcases List.mem_cons.mp hr with rfl | hr
    · cases ho
    · exact Nat.lt_succ_of_lt (c.partOf_lt r hr o ho)
  table_parts := by
    intro r hr r' hr' hk ho
    rcases List.mem_cons.mp hr' with rfl | hr'
    · cases ho
    rcases List.mem_cons.mp hr with rfl | hr
    · exact absurd (c.partOf_lt r' hr' _ ho) (Nat.lt_irrefl _)
    · exact c.table_parts r hr r' hr' hk ho

/-- A catalog without a relation and its parts. -/
def Catalog.remove (c : Catalog) (r : Relation) : Catalog where
  schemas := c.schemas
  relations := c.relations.filter fun r' => !(r'.oid == r.oid || r'.partOf.contains r.oid)
  nextOid := c.nextOid
  oid_lt r' hr' := c.oid_lt r' (List.mem_filter.mp hr').1
  oids_unique := c.oids_unique.sublist (List.filter_sublist.map _)
  names_unique := c.names_unique.sublist (List.filter_sublist.map _)
  names_short r' hr' := c.names_short r' (List.mem_filter.mp hr').1
  ducklake_table r' hr' := c.ducklake_table r' (List.mem_filter.mp hr').1
  partOf_lt r' hr' := c.partOf_lt r' (List.mem_filter.mp hr').1
  table_parts a ha b hb := c.table_parts a (List.mem_filter.mp ha).1 b (List.mem_filter.mp hb).1

/-- One statement; `none` is an error. PostgreSQL may refuse a statement for reasons outside this model (permissions,
dependent objects, other kinds of names): `refuses` says so. -/
def exec (refuses : Catalog → Ddl → Bool) (c : Catalog) (d : Ddl) : Option Catalog :=
  if refuses c d then none
  else match d with
    | .createSchema name => some (c.createSchema name)
    | .createTable schema name columns =>
      if truncateIdentifier schema ∈ c.schemas then
        if h : c.lookup (truncateIdentifier schema, truncateIdentifier name) = none then
          some (c.addTable schema name columns h)
        else none
      else none
    | .dropTable schema name =>
      match c.lookup (truncateIdentifier schema, truncateIdentifier name) with
      | none => none
      | some r => if r.kind = .table ∨ r.kind = .partitionedTable then some (c.remove r) else none

/-! ## What a statement leaves -/

section Exec

variable {refuses : Catalog → Ddl → Bool} {c c' : Catalog} {schema name : String} {columns : List PgColumn}

@[simp] theorem Catalog.createSchema_relations (c : Catalog) (name : String) :
    (c.createSchema name).relations = c.relations := by
  unfold Catalog.createSchema
  split <;> rfl

theorem exec_createSchema (h : exec refuses c (.createSchema name) = some c') : c' = c.createSchema name := by
  simp only [exec, Option.ite_none_left_eq_some, Option.some.injEq] at h
  exact h.2.symm

theorem mem_exec_create (h : exec refuses c (.createTable schema name columns) = some c') {r : Relation} :
    r ∈ c'.relations ↔ r = c.newTable schema name columns ∨ r ∈ c.relations := by
  simp only [exec, Option.ite_none_left_eq_some, Option.ite_none_right_eq_some,
    Option.dite_none_right_eq_some, Option.some.injEq] at h
  obtain ⟨-, -, hnone, rfl⟩ := h
  exact List.mem_cons

theorem mem_exec_drop (h : exec refuses c (.dropTable schema name) = some c') :
    ∃ r, c.lookup (truncateIdentifier schema, truncateIdentifier name) = some r ∧
      (r.kind = .table ∨ r.kind = .partitionedTable) ∧
      ∀ r', r' ∈ c'.relations ↔ r' ∈ c.relations ∧ r'.oid ≠ r.oid ∧ r.oid ∉ r'.partOf := by
  simp only [exec, Option.ite_none_left_eq_some] at h
  obtain ⟨-, h⟩ := h
  split at h
  · cases h
  next r hr =>
    rw [Option.ite_none_right_eq_some, Option.some.injEq] at h
    obtain ⟨hk, rfl⟩ := h
    refine ⟨r, hr, hk, fun r' => ?_⟩
    simp [Catalog.remove]

theorem Catalog.lookup_short {q : String × String} {r : Relation} (h : c.lookup q = some r) :
    (truncateIdentifier q.1, truncateIdentifier q.2) = q := by
  obtain ⟨hr, rfl⟩ := Catalog.lookup_some.mp h
  exact Prod.ext (c.names_short r hr).1 (c.names_short r hr).2

end Exec

end PgDucklake.Sync
