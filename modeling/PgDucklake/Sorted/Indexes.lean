import PgDucklake.Lib.Keys
import PgDucklake.Sorted.Keys

/-!
# Sorted indexes in the catalogs

What the sort commands read and write: the relations and indexes of PostgreSQL and the live sort specifications of
DuckLake. `CREATE INDEX` and `DROP INDEX` as PostgreSQL executes them (`defineIndex`, `removeIndexes`), with names that
are looked up along a search path (`rangeVarGetRelid`).
-/

namespace PgDucklake.Sorted

/-- A schema and a name in it. -/
abbrev QName := String × String

instance : LawfulBEq QName := inferInstance

/-- A row of `pg_index`; `sorted` if its access method is `ducklake_sorted`. An index lives in the schema of its table. -/
structure Index where
  table : QName
  name : String
  sorted : Bool
  elems : List IndexElem

def Index.qualified (i : Index) : QName := (i.table.1, i.name)

/-- Relation names are unique. -/
structure Database where
  /-- The tables of the ducklake access method. -/
  tables : List QName
  /-- All other relations but the indexes. -/
  others : List QName
  indexes : List Index
  /-- The live sort specifications. -/
  specs : QName → Option (List SortKey)
  names_unique : (tables ++ others ++ indexes.map Index.qualified).Nodup

namespace Database

variable (db : Database)

def names : List QName := db.tables ++ db.others ++ db.indexes.map Index.qualified

def addIndex (i : Index) (h : i.qualified ∉ db.names) : Database :=
  { db with
    indexes := db.indexes ++ [i]
    names_unique := by
      rw [List.map_append, ← List.append_assoc]
      refine List.nodup_append.mpr ⟨db.names_unique, List.nodup_singleton _, ?_⟩
      rintro q hq _ hi rfl
      exact h (List.mem_singleton.mp hi ▸ hq) }

def removeIndexes (dropped : List QName) : Database :=
  { db with
    indexes := db.indexes.filter fun i => i.qualified ∉ dropped
    names_unique := db.names_unique.sublist (List.Sublist.append (List.Sublist.refl _) (List.filter_sublist.map _)) }

def setSpec (table : QName) (keys : Option (List SortKey)) : Database :=
  { db with specs := fun t => if t = table then keys else db.specs t }

/-- The `ducklake_sorted` indexes of a table. -/
def sortedOn (table : QName) : List Index := db.indexes.filter fun i => i.sorted && i.table == table

/-- An unqualified name stands for the first relation of that name on the path. -/
def rangeVarGetRelid (path : List String) (name : String) : Option QName :=
  (path.map fun schema => (schema, name)).find? fun q => q ∈ db.names

def isIndex (q : QName) : Bool := q ∈ db.indexes.map Index.qualified

end Database

/-- `IndexStmt` of a `ducklake_sorted` index. IF NOT EXISTS comes with a name. -/
structure IndexStmt where
  idxname : Option String
  relation : QName
  params : List IndexElem
  concurrent : Bool
  unique : Bool
  whereClause : Bool
  including : Bool
  tableSpace : Bool
  ifNotExists : Bool

/-- What PostgreSQL does with the statement. `choose` makes up a name; a taken name is an error, unless IF NOT EXISTS
turns the statement into a no-op. -/
def defineIndex (choose : Database → IndexStmt → String) (db : Database) (stmt : IndexStmt) : Option Database :=
  let i : Index := ⟨stmt.relation, stmt.idxname.getD (choose db stmt), true, stmt.params⟩
  if h : i.qualified ∈ db.names then
    if stmt.ifNotExists then some db else none
  else some (db.addIndex i h)

/-- The tables of the `ducklake_sorted` indexes among the dropped ones. -/
def findSortedIndexDrops (db : Database) (dropped : List QName) : List QName :=
  dropped.filterMap fun q => (db.indexes.find? fun i => i.qualified == q && i.sorted).map (·.table)

/-! ## The indexes of a table after a statement -/

section Lemmas

variable {db db' : Database} {table : QName}

@[simp]
theorem sortedOn_setSpec (db : Database) (table t : QName) (keys : Option (List SortKey)) :
    (db.setSpec table keys).sortedOn t = db.sortedOn t := rfl

theorem sortedOn_addIndex {i : Index} {h : i.qualified ∉ db.names} (hsorted : i.sorted = true) :
    (db.addIndex i h).sortedOn table = db.sortedOn table ++ if i.table = table then [i] else [] := by
  simp only [Database.addIndex, Database.sortedOn, List.filter_append]
  by_cases htable : i.table = table
  · simp [hsorted, htable]
  · simp [htable]

theorem sortedOn_removeIndexes {dropped : List QName} :
    (db.removeIndexes dropped).sortedOn table = (db.sortedOn table).filter fun i => i.qualified ∉ dropped := by
  simp only [Database.removeIndexes, Database.sortedOn, List.filter_filter]
  congr 1
  funext i
  exact Bool.and_comm _ _

theorem mem_sortedOn {i : Index} : i ∈ db.sortedOn table ↔ i ∈ db.indexes ∧ i.sorted = true ∧ i.table = table := by
  simp [Database.sortedOn]

theorem index_unique {i j : Index} (hi : i ∈ db.indexes) (hj : j ∈ db.indexes) (h : i.qualified = j.qualified) :
    i = j :=
  List.inj_on_of_nodup_map (List.nodup_append.mp db.names_unique).2.1 hi hj h

theorem defineIndex_eq {choose : Database → IndexStmt → String} {stmt : IndexStmt}
    (h : defineIndex choose db stmt = some db') :
    (db' = db ∧ stmt.ifNotExists = true ∧ (stmt.relation.1, stmt.idxname.getD (choose db stmt)) ∈ db.names) ∨
      ∃ i hnew, db' = db.addIndex i hnew ∧ i.table = stmt.relation ∧ i.sorted = true ∧ i.elems = stmt.params := by
  simp only [defineIndex] at h
  split at h
  · rename_i hmem
    split at h
    · rename_i hif
      cases h
      exact .inl ⟨rfl, hif, hmem⟩
    · cases h
  · cases h
    exact .inr ⟨_, _, rfl, rfl, rfl, rfl⟩

end Lemmas

end PgDucklake.Sorted
