import PgDucklake.Sync.Catalog
import Mathlib.Data.List.Induction

/-!
# Dropping tables in PostgreSQL

`ducklake_drop_table_trigger` drops the DuckLake tables of a `DROP` command. It sees the dropped objects by kind, schema
and name only, not by access method. So it drops exactly the tables that dropped ducklake relations mirrored when no
other dropped table bears the name of a live DuckLake table (`drops_own_iff`), and a dropped heap table takes the
DuckLake table of its name along otherwise (`heap_drops_ducklake`).
-/

namespace PgDucklake.Sync

/-! ## DuckLake within the transaction -/

/-- A DuckLake table as DuckDB's catalog lists it. -/
structure LakeTable where
  schema : String
  name : String
  deriving DecidableEq, Repr

/-- DuckDB compares names without case. -/
def sameName (a b : String) : Bool := a.toList.map Char.toLower == b.toList.map Char.toLower

def LakeTable.isNamed (t : LakeTable) (schema name : String) : Bool := sameName t.schema schema && sameName t.name name

/-- DuckLake as one transaction sees it. -/
structure Lake where
  /-- The live tables of the committed metadata: `ducklake_table` is only written before commit. -/
  committed : List LakeTable
  /-- The tables of DuckDB's catalog, with what the transaction did. -/
  tables : List LakeTable
  /-- DuckDB is initialised and has a transaction open. -/
  active : Bool
  /-- Names differ in more than case. -/
  unique : ∀ t ∈ tables, ∀ t' ∈ tables, t.isNamed t'.schema t'.name = true → t = t'
  /-- Without a transaction DuckDB sees the committed tables. -/
  idle : active = false → tables = committed

/-! ## The trigger -/

/-- An object of `pg_event_trigger_dropped_objects`; the access method is not listed there. -/
structure DroppedObject where
  kind : RelKind
  schema : String
  name : String
  accessMethod : Option AccessMethod
  /-- The ducklake access method is that of plain tables. -/
  ducklake_table : accessMethod = some .ducklake → kind = .table

/-- `object_type = 'table'`. -/
def DroppedObject.isTable (o : DroppedObject) : Bool := o.kind == .table || o.kind == .partitionedTable

def DroppedObject.lakeName (o : DroppedObject) : LakeTable := ⟨o.schema, o.name⟩

/-- The relation used the ducklake access method. -/
def DroppedObject.isDucklake (o : DroppedObject) : Bool := o.accessMethod == some .ducklake

/-- `DROP TABLE IF EXISTS` in DuckDB. -/
def dropTable (tables : List LakeTable) (schema name : String) : List LakeTable :=
  tables.filter fun t => !t.isNamed schema name

/-- What the loop changes: DuckDB's catalog, and whether DuckDB has a transaction open. -/
structure DropLoop where
  tables : List LakeTable
  active : Bool

/-- `DropTargetLivesInDuckDBCatalog`: an entry under the name, spelled the same. -/
def DropLoop.targetLives (st : DropLoop) (o : DroppedObject) : Bool :=
  st.active && (st.tables.find? (·.isNamed o.schema o.name)).any (· == o.lakeName)

/-- One dropped object of `ducklake_drop_table_trigger`. -/
def Lake.dropObject (l : Lake) (st : DropLoop) (o : DroppedObject) : DropLoop :=
  if o.isTable && (l.committed.contains o.lakeName || st.targetLives o) then
    ⟨dropTable st.tables o.schema o.name, true⟩
  else st

/-- `ducklake_drop_table_trigger`. -/
def Lake.dropTrigger (l : Lake) (dropped : List DroppedObject) : DropLoop :=
  dropped.foldl l.dropObject ⟨l.tables, l.active⟩

/-! ## Which tables are dropped -/

/-- The name of a dropped table denotes a live DuckLake table: in the same spelling, or in another one while the
committed metadata still has this one. -/
structure Denotes (l : Lake) (o : DroppedObject) (t : LakeTable) : Prop where
  isTable : o.isTable = true
  live : t ∈ l.tables
  isNamed : t.isNamed o.schema o.name = true
  spelling : t = o.lakeName ∨ o.lakeName ∈ l.committed

/-- The table was mirrored by a dropped relation that used the ducklake access method. -/
def MirroredBy (dropped : List DroppedObject) (t : LakeTable) : Prop :=
  ∃ o ∈ dropped, o.isDucklake = true ∧ o.lakeName = t

theorem LakeTable.isNamed_self (t : LakeTable) : t.isNamed t.schema t.name = true := by
  simp [LakeTable.isNamed, sameName]

theorem mem_dropTable {tables : List LakeTable} {schema name : String} {t : LakeTable} :
    t ∈ dropTable tables schema name ↔ t ∈ tables ∧ ¬t.isNamed schema name = true := by
  simp [dropTable]

/-- What the loop has left after the objects `seen`. -/
structure Left (l : Lake) (seen : List DroppedObject) (st : DropLoop) : Prop where
  tables : ∀ t, t ∈ st.tables ↔ t ∈ l.tables ∧ ∀ o ∈ seen, ¬Denotes l o t
  idle : st.active = false → l.active = false ∧ st.tables = l.tables

theorem Left.start (l : Lake) : Left l [] ⟨l.tables, l.active⟩ := ⟨by simp, fun h => ⟨h, rfl⟩⟩

theorem Left.not_denotes {l : Lake} {seen : List DroppedObject} {st : DropLoop} (h : Left l seen st) {o : DroppedObject}
    (hcommitted : o.lakeName ∉ l.committed) (hlives : st.targetLives o = false) {t : LakeTable} (ht : t ∈ st.tables) :
    ¬Denotes l o t := by
  intro hd
  obtain rfl : t = o.lakeName := hd.spelling.resolve_right hcommitted
  cases hactive : st.active with
  | false =>
    obtain ⟨hl, hst⟩ := h.idle hactive
    exact hcommitted (l.idle hl ▸ hst ▸ ht)
  | true =>
    -- the lookup finds the only entry of that name
    have hfound : (st.tables.find? (·.isNamed o.schema o.name)).isSome := List.find?_isSome.mpr ⟨_, ht, hd.isNamed⟩
    obtain ⟨e, he⟩ := Option.isSome_iff_exists.mp hfound
    have hel := ((h.tables e).mp (List.mem_of_find?_eq_some he)).1
    have hnamed : e.isNamed o.schema o.name = true := by simpa using List.find?_some he
    have heq : e = o.lakeName := l.unique e hel _ hd.live hnamed
    simp [DropLoop.targetLives, hactive, he, heq] at hlives

/-- **One more object.** -/
theorem Left.object {l : Lake} {seen : List DroppedObject} {st : DropLoop} (h : Left l seen st) (o : DroppedObject) :
    Left l (seen ++ [o]) (l.dropObject st o) := by
  have hsplit : ∀ t, (∀ o' ∈ seen ++ [o], ¬Denotes l o' t) ↔ (∀ o' ∈ seen, ¬Denotes l o' t) ∧ ¬Denotes l o t := by
    simp [or_imp, forall_and]
  unfold Lake.dropObject
  split
  next htarget =>
    simp only [Bool.and_eq_true, Bool.or_eq_true, List.contains_iff_mem] at htarget
    obtain ⟨htable, hname⟩ := htarget
    refine ⟨fun t => ?_, fun hf => by cases hf⟩
    rw [mem_dropTable, h.tables t, hsplit t, and_assoc]
    refine and_congr_right fun ht => and_congr_right fun _ => not_congr ⟨fun hm => ⟨htable, ht, hm, ?_⟩, (·.isNamed)⟩
    rcases hname with hname | hname
    · exact Or.inr hname
    · -- the entry found is spelled as the object is, and no other entry has that name
      simp only [DropLoop.targetLives, Bool.and_eq_true, Option.any_eq_true, beq_iff_eq] at hname
      obtain ⟨-, e, he, rfl⟩ := hname
      have hel := ((h.tables _).mp (List.mem_of_find?_eq_some he)).1
      exact Or.inl (l.unique t ht _ hel hm)
  next htarget =>
    refine ⟨fun t => ?_, h.idle⟩
    rw [h.tables t, hsplit t]
    refine and_congr_right fun ht => ⟨fun hseen => ⟨hseen, fun hd => ?_⟩, And.left⟩
    simp only [hd.isTable, Bool.true_and, Bool.or_eq_true, List.contains_iff_mem, not_or, Bool.not_eq_true] at htarget
    exact h.not_denotes htarget.1 htarget.2 ((h.tables t).mpr ⟨ht, hseen⟩) hd

/-- **The tables that are left**: those that no dropped table's name denotes. -/
theorem mem_dropTrigger (l : Lake) (dropped : List DroppedObject) (t : LakeTable) :
    t ∈ (l.dropTrigger dropped).tables ↔ t ∈ l.tables ∧ ∀ o ∈ dropped, ¬Denotes l o t := by
  have hrun : Left l dropped (l.dropTrigger dropped) := by
    unfold Lake.dropTrigger
    induction dropped using List.reverseRecOn with
    | nil => exact Left.start l
    | append_singleton seen o ih =>
      rw [List.foldl_append]
      exact ih.object o
  exact hrun.tables t

/-- **The DuckLake tables dropped are those that dropped ducklake relations mirrored**, exactly when every live table that
a dropped table's name denotes is one of them. -/
theorem drops_own_iff (l : Lake) (dropped : List DroppedObject) :
    (∀ t ∈ l.tables, t ∉ (l.dropTrigger dropped).tables ↔ MirroredBy dropped t) ↔
      ∀ o ∈ dropped, ∀ t, Denotes l o t → MirroredBy dropped t := by
  have hgone : ∀ t ∈ l.tables, t ∉ (l.dropTrigger dropped).tables ↔ ∃ o ∈ dropped, Denotes l o t := by
    intro t ht
    simp [mem_dropTrigger, ht]
  have hmirror : ∀ t ∈ l.tables, MirroredBy dropped t → ∃ o ∈ dropped, Denotes l o t := by
    rintro t ht ⟨o, ho, hd, rfl⟩
    have hkind := o.ducklake_table (by simpa [DroppedObject.isDucklake] using hd)
    exact ⟨o, ho, by simp [DroppedObject.isTable, hkind], ht, LakeTable.isNamed_self _, Or.inl rfl⟩
  constructor
  · intro h o ho t hden
    exact (h t hden.live).mp ((hgone t hden.live).mpr ⟨o, ho, hden⟩)
  · intro h t ht
    rw [hgone t ht]
    exact ⟨fun ⟨o, ho, hden⟩ => h o ho t hden, hmirror t ht⟩

/-- The DuckLake table `public.t`, committed. -/
def oneLakeTable : Lake where
  committed := [⟨"public", "t"⟩]
  tables := [⟨"public", "t"⟩]
  active := false
  unique := by decide
  idle _ := rfl

/-- **A dropped heap table drops the DuckLake table of its name.** -/
theorem heap_drops_ducklake : ∃ o : DroppedObject, o.accessMethod = some .heap ∧
    (oneLakeTable.dropTrigger [o]).tables = [] ∧ ¬MirroredBy [o] ⟨"public", "t"⟩ := by
  refine ⟨⟨.table, "public", "t", some .heap, by simp⟩, rfl, by decide, ?_⟩
  rintro ⟨o, ho, hd, -⟩
  rw [List.mem_singleton.mp ho] at hd
  cases hd

end PgDucklake.Sync
