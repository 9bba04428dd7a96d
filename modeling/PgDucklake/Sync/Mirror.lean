import PgDucklake.Sync.Frame

/-!
# The mirror

After every external commit and its trigger the ducklake tables of PostgreSQL are to be the live tables of DuckLake
(`Mirrored`). A commit ends live tables and begins others in one snapshot: created ones, and renamed ones under their
new names. Runs in which no begun name is in use in PostgreSQL and no name is too long keep the mirror (`clear_mirrored`).
A replaced table breaks it: its new version is skipped, because the old one still exists, and then dropped
(`replaced_lost`).
-/

namespace PgDucklake.Sync

open Lib

/-! ## Live tables -/

/-- A table of the mirror: its schema, its name and its columns as PostgreSQL has them. -/
structure Entry where
  schema : String
  name : String
  columns : List PgColumn
  deriving DecidableEq, Repr

def Entry.qualified (x : Entry) : String × String := (x.schema, x.name)

/-- PostgreSQL has a ducklake table. -/
def Catalog.Has (c : Catalog) (x : Entry) : Prop :=
  ∃ r ∈ c.relations, r.isDucklake = true ∧ (⟨r.schema, r.name, r.columns⟩ : Entry) = x

variable (fromString : String → Option LogicalType)

/-- The entry of a DuckLake table. -/
def Metadata.entry (md : Metadata) (s : SchemaRow) (t : TableRow) : Entry :=
  ⟨s.schemaName, t.tableName, md.pgColumns fromString t.tableId⟩

/-- DuckLake has a live table. -/
def Metadata.Live (md : Metadata) (x : Entry) : Prop :=
  ∃ t ∈ md.tables, t.endSnapshot = none ∧ ∃ s ∈ md.schemas, s.schemaId = t.schemaId ∧ s.endSnapshot = none ∧
    md.entry fromString s t = x

/-- **The ducklake tables of PostgreSQL are the live tables of DuckLake**, with their schemas, names and columns. -/
def Mirrored (md : Metadata) (c : Catalog) : Prop := ∀ x, c.Has x ↔ md.Live fromString x

/-! ## Commits -/

/-- What DuckLake keeps of its metadata: schema ids are unique, live names too, and a live table is in a live schema. -/
structure Metadata.WellFormed (md : Metadata) : Prop where
  schemaIds : (md.schemas.map (·.schemaId)).Nodup
  schemaNames : ∀ s ∈ md.schemas, ∀ s' ∈ md.schemas, s.endSnapshot = none → s'.endSnapshot = none →
    s.schemaName = s'.schemaName → s = s'
  tableNames : ((md.tables.filter (·.endSnapshot.isNone)).map fun t => (t.schemaId, t.tableName)).Nodup
  liveSchema : ∀ t ∈ md.tables, t.endSnapshot = none → ∃ s ∈ md.schemas, s.schemaId = t.schemaId ∧ s.endSnapshot = none
  /-- Names are not empty. -/
  named : ∀ s ∈ md.schemas, s.schemaName ≠ ""

/-- A commit of snapshot `sid`: live table rows end, new ones begin. A dropped table ends, a created one begins, a
replaced one does both under one name, a renamed one under two. Columns change only with tables that begin or end. -/
structure Commit (md : Metadata) (sid : Nat) (md' : Metadata) : Prop where
  /-- The snapshot is a new one. -/
  later : ∀ t ∈ md.tables, t.beginSnapshot < sid ∧ ∀ e, t.endSnapshot = some e → e < sid
  schemas : ∀ s ∈ md.schemas, s ∈ md'.schemas
  /-- A row stays or ends, not both. -/
  rows : ∀ t ∈ md.tables, t ∈ md'.tables ↔ ¬(t.endSnapshot = none ∧ { t with endSnapshot := some sid } ∈ md'.tables)
  begun : ∀ t' ∈ md'.tables, t' ∈ md.tables ∨ (∃ t ∈ md.tables, t.endSnapshot = none ∧
    t' = { t with endSnapshot := some sid }) ∨ (t'.beginSnapshot = sid ∧ t'.endSnapshot = none)
  columns : ∀ t ∈ md.tables, t ∈ md'.tables → t.endSnapshot = none → md'.liveColumns t.tableId = md.liveColumns t.tableId
  wellFormed : md'.WellFormed

/-- DuckLake's metadata and PostgreSQL's catalog. -/
structure State where
  metadata : Metadata
  catalog : Catalog

variable (refuses : Catalog → Ddl → Bool)

/-- A commit takes effect with its trigger, or both are undone. -/
inductive CommitStep (s : State) : State → Prop
  | synced {sid : Nat} {md' : Metadata} {c' : Catalog} (commit : Commit s.metadata sid md')
      (trigger : snapshotTrigger fromString refuses md' sid s.catalog = some c') : CommitStep s ⟨md', c'⟩
  | refused {sid : Nat} {md' : Metadata} (commit : Commit s.metadata sid md')
      (trigger : snapshotTrigger fromString refuses md' sid s.catalog = none) : CommitStep s s

/-- A name that PostgreSQL keeps in full. -/
def Short (s : String) : Prop := truncateIdentifier s = s

/-- The tables that a snapshot begins have names that PostgreSQL keeps in full and does not have yet. -/
def Clear (c : Catalog) (md' : Metadata) (sid : Nat) : Prop :=
  ∀ t ∈ md'.newTables sid, c.lookup t.qualified = none ∧ Short t.schemaName ∧ Short t.tableName ∧
    ∀ col ∈ md'.pgColumns fromString t.tableId, Short col.name

/-- A commit whose begun names are clear. -/
inductive ClearStep (s : State) : State → Prop
  | synced {sid : Nat} {md' : Metadata} {c' : Catalog} (commit : Commit s.metadata sid md')
      (clear : Clear fromString s.catalog md' sid)
      (trigger : snapshotTrigger fromString refuses md' sid s.catalog = some c') : ClearStep s ⟨md', c'⟩
  | refused {sid : Nat} {md' : Metadata} (commit : Commit s.metadata sid md')
      (trigger : snapshotTrigger fromString refuses md' sid s.catalog = none) : ClearStep s s

/-! ## The tables that a commit begins -/

section Begun

variable {fromString refuses} {md md' : Metadata} {sid : Nat} {c c' : Catalog}

theorem mem_newTables {t : NamedTable} : t ∈ md.newTables sid ↔ ∃ row ∈ md.tables, row.beginSnapshot = sid ∧
    ∃ s ∈ md.schemas, s.schemaId = row.schemaId ∧ s.endSnapshot = none ∧
      t = ⟨s.schemaName, row.tableName, row.tableId⟩ := by
  simp only [Metadata.newTables, List.mem_flatMap, List.mem_insertionSort, List.mem_filter, List.mem_map, beq_iff_eq,
    Bool.and_eq_true, Option.isNone_iff_eq_none]
  constructor
  · rintro ⟨row, ⟨hrow, hb⟩, s, ⟨hs, hid, he⟩, rfl⟩
    exact ⟨row, hrow, hb, s, hs, hid, he, rfl⟩
  · rintro ⟨row, hrow, hb, s, hs, hid, he, rfl⟩
    exact ⟨row, ⟨hrow, hb⟩, s, ⟨hs, hid, he⟩, rfl⟩

theorem Commit.live_of_begun (h : Commit md sid md') {row : TableRow} (hrow : row ∈ md'.tables)
    (hb : row.beginSnapshot = sid) : row.endSnapshot = none := by
  rcases h.begun row hrow with hold | ⟨t, ht, -, rfl⟩ | ⟨-, he⟩
  · exact absurd (h.later row hold).1 (by omega)
  · exact absurd (h.later t ht).1 (by rw [hb]; exact Nat.lt_irrefl _)
  · exact he

theorem Commit.newTables_nodup (h : Commit md sid md') : ((md'.newTables sid).map (·.qualified)).Nodup := by
  rw [Metadata.newTables, List.map_flatMap, List.nodup_flatMap]
  have hwf := h.wellFormed
  constructor
  · -- a table has one schema
    intro t _
    rw [List.map_map]
    refine ((hwf.schemaIds.of_map _).filter _).map_on fun s hs s' hs' _ => ?_
    rw [List.mem_filter, Bool.and_eq_true, beq_iff_eq] at hs hs'
    exact List.inj_on_of_nodup_map hwf.schemaIds hs.1 hs'.1 (hs.2.1.trans hs'.2.1.symm)
  · -- two tables of one name would be one table
    have hperm := List.perm_insertionSort (fun a b : TableRow => a.tableId ≤ b.tableId)
      (md'.tables.filter (·.beginSnapshot == sid))
    have hsub : (md'.tables.filter (·.beginSnapshot == sid)).Sublist (md'.tables.filter (·.endSnapshot.isNone)) := by
      have he : md'.tables.filter (·.beginSnapshot == sid) =
          (md'.tables.filter (·.endSnapshot.isNone)).filter (·.beginSnapshot == sid) := by
        rw [List.filter_filter]
        refine List.filter_congr fun t ht => ?_
        cases hb : t.beginSnapshot == sid with
        | false => rfl
        | true => simp [h.live_of_begun ht (by simpa using hb)]
      rw [he]
      exact List.filter_sublist
    have hkeys : (((md'.tables.filter (·.beginSnapshot == sid)).insertionSort fun a b => a.tableId ≤ b.tableId).map
        fun t => (t.schemaId, t.tableName)).Nodup :=
      (hperm.map _).nodup_iff.mpr (hwf.tableNames.sublist (hsub.map _))
    refine (List.pairwise_map.mp hkeys).imp_of_mem fun {t t'} _ _ hne => ?_
    intro q hq hq'
    simp only [List.mem_map, List.mem_filter, Bool.and_eq_true, beq_iff_eq, Option.isNone_iff_eq_none] at hq hq'
    obtain ⟨_, ⟨s, ⟨hs, hid, he⟩, rfl⟩, rfl⟩ := hq
    obtain ⟨_, ⟨s', ⟨hs', hid', he'⟩, rfl⟩, hqq⟩ := hq'
    obtain ⟨hsn, htn⟩ := Prod.mk.inj hqq
    obtain rfl := hwf.schemaNames s' hs' s hs he' he hsn
    exact hne (Prod.ext (hid.symm.trans hid') htn.symm)

theorem Commit.newTables_named (h : Commit md sid md') : ∀ t ∈ md'.newTables sid, t.qualified ≠ ("", "") := by
  intro t ht he
  obtain ⟨row, -, -, s, hs, -, -, rfl⟩ := mem_newTables.mp ht
  exact h.wellFormed.named s hs (Prod.mk.inj he).1

/-! ## What the two handlers do to the mirror -/

theorem ensureSchema_relations {schema : String} (h : ensureSchema refuses c schema = some c') :
    c'.relations = c.relations := by
  unfold ensureSchema at h
  split at h
  · rw [exec_createSchema h, Catalog.createSchema_relations]
  · cases h; rfl

theorem newTable_entry {schema name : String} {columns : List PgColumn} (hs : Short schema) (hn : Short name)
    (hc : ∀ col ∈ columns, Short col.name) :
    (⟨(c.newTable schema name columns).schema, (c.newTable schema name columns).name,
      (c.newTable schema name columns).columns⟩ : Entry) = ⟨schema, name, columns⟩ := by
  have hcols : columns.map (·.truncated) = columns := by
    refine (List.map_congr_left fun col hcol => ?_).trans (List.map_id columns)
    have hname : truncateIdentifier col.name = col.name := hc col hcol
    simp only [PgColumn.truncated, hname, id]
  simp only [Catalog.newTable, hcols]
  rw [hs, hn]

theorem syncNewTable_has {t : NamedTable} (hnone : c.lookup t.qualified = none) (hs : Short t.schemaName)
    (hn : Short t.tableName) (hcols : ∀ col ∈ md.pgColumns fromString t.tableId, Short col.name)
    (h : syncNewTable fromString refuses md c t = some c') :
    (∀ x, c'.Has x ↔ c.Has x ∨ ⟨t.schemaName, t.tableName, md.pgColumns fromString t.tableId⟩ = x) ∧
      ∀ q, q ≠ t.qualified → c.lookup q = none → c'.lookup q = none := by
  rw [syncNewTable, hnone] at h
  obtain ⟨c₁, hschema, hcreate⟩ := Option.bind_eq_some_iff.mp h
  have hrel := ensureSchema_relations hschema
  have hentry := newTable_entry (c := c₁) hs hn hcols
  have hmem : ∀ r, r ∈ c'.relations ↔
      r = c₁.newTable t.schemaName t.tableName (md.pgColumns fromString t.tableId) ∨ r ∈ c.relations := by
    intro r
    rw [mem_exec_create hcreate, hrel]
  refine ⟨fun x => ⟨?_, ?_⟩, fun q hq hnone => ?_⟩
  · rintro ⟨r, hr, hd, rfl⟩
    rcases (hmem r).mp hr with rfl | hr
    · exact Or.inr hentry.symm
    · exact Or.inl ⟨r, hr, hd, rfl⟩
  · rintro (⟨r, hr, hd, rfl⟩ | rfl)
    · exact ⟨r, (hmem r).mpr (Or.inr hr), hd, rfl⟩
    · exact ⟨_, (hmem _).mpr (Or.inl rfl), rfl, hentry⟩
  · refine Catalog.lookup_none.mpr fun r hr hrq => ?_
    rcases (hmem r).mp hr with rfl | hr
    · have hq' : (c₁.newTable t.schemaName t.tableName (md.pgColumns fromString t.tableId)).qualified = t.qualified :=
        Prod.ext hs hn
      exact hq (hrq.symm.trans hq')
    · exact Catalog.lookup_none.mp hnone r hr hrq

/-- **New tables enter the mirror.** -/
theorem newLoop_has {ts : List NamedTable} (hnd : (ts.map (·.qualified)).Nodup)
    (hclear : ∀ t ∈ ts, c.lookup t.qualified = none ∧ Short t.schemaName ∧ Short t.tableName ∧
      ∀ col ∈ md.pgColumns fromString t.tableId, Short col.name)
    (h : ts.foldlM (syncNewTable fromString refuses md) c = some c') (x : Entry) :
    c'.Has x ↔ c.Has x ∨ ∃ t ∈ ts, ⟨t.schemaName, t.tableName, md.pgColumns fromString t.tableId⟩ = x := by
  induction ts generalizing c with
  | nil => cases h; simp
  | cons t ts ih =>
    rw [List.foldlM_cons] at h
    obtain ⟨c₁, h₁, hrest⟩ := Option.bind_eq_some_iff.mp h
    obtain ⟨hnone, hs, hn, hcols⟩ := hclear t (by simp)
    obtain ⟨hhas, hlook⟩ := syncNewTable_has hnone hs hn hcols h₁
    rw [List.map_cons, List.nodup_cons] at hnd
    have hclear₁ : ∀ t' ∈ ts, c₁.lookup t'.qualified = none ∧ Short t'.schemaName ∧ Short t'.tableName ∧
        ∀ col ∈ md.pgColumns fromString t'.tableId, Short col.name := by
      intro t' ht'
      obtain ⟨hnone', hrest'⟩ := hclear t' (by simp [ht'])
      exact ⟨hlook _ (fun he => hnd.1 (he ▸ List.mem_map_of_mem ht')) hnone', hrest'⟩
    rw [ih hnd.2 hclear₁ hrest, hhas]
    simp only [List.mem_cons, exists_eq_or_imp, or_assoc]

theorem syncDroppedTable_has {q : String × String} (hd : ∀ r, c.lookup q = some r → r.isDucklake = true)
    (h : syncDroppedTable refuses c q = some c') (x : Entry) : c'.Has x ↔ c.Has x ∧ x.qualified ≠ q := by
  rcases syncDroppedTable_cases h with ⟨hnone, rfl⟩ | ⟨d, hlook, -, hmem⟩
  · refine ⟨fun hx => ⟨hx, ?_⟩, fun hx => hx.1⟩
    rintro rfl
    obtain ⟨r, hr, -, rfl⟩ := hx
    exact Catalog.lookup_none.mp hnone r hr rfl
  · obtain ⟨hdin, hdq⟩ := Catalog.lookup_some.mp hlook
    have hdl := hd d hlook
    constructor
    · rintro ⟨r, hr, hrd, rfl⟩
      obtain ⟨hin, hne, -⟩ := (hmem r).mp hr
      refine ⟨⟨r, hin, hrd, rfl⟩, fun hq => hne ?_⟩
      rw [List.inj_on_of_nodup_map c.names_unique hin hdin (Eq.trans hq hdq.symm)]
    · rintro ⟨⟨r, hr, hrd, rfl⟩, hne⟩
      refine ⟨r, (hmem r).mpr ⟨hr, fun hoid => hne ?_, fun hpart => ?_⟩, hrd, rfl⟩
      · rw [List.inj_on_of_nodup_map c.oids_unique hr hdin hoid]
        exact hdq
      · exact (c.table_parts d hdin r hr (c.ducklake_table d hdin hdl) hpart).1 (c.ducklake_table r hr hrd)

/-- **Ended tables leave the mirror.** -/
theorem dropLoop_has {qs : List (String × String)} (hd : ∀ q ∈ qs, ∀ r, c.lookup q = some r → r.isDucklake = true)
    (h : qs.foldlM (syncDroppedTable refuses) c = some c') (x : Entry) :
    c'.Has x ↔ c.Has x ∧ x.qualified ∉ qs := by
  induction qs generalizing c with
  | nil => cases h; simp
  | cons q qs ih =>
    rw [List.foldlM_cons] at h
    obtain ⟨c₁, h₁, hrest⟩ := Option.bind_eq_some_iff.mp h
    have hd₁ : ∀ q' ∈ qs, ∀ r, c₁.lookup q' = some r → r.isDucklake = true := by
      intro q' hq' r hr
      obtain ⟨hin, hrq⟩ := Catalog.lookup_some.mp hr
      exact hd q' (by simp [hq']) r (Catalog.lookup_some.mpr ⟨syncDroppedTable_subset h₁ r hin, hrq⟩)
    rw [ih hd₁ hrest, syncDroppedTable_has (hd q (by simp)) h₁, List.mem_cons, not_or, and_assoc]

end Begun

/-! ## The step -/

section Step

variable {fromString refuses} {md md' : Metadata} {sid : Nat} {c c' : Catalog}

theorem Commit.mem_dropped (h : Commit md sid md') {q : String × String} : q ∈ md'.droppedTables sid ↔
    ∃ t ∈ md.tables, t.endSnapshot = none ∧ t ∉ md'.tables ∧ ∃ s ∈ md'.schemas, s.schemaId = t.schemaId ∧
      (s.schemaName, t.tableName) = q := by
  simp only [Metadata.droppedTables, List.mem_flatMap, List.mem_filter, List.mem_map, beq_iff_eq]
  constructor
  · rintro ⟨t', ⟨ht', he⟩, s, ⟨hs, hid⟩, rfl⟩
    rcases h.begun t' ht' with hold | ⟨t, ht, hlive, rfl⟩ | ⟨-, hnone⟩
    · exact absurd ((h.later t' hold).2 sid he) (Nat.lt_irrefl _)
    · exact ⟨t, ht, hlive, fun hin => (h.rows t ht).mp hin ⟨hlive, ht'⟩, s, hs, hid, rfl⟩
    · rw [hnone] at he; cases he
  · rintro ⟨t, ht, hlive, hnot, s, hs, hid, rfl⟩
    have hended : { t with endSnapshot := some sid } ∈ md'.tables := by
      by_contra hno
      exact hnot ((h.rows t ht).mpr fun hx => hno hx.2)
    exact ⟨_, ⟨hended, rfl⟩, s, ⟨hs, hid⟩, rfl⟩

theorem Commit.schema_eq (h : Commit md sid md') (hwf : md.WellFormed) {t : TableRow} (ht : t ∈ md.tables)
    (hlive : t.endSnapshot = none) {s : SchemaRow} (hs : s ∈ md'.schemas) (hid : s.schemaId = t.schemaId) :
    s ∈ md.schemas ∧ s.endSnapshot = none := by
  obtain ⟨s₀, hs₀, hid₀, he₀⟩ := hwf.liveSchema t ht hlive
  have : s = s₀ := List.inj_on_of_nodup_map h.wellFormed.schemaIds hs (h.schemas s₀ hs₀) (hid.trans hid₀.symm)
  exact this ▸ ⟨hs₀, he₀⟩

theorem Commit.entry_eq (h : Commit md sid md') {t : TableRow} (ht : t ∈ md.tables) (ht' : t ∈ md'.tables)
    (hlive : t.endSnapshot = none) (s : SchemaRow) : md'.entry fromString s t = md.entry fromString s t := by
  simp only [Metadata.entry, Metadata.pgColumns, h.columns t ht ht' hlive]

theorem Commit.kept_name (h : Commit md sid md') (hwf : md.WellFormed) {t : TableRow} (ht : t ∈ md.tables)
    (ht' : t ∈ md'.tables) (hlive : t.endSnapshot = none) {s : SchemaRow} (hs : s ∈ md'.schemas)
    (hid : s.schemaId = t.schemaId) : (s.schemaName, t.tableName) ∉ md'.droppedTables sid := by
  intro hdrop
  obtain ⟨u, hu, hulive, hunot, s', hs', hid', hq⟩ := h.mem_dropped.mp hdrop
  obtain ⟨hsn, hun⟩ := Prod.mk.inj hq
  have hes := (h.schema_eq hwf ht hlive hs hid).2
  have hes' := (h.schema_eq hwf hu hulive hs' hid').2
  obtain rfl := h.wellFormed.schemaNames s' hs' s hs hes' hes hsn
  have hut : u = t := by
    refine List.inj_on_of_nodup_map hwf.tableNames ?_ ?_ (Prod.ext (hid'.symm.trans hid) hun)
    · exact List.mem_filter.mpr ⟨hu, by simp [hulive]⟩
    · exact List.mem_filter.mpr ⟨ht, by simp [hlive]⟩
  exact hunot (hut ▸ ht')

/-- **The live tables after a commit**: those that it did not end, and those that it began. -/
theorem Commit.live_iff (h : Commit md sid md') (hwf : md.WellFormed) (x : Entry) : md'.Live fromString x ↔
    (md.Live fromString x ∧ x.qualified ∉ md'.droppedTables sid) ∨
      ∃ t ∈ md'.newTables sid, ⟨t.schemaName, t.tableName, md'.pgColumns fromString t.tableId⟩ = x := by
  constructor
  · rintro ⟨t, ht, hlive, s, hs, hid, he, rfl⟩
    rcases h.begun t ht with hold | ⟨u, -, -, rfl⟩ | ⟨hb, -⟩
    · refine Or.inl ⟨⟨t, hold, hlive, s, (h.schema_eq hwf hold hlive hs hid).1, hid, he, ?_⟩, ?_⟩
      · exact (h.entry_eq hold ht hlive s).symm
      · exact h.kept_name hwf hold ht hlive hs hid
    · cases hlive
    · exact Or.inr ⟨_, mem_newTables.mpr ⟨t, ht, hb, s, hs, hid, he, rfl⟩, rfl⟩
  · rintro (⟨⟨t, ht, hlive, s, hs, hid, he, rfl⟩, hnot⟩ | ⟨_, ht, rfl⟩)
    · have hs' := h.schemas s hs
      have ht' : t ∈ md'.tables := by
        by_contra hno
        exact hnot (h.mem_dropped.mpr ⟨t, ht, hlive, hno, s, hs', hid, rfl⟩)
      exact ⟨t, ht', hlive, s, hs', hid, he, h.entry_eq ht ht' hlive s⟩
    · obtain ⟨row, hrow, hb, s, hs, hid, he, rfl⟩ := mem_newTables.mp ht
      exact ⟨row, hrow, h.live_of_begun hrow hb, s, hs, hid, he, rfl⟩

theorem Mirrored.dropped_ducklake (hm : Mirrored fromString md c) (hwf : md.WellFormed) (h : Commit md sid md')
    {q : String × String} (hq : q ∈ md'.droppedTables sid) : ∃ r ∈ c.relations, r.isDucklake = true ∧ r.qualified = q := by
  obtain ⟨t, ht, hlive, -, s, hs, hid, rfl⟩ := h.mem_dropped.mp hq
  obtain ⟨hs₀, he⟩ := h.schema_eq hwf ht hlive hs hid
  obtain ⟨r, hr, hd, hentry⟩ := (hm (md.entry fromString s t)).mpr ⟨t, ht, hlive, s, hs₀, hid, he, rfl⟩
  exact ⟨r, hr, hd, congrArg Entry.qualified hentry⟩

/-- **A clear commit keeps the mirror.** -/
theorem Mirrored.commit (hm : Mirrored fromString md c) (hwf : md.WellFormed) (h : Commit md sid md')
    (hclear : Clear fromString c md' sid) (htrigger : snapshotTrigger fromString refuses md' sid c = some c') :
    Mirrored fromString md' c' := by
  obtain ⟨c₁, hnew, hdrop⟩ := Option.bind_eq_some_iff.mp htrigger
  have hgrows := syncNewTables_grows hnew
  rw [syncNewTables_eq h.newTables_nodup h.newTables_named] at hnew
  have hducklake : ∀ q ∈ md'.droppedTables sid, ∀ r, c₁.lookup q = some r → r.isDucklake = true := by
    intro q hq r hr
    obtain ⟨d, hd, hdl, hdq⟩ := hm.dropped_ducklake hwf h hq
    rw [Catalog.lookup_some.mpr ⟨hgrows.kept d hd, hdq⟩] at hr
    cases hr
    exact hdl
  intro x
  rw [dropLoop_has hducklake hdrop, newLoop_has h.newTables_nodup hclear hnew, h.live_iff hwf, hm x, or_and_right]
  refine or_congr_right (and_iff_left_of_imp ?_)
  rintro ⟨t, ht, rfl⟩ hq
  obtain ⟨d, hd, -, hdq⟩ := hm.dropped_ducklake hwf h hq
  exact Catalog.lookup_none.mp (hclear t ht).1 d hd hdq

/-- **Clear runs keep the mirror**: PostgreSQL's ducklake tables are DuckLake's live tables in every state reached. -/
theorem clear_mirrored {s s' : State} (hwf : s.metadata.WellFormed) (hm : Mirrored fromString s.metadata s.catalog)
    (hrun : Relation.ReflTransGen (ClearStep fromString refuses) s s') :
    Mirrored fromString s'.metadata s'.catalog := by
  have hinv : s'.metadata.WellFormed ∧ Mirrored fromString s'.metadata s'.catalog := by
    refine run_invariant (P := fun s => s.metadata.WellFormed ∧ Mirrored fromString s.metadata s.catalog) ?_ hrun
      ⟨hwf, hm⟩
    rintro s t ⟨hwf, hm⟩ hstep
    cases hstep with
    | synced hcommit hclear htrigger => exact ⟨hcommit.wellFormed, hm.commit hwf hcommit hclear htrigger⟩
    | refused _ _ => exact ⟨hwf, hm⟩
  exact hinv.2

end Step

/-! ## A replaced table -/

/-- DuckLake's table `public.t` with one column. -/
def liveTable : Metadata where
  schemas := [⟨0, "public", none⟩]
  tables := [⟨1, 0, "t", 1, none⟩]
  columns := [⟨1, 0, "x", "int32", true, none, none⟩]

/-- The same after `CREATE OR REPLACE TABLE` at snapshot 2. -/
def replacedTable : Metadata where
  schemas := [⟨0, "public", none⟩]
  tables := [⟨1, 0, "t", 1, some 2⟩, ⟨2, 0, "t", 2, none⟩]
  columns := [⟨1, 0, "x", "int32", true, none, some 2⟩, ⟨2, 0, "y", "int32", true, none, none⟩]

/-- The same after the table was renamed to `u` at snapshot 2. -/
def renamedTable : Metadata where
  schemas := [⟨0, "public", none⟩]
  tables := [⟨1, 0, "t", 1, some 2⟩, ⟨1, 0, "u", 2, none⟩]
  columns := [⟨1, 0, "x", "int32", true, none, none⟩]

def int32Only (s : String) : Option LogicalType := if s = "int32" then some ⟨.integer, 0, 0⟩ else none

theorem liveTable_wellFormed : liveTable.WellFormed :=
  ⟨by decide, by decide, by decide, by decide, by decide⟩

theorem liveTable_mirrored : Mirrored int32Only liveTable (oneTable .ducklake) := by
  intro x
  constructor
  · rintro ⟨r, hr, -, rfl⟩
    obtain rfl := List.mem_singleton.mp hr
    exact ⟨_, List.mem_singleton.mpr rfl, rfl, _, List.mem_singleton.mpr rfl, rfl, rfl, rfl⟩
  · rintro ⟨t, ht, -, s, hs, -, -, rfl⟩
    obtain rfl := List.mem_singleton.mp ht
    obtain rfl := List.mem_singleton.mp hs
    exact ⟨_, List.mem_singleton.mpr rfl, rfl, rfl⟩

/-- **A replaced table is lost**: from a mirrored state, one commit that replaces the only table leaves PostgreSQL
without it. -/
theorem replaced_lost : Mirrored int32Only liveTable (oneTable .ducklake) ∧
    ∃ c', CommitStep int32Only refusesNone ⟨liveTable, oneTable .ducklake⟩ ⟨replacedTable, c'⟩ ∧
      c'.relations = [] ∧ ¬Mirrored int32Only replacedTable c' := by
  have hcommit : Commit liveTable 2 replacedTable :=
    ⟨by decide, by decide, by decide, by decide, by decide, by decide, by decide, by decide, by decide, by decide⟩
  refine ⟨liveTable_mirrored, _, .synced hcommit rfl, rfl, fun hm => ?_⟩
  have hlive : replacedTable.Live int32Only ⟨"public", "t", [⟨"y", .int4, false⟩]⟩ :=
    ⟨⟨2, 0, "t", 2, none⟩, by decide, rfl, ⟨0, "public", none⟩, by decide, rfl, rfl, by decide⟩
  obtain ⟨r, hr, -⟩ := (hm _).mpr hlive
  cases hr

/-- A renamed table moves along. -/
theorem clear_mirrored_rename :
    ∃ c', Relation.ReflTransGen (ClearStep int32Only refusesNone) ⟨liveTable, oneTable .ducklake⟩ ⟨renamedTable, c'⟩ ∧
      Mirrored int32Only renamedTable c' := by
  have hcommit : Commit liveTable 2 renamedTable :=
    ⟨by decide, by decide, by decide, by decide, by decide, by decide, by decide, by decide, by decide, by decide⟩
  have hclear : Clear int32Only (oneTable .ducklake) renamedTable 2 := by
    unfold Clear Short
    decide
  have hstep : ClearStep int32Only refusesNone ⟨liveTable, oneTable .ducklake⟩ ⟨renamedTable, _⟩ :=
    .synced hcommit hclear rfl
  have hrun := Relation.ReflTransGen.single hstep
  exact ⟨_, hrun, clear_mirrored liveTable_wellFormed liveTable_mirrored hrun⟩

end PgDucklake.Sync
