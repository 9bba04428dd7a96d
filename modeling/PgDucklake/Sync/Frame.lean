import PgDucklake.Sync.Trigger
import PgDucklake.Lib.Runs

/-!
# What the trigger touches

`SyncNewTables` only adds ducklake tables (`syncNewTables_grows`), and after `SyncDroppedTables` no relation has the name
of a table that the snapshot ended, whatever its access method was (`dropped_gone`). So the trigger leaves the relations
of others alone exactly when none of them has such a name (`trigger_leaves_others`); a heap table under the name of a
DuckLake table is lost with that table (`trigger_drops_heap`).
-/

namespace PgDucklake.Sync

variable {fromString : String → Option LogicalType} {refuses : Catalog → Ddl → Bool} {md : Metadata} {sid : Nat}
  {c c' : Catalog}

/-! ## New tables -/

/-- Only ducklake tables were added. -/
structure Grows (c c' : Catalog) : Prop where
  kept : ∀ r ∈ c.relations, r ∈ c'.relations
  added : ∀ r ∈ c'.relations, r ∈ c.relations ∨ (r.isDucklake = true ∧ c.nextOid ≤ r.oid)
  oids : c.nextOid ≤ c'.nextOid

theorem Grows.refl (c : Catalog) : Grows c c := ⟨fun _ h => h, fun _ h => Or.inl h, Nat.le_refl _⟩

theorem Grows.trans {c₁ c₂ c₃ : Catalog} (h : Grows c₁ c₂) (h' : Grows c₂ c₃) : Grows c₁ c₃ where
  kept r hr := h'.kept r (h.kept r hr)
  added r hr := by
    rcases h'.added r hr with hr | ⟨hd, ho⟩
    · exact h.added r hr
    · exact Or.inr ⟨hd, Nat.le_trans h.oids ho⟩
  oids := Nat.le_trans h.oids h'.oids

theorem grows_createSchema {name : String} (h : exec refuses c (.createSchema name) = some c') : Grows c c' := by
  rw [exec_createSchema h]
  refine ⟨fun r hr => ?_, fun r hr => Or.inl ?_, ?_⟩
  · rwa [Catalog.createSchema_relations]
  · rwa [Catalog.createSchema_relations] at hr
  · unfold Catalog.createSchema
    split <;> exact Nat.le_refl _

theorem grows_createTable {schema name : String} {columns : List PgColumn}
    (h : exec refuses c (.createTable schema name columns) = some c') : Grows c c' := by
  refine ⟨fun r hr => (mem_exec_create h).mpr (Or.inr hr), fun r hr => ?_, ?_⟩
  · rcases (mem_exec_create h).mp hr with rfl | hr
    · exact Or.inr ⟨rfl, Nat.le_refl _⟩
    · exact Or.inl hr
  · simp only [exec, Option.ite_none_left_eq_some, Option.ite_none_right_eq_some, Option.dite_none_right_eq_some,
      Option.some.injEq] at h
    obtain ⟨-, -, -, rfl⟩ := h
    exact Nat.le_succ _

theorem SyncLoop.emitDdl_grows {st st' : SyncLoop} (h : st.emitDdl refuses = some st') :
    Grows st.catalog st'.catalog := by
  unfold SyncLoop.emitDdl at h
  split at h
  · split at h
    · cases h; exact Grows.refl _
    · obtain ⟨c, hc, rfl⟩ := Option.map_eq_some_iff.mp h
      exact grows_createTable hc
  · cases h; exact Grows.refl _

theorem SyncLoop.iterate_grows {st st' : SyncLoop} {ci : ColInfo} (h : st.iterate refuses ci = some st') :
    Grows st.catalog st'.catalog := by
  obtain ⟨st₁, hopen, rfl⟩ := Option.map_eq_some_iff.mp h
  have hadd : (st₁.addColumn ci).catalog = st₁.catalog := by
    unfold SyncLoop.addColumn
    split
    · rfl
    · split <;> rfl
  rw [hadd]
  unfold SyncLoop.openTable at hopen
  split at hopen
  · cases hopen; exact Grows.refl _
  obtain ⟨st₂, hemit, hopen⟩ := Option.bind_eq_some_iff.mp hopen
  have hgrows := SyncLoop.emitDdl_grows hemit
  split at hopen
  · cases hopen; exact hgrows
  obtain ⟨c, hc, rfl⟩ := Option.map_eq_some_iff.mp hopen
  unfold ensureSchema at hc
  split at hc
  · exact hgrows.trans (grows_createSchema hc)
  · cases hc; exact hgrows

/-- **`SyncNewTables` only adds ducklake tables.** -/
theorem syncNewTables_grows (h : syncNewTables fromString refuses md sid c = some c') : Grows c c' := by
  obtain ⟨st, hloop, h⟩ := Option.bind_eq_some_iff.mp h
  obtain ⟨st', hemit, h⟩ := Option.bind_eq_some_iff.mp h
  cases h
  have hrun : ∀ (rows : List ColInfo) (st₀ : SyncLoop), rows.foldlM (SyncLoop.iterate refuses) st₀ = some st →
      Grows st₀.catalog st.catalog := by
    intro rows
    induction rows with
    | nil => intro st₀ h; cases h; exact Grows.refl _
    | cons ci rows ih =>
      intro st₀ h
      rw [List.foldlM_cons] at h
      obtain ⟨st₁, h₁, h⟩ := Option.bind_eq_some_iff.mp h
      exact (SyncLoop.iterate_grows h₁).trans (ih st₁ h)
  exact (hrun _ _ hloop).trans (SyncLoop.emitDdl_grows hemit)

/-! ## Dropped tables -/

theorem syncDroppedTable_cases {q : String × String} (h : syncDroppedTable refuses c q = some c') :
    (c.lookup q = none ∧ c' = c) ∨ ∃ r, c.lookup q = some r ∧ (r.kind = .table ∨ r.kind = .partitionedTable) ∧
      ∀ r', r' ∈ c'.relations ↔ r' ∈ c.relations ∧ r'.oid ≠ r.oid ∧ r.oid ∉ r'.partOf := by
  unfold syncDroppedTable at h
  split at h
  next hsome =>
    obtain ⟨r₀, hr₀⟩ := Option.isSome_iff_exists.mp hsome
    obtain ⟨r, hr, hk, hmem⟩ := mem_exec_drop h
    rw [Catalog.lookup_short hr₀] at hr
    exact Or.inr ⟨r, hr, hk, hmem⟩
  next hnone =>
    cases h
    exact Or.inl ⟨by simpa using hnone, rfl⟩

theorem syncDroppedTable_subset {q : String × String} (h : syncDroppedTable refuses c q = some c') :
    ∀ r ∈ c'.relations, r ∈ c.relations := by
  rcases syncDroppedTable_cases h with ⟨-, rfl⟩ | ⟨r, -, -, hmem⟩
  · exact fun _ h => h
  · exact fun r' hr' => ((hmem r').mp hr').1

theorem dropLoop_subset {qs : List (String × String)} (h : qs.foldlM (syncDroppedTable refuses) c = some c') :
    ∀ r ∈ c'.relations, r ∈ c.relations := by
  induction qs generalizing c with
  | nil => cases h; exact fun _ h => h
  | cons q qs ih =>
    rw [List.foldlM_cons] at h
    obtain ⟨c₁, h₁, h⟩ := Option.bind_eq_some_iff.mp h
    exact fun r hr => syncDroppedTable_subset h₁ r (ih h r hr)

/-- **After `SyncDroppedTables` no relation has the name of an ended table.** -/
theorem dropped_gone {qs : List (String × String)} (h : qs.foldlM (syncDroppedTable refuses) c = some c') :
    ∀ q ∈ qs, c'.lookup q = none := by
  induction qs generalizing c with
  | nil => intro q hq; cases hq
  | cons q₀ qs ih =>
    rw [List.foldlM_cons] at h
    obtain ⟨c₁, h₁, hrest⟩ := Option.bind_eq_some_iff.mp h
    intro q hq
    rcases List.mem_cons.mp hq with rfl | hq
    · -- the name is gone after its own iteration and does not come back
      have hgone : c₁.lookup q = none := by
        rcases syncDroppedTable_cases h₁ with ⟨hnone, rfl⟩ | ⟨r, hr, -, hmem⟩
        · exact hnone
        · refine Catalog.lookup_none.mpr fun r' hr' hq' => ?_
          obtain ⟨hin, hne, -⟩ := (hmem r').mp hr'
          rw [Catalog.lookup_some.mpr ⟨hin, hq'⟩] at hr
          cases hr
          exact hne rfl
      exact Catalog.lookup_none.mpr fun r hr => Catalog.lookup_none.mp hgone r (dropLoop_subset hrest r hr)
    · exact ih hrest q hq

/-! ## The relations of others -/

/-- A relation that neither is a ducklake table nor is a part of one. -/
def Others (c : Catalog) (r : Relation) : Prop :=
  r ∈ c.relations ∧ r.isDucklake = false ∧ ∀ d ∈ c.relations, d.isDucklake = true → d.oid ∉ r.partOf

/-- A catalog in which ducklake tables were added and relations dropped. -/
def Within (c c' : Catalog) : Prop :=
  ∀ r ∈ c'.relations, r ∈ c.relations ∨ (r.isDucklake = true ∧ c.nextOid ≤ r.oid)

theorem dropLoop_keeps {c₀ : Catalog} {qs : List (String × String)} (hwithin : Within c₀ c)
    (hclear : ∀ q ∈ qs, ∀ r, c₀.lookup q = some r → ¬Others c₀ r)
    (h : qs.foldlM (syncDroppedTable refuses) c = some c') {r : Relation} (hr : Others c₀ r) (hin : r ∈ c.relations) :
    r ∈ c'.relations := by
  induction qs generalizing c with
  | nil => cases h; exact hin
  | cons q qs ih =>
    rw [List.foldlM_cons] at h
    obtain ⟨c₁, h₁, h⟩ := Option.bind_eq_some_iff.mp h
    have hwithin₁ : Within c₀ c₁ := fun r' hr' => hwithin r' (syncDroppedTable_subset h₁ r' hr')
    refine ih hwithin₁ (fun q' hq' => hclear q' (by simp [hq'])) h ?_
    rcases syncDroppedTable_cases h₁ with ⟨-, rfl⟩ | ⟨d, hd, hkind, hmem⟩
    · exact hin
    obtain ⟨hdin, hdq⟩ := Catalog.lookup_some.mp hd
    refine (hmem r).mpr ⟨hin, fun hoid => ?_, fun hpart => ?_⟩
    · -- the dropped relation would be `r` itself, whose name is one of others
      have : r = d := List.inj_on_of_nodup_map c.oids_unique hin hdin hoid
      subst this
      exact hclear q (by simp) r (Catalog.lookup_some.mpr ⟨hr.1, hdq⟩) hr
    · rcases hwithin d hdin with hd₀ | ⟨-, hnew⟩
      · cases hducklake : d.isDucklake with
        | true => exact hr.2.2 d hd₀ hducklake hpart
        | false =>
          -- a table that is not others' and not ducklake would be a part of a ducklake table
          refine hclear q (by simp) d (Catalog.lookup_some.mpr ⟨hd₀, hdq⟩) ⟨hd₀, hducklake, fun e he hedl hep => ?_⟩
          obtain ⟨hnt, hnp⟩ := c₀.table_parts e he d hd₀ (c₀.ducklake_table e he hedl) hep
          exact hkind.elim hnt hnp
      · exact absurd (c₀.partOf_lt r hr.1 _ hpart) (Nat.not_lt.mpr hnew)

/-- **The trigger leaves the relations of others alone** exactly when none of them has the name of a table that the
snapshot ended. -/
theorem trigger_leaves_others (h : snapshotTrigger fromString refuses md sid c = some c') :
    (∀ r, Others c r → r ∈ c'.relations) ↔
      ∀ q ∈ md.droppedTables sid, ∀ r, c.lookup q = some r → ¬Others c r := by
  obtain ⟨c₁, hnew, hdrop⟩ := Option.bind_eq_some_iff.mp h
  have hgrows := syncNewTables_grows hnew
  constructor
  · intro hkeep q hq r hr hothers
    exact Catalog.lookup_none.mp (dropped_gone hdrop q hq) r (hkeep r hothers) (Catalog.lookup_some.mp hr).2
  · intro hclear r hr
    exact dropLoop_keeps hgrows.added hclear hdrop hr (hgrows.kept r hr.1)

/-! ## A heap table under a DuckLake table's name -/

/-- A catalog with one plain table `public.t`. -/
def oneTable (am : AccessMethod) : Catalog where
  schemas := ["public"]
  relations := [⟨1, "public", "t", .table, some am, [⟨"x", .int4, false⟩], []⟩]
  nextOid := 2
  oid_lt := by cases am <;> decide
  oids_unique := by cases am <;> decide
  names_unique := by cases am <;> decide
  names_short := by cases am <;> decide
  ducklake_table := by cases am <;> decide
  partOf_lt := by cases am <;> decide
  table_parts := by cases am <;> decide

/-- DuckLake's table `public.t`, begun at snapshot 1 and ended at snapshot 2. -/
def endedTable : Metadata where
  schemas := [⟨0, "public", none⟩]
  tables := [⟨1, 0, "t", 1, some 2⟩]
  columns := []

/-- PostgreSQL refuses none of the statements. -/
def refusesNone : Catalog → Ddl → Bool := fun _ _ => false

/-- **A heap table is dropped** when DuckLake's table of the same name ends. -/
theorem trigger_drops_heap :
    ∃ c', snapshotTrigger (fun _ => none) refusesNone endedTable 2 (oneTable .heap) = some c' ∧
      ∃ r, Others (oneTable .heap) r ∧ r ∉ c'.relations := by
  refine ⟨_, rfl, ⟨1, "public", "t", .table, some .heap, [⟨"x", .int4, false⟩], []⟩, ?_, by decide⟩
  exact ⟨by decide, rfl, by decide⟩

/-- A ducklake table of that name and a heap table `public.u`. -/
def besideHeap : Catalog where
  schemas := ["public"]
  relations := (oneTable .ducklake).relations ++ [⟨2, "public", "u", .table, some .heap, [⟨"x", .int4, false⟩], []⟩]
  nextOid := 3
  oid_lt := by decide
  oids_unique := by decide
  names_unique := by decide
  names_short := by decide
  ducklake_table := by decide
  partOf_lt := by decide
  table_parts := by decide

/-- There `public.u` is a relation of others, and it stays. -/
theorem trigger_leaves_others_ducklake :
    ∃ c', snapshotTrigger (fun _ => none) refusesNone endedTable 2 besideHeap = some c' ∧
      (∃ r, Others besideHeap r) ∧ ∀ r, Others besideHeap r → r ∈ c'.relations := by
  have hrun : snapshotTrigger (fun _ => none) refusesNone endedTable 2 besideHeap = some _ := rfl
  refine ⟨_, hrun, ⟨⟨2, "public", "u", .table, some .heap, [⟨"x", .int4, false⟩], []⟩, by decide, rfl, by decide⟩,
    (trigger_leaves_others hrun).mpr fun q hq r hr hothers => ?_⟩
  obtain rfl : ("public", "t") = q := by simpa [eq_comm] using (show q ∈ [("public", "t")] from hq)
  have hlookup : besideHeap.lookup ("public", "t") =
      some ⟨1, "public", "t", .table, some .ducklake, [⟨"x", .int4, false⟩], []⟩ := rfl
  rw [hlookup] at hr
  cases hr
  cases hothers.2.1

end PgDucklake.Sync
