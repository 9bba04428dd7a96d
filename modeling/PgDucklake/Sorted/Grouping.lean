import PgDucklake.Sorted.Operations

/-!
# Sort keys by table

The loop of `SyncSortKeys` over the rows of new sort keys, with the values as the query returns them. The rows come table
by table; a table's columns are collected in `idx_cols` and handed over when the next table begins. `flush` returns early
for a table that PostgreSQL does not have, and then keeps the columns, which end up in front of those of the next table
(`columns_of_absent_table`). The tables get their own columns exactly if no table that PostgreSQL has comes after one that
it does not have (`own_columns_iff`).
-/

namespace PgDucklake.Sorted

/-! ## The rows -/

/-- A row of the query but for the names in it. NULL is `none`. -/
structure KeyRow where
  expression : Option String
  sortDirection : Option String
  nullOrder : Option String
  deriving DecidableEq, Repr

structure SortKeyInfo where
  schemaName : String
  tableName : String
  expression : String
  direction : String
  nullOrder : String
  deriving DecidableEq, Repr

def SortKeyInfo.ofRow (table : QName) (row : KeyRow) : SortKeyInfo where
  schemaName := table.1
  tableName := table.2
  expression := row.expression.getD ""
  direction := row.sortDirection.getD "ASC"
  nullOrder := row.nullOrder.getD ""

/-- What the loop appends for a key. A null order of another spelling is passed over. -/
def SortKeyInfo.column (sk : SortKeyInfo) : String :=
  sk.expression ++ " " ++ sk.direction ++
    if sk.nullOrder = "NULLS_FIRST" then " NULLS FIRST" else if sk.nullOrder = "NULLS_LAST" then " NULLS LAST" else ""

/-- A live table with new sort keys, in the order of `sort_key_index`. -/
structure SortedTable where
  name : QName
  keys : List KeyRow
  keys_ne : keys ≠ []

/-- The result set is ordered by table id. Live tables have distinct names. -/
structure ResultSet where
  tables : List SortedTable
  names_unique : (tables.map SortedTable.name).Nodup

def SortedTable.rows (t : SortedTable) : List SortKeyInfo := t.keys.map (SortKeyInfo.ofRow t.name)

def ResultSet.rows (r : ResultSet) : List SortKeyInfo := r.tables.flatMap SortedTable.rows

/-! ## The loop -/

/-- The lookups of PostgreSQL; a missing object is `none`. -/
structure RelNames (Oid : Type) where
  getNamespaceOid : String → Option Oid
  getRelnameRelid : String → Oid → Option Oid

variable {Oid : Type}

def RelNames.relid (pg : RelNames Oid) (q : QName) : Option Oid := (pg.getNamespaceOid q.1).bind (pg.getRelnameRelid q.2)

/-- `prev_schema`, `prev_table`, `idx_cols` and `sort_creates`. -/
structure KeyLoop (Oid : Type) where
  prev : QName
  idxCols : String
  creates : List (Oid × String)

def KeyLoop.start : KeyLoop Oid := ⟨("", ""), "", []⟩

def KeyLoop.flush (pg : RelNames Oid) (l : KeyLoop Oid) : KeyLoop Oid :=
  if l.idxCols = "" then l
  else
    match pg.getNamespaceOid l.prev.1 with
    | none => l
    | some nsp =>
      match pg.getRelnameRelid l.prev.2 nsp with
      | none => l
      | some relid => { l with idxCols := "", creates := l.creates ++ [(relid, l.idxCols)] }

def KeyLoop.append (l : KeyLoop Oid) (column : String) : KeyLoop Oid :=
  { l with idxCols := (if l.idxCols = "" then "" else l.idxCols ++ ", ") ++ column }

def KeyLoop.next (pg : RelNames Oid) (l : KeyLoop Oid) (sk : SortKeyInfo) : KeyLoop Oid :=
  if sk.schemaName ≠ l.prev.1 ∨ sk.tableName ≠ l.prev.2 then
    { l.flush pg with prev := (sk.schemaName, sk.tableName) }.append sk.column
  else l.append sk.column

/-- `sort_creates` after the loop: relations with the parameters of their new indexes. -/
def groupSortKeys (pg : RelNames Oid) (sortKeys : List SortKeyInfo) : List (Oid × String) :=
  ((sortKeys.foldl (KeyLoop.next pg) .start).flush pg).creates

/-! ## What it is for -/

def SortedTable.columns (t : SortedTable) : List String := t.rows.map SortKeyInfo.column

/-- The columns as index parameters. -/
def columnList (columns : List String) : String := ", ".intercalate columns

/-- For each table that PostgreSQL has, its own columns in their order. -/
def ResultSet.ownCreates (pg : RelNames Oid) (r : ResultSet) : List (Oid × String) :=
  r.tables.filterMap fun t => (pg.relid t.name).map fun relid => (relid, columnList t.columns)

/-- What the loop does instead: the columns of tables that are not found go to the next table that is. -/
def carried (pg : RelNames Oid) : List String → List SortedTable → List (Oid × String)
  | _, [] => []
  | pending, t :: ts =>
    match pg.relid t.name with
    | none => carried pg (pending ++ t.columns) ts
    | some relid => (relid, columnList (pending ++ t.columns)) :: carried pg [] ts

/-! ## Columns as text -/

theorem SortKeyInfo.column_ne (sk : SortKeyInfo) : sk.column ≠ "" := by
  simp [SortKeyInfo.column, String.append_eq_empty_iff]

theorem SortedTable.columns_ne (t : SortedTable) : ∀ c ∈ t.columns, c ≠ "" := by
  intro c hc
  obtain ⟨sk, -, rfl⟩ := List.mem_map.mp hc
  exact sk.column_ne

theorem SortedTable.columns_ne_nil (t : SortedTable) : t.columns ≠ [] := by
  simpa [SortedTable.columns, SortedTable.rows] using t.keys_ne

variable {columns : List String}

theorem columnList_eq_empty (hne : ∀ c ∈ columns, c ≠ "") :
    columnList columns = "" ↔ columns = [] := by
  constructor
  · intro h
    cases columns with
    | nil => rfl
    | cons c cs =>
      have hc : c ≠ "" := hne c (List.mem_cons_self ..)
      cases cs with
      | nil => exact absurd (by simpa [columnList] using h) hc
      | cons c' cs =>
        simp [columnList, String.intercalate_cons_cons, String.append_eq_empty_iff] at h
  · rintro rfl
    rfl

theorem columnList_snoc (hne : ∀ c ∈ columns, c ≠ "") (column : String) :
    (if columnList columns = "" then "" else columnList columns ++ ", ") ++ column = columnList (columns ++ [column]) := by
  by_cases hnil : columns = []
  · subst hnil
    simp [columnList]
  · rw [if_neg (mt (columnList_eq_empty hne).mp hnil)]
    simp only [columnList]
    rw [String.intercalate_append_of_ne_nil hnil (List.cons_ne_nil _ _), String.intercalate_singleton]

theorem snoc_columns_ne (hne : ∀ c ∈ columns, c ≠ "") (sk : SortKeyInfo) :
    ∀ c ∈ columns ++ [sk.column], c ≠ "" := by
  intro c hc
  rcases List.mem_append.mp hc with hold | hnew
  · exact hne c hold
  · exact List.mem_singleton.mp hnew ▸ sk.column_ne

theorem length_columnList_lt {pending : List String} (hpending : pending ≠ []) (hcolumns : columns ≠ []) :
    (columnList columns).length < (columnList (pending ++ columns)).length := by
  simp only [columnList]
  rw [String.intercalate_append_of_ne_nil hpending hcolumns]
  simp only [String.length_append]
  have : ", ".length = 2 := rfl
  omega

/-! ## The rows of one table -/

section Loop

variable {pg : RelNames Oid}

variable {table : QName} {creates : List (Oid × String)}

theorem next_same_table (keys : List KeyRow) (columns : List String) (hne : ∀ c ∈ columns, c ≠ "") :
    (keys.map (SortKeyInfo.ofRow table)).foldl (KeyLoop.next pg) ⟨table, columnList columns, creates⟩ =
      ⟨table, columnList (columns ++ keys.map fun k => (SortKeyInfo.ofRow table k).column), creates⟩ := by
  induction keys generalizing columns with
  | nil => simp
  | cons k keys ih =>
    have hnext : KeyLoop.next pg ⟨table, columnList columns, creates⟩ (SortKeyInfo.ofRow table k) =
        ⟨table, columnList (columns ++ [(SortKeyInfo.ofRow table k).column]), creates⟩ := by
      rw [← columnList_snoc hne]
      simp [KeyLoop.next, KeyLoop.append, SortKeyInfo.ofRow]
    rw [List.map_cons, List.foldl_cons, hnext, ih _ (snoc_columns_ne hne _)]
    simp

variable {l : KeyLoop Oid}

theorem next_new_table {k : KeyRow} (hprev : table = l.prev → l.idxCols = "") :
    KeyLoop.next pg l (SortKeyInfo.ofRow table k) =
      { l.flush pg with prev := table }.append (SortKeyInfo.ofRow table k).column := by
  simp only [KeyLoop.next]
  split
  · rfl
  · rename_i hsame
    have htable : table = l.prev := by
      simp only [SortKeyInfo.ofRow, ne_eq, not_or, not_not] at hsame
      exact Prod.ext hsame.1 hsame.2
    have hflush : l.flush pg = l := if_pos (hprev htable)
    rw [hflush, htable]

variable {pending : List String}

theorem rows_of_table {t : SortedTable} (hprev : t.name = l.prev → l.idxCols = "")
    (hcols : (l.flush pg).idxCols = columnList pending) (hne : ∀ c ∈ pending, c ≠ "") :
    t.rows.foldl (KeyLoop.next pg) l = ⟨t.name, columnList (pending ++ t.columns), (l.flush pg).creates⟩ := by
  obtain ⟨name, keys, hkeys⟩ := t
  cases keys with
  | nil => exact absurd rfl hkeys
  | cons k keys =>
    have hfirst : { l.flush pg with prev := name }.append (SortKeyInfo.ofRow name k).column =
        ⟨name, columnList (pending ++ [(SortKeyInfo.ofRow name k).column]), (l.flush pg).creates⟩ := by
      rw [← columnList_snoc hne, ← hcols]
      rfl
    simp only [SortedTable.rows, List.map_cons, List.foldl_cons]
    rw [next_new_table hprev, hfirst, next_same_table keys _ (snoc_columns_ne hne _)]
    simp [SortedTable.columns, SortedTable.rows, Function.comp_def]

variable {name : QName} {cols : String}

theorem flush_absent (habsent : pg.relid name = none) :
    KeyLoop.flush pg ⟨name, cols, creates⟩ = ⟨name, cols, creates⟩ := by
  simp only [KeyLoop.flush]
  split
  · rfl
  · split
    · rfl
    · rename_i nsp hnsp
      simp only [RelNames.relid, hnsp, Option.bind_some] at habsent
      rw [habsent]

theorem flush_present {relid : Oid} (hpresent : pg.relid name = some relid) (hne : cols ≠ "") :
    KeyLoop.flush pg ⟨name, cols, creates⟩ = ⟨name, "", creates ++ [(relid, cols)]⟩ := by
  obtain ⟨nsp, hnsp, hrel⟩ := Option.bind_eq_some_iff.mp hpresent
  simp only [KeyLoop.flush]
  rw [if_neg hne, hnsp]
  simp only []
  rw [hrel]

/-! ## The whole loop -/

/-- From any point between two tables, with the columns `pending` left over from those before. -/
theorem loop_carried (tables : List SortedTable) (l : KeyLoop Oid) (pending : List String)
    (hcols : (l.flush pg).idxCols = columnList pending) (hne : ∀ c ∈ pending, c ≠ "")
    (hprev : l.prev ∈ tables.map SortedTable.name → l.idxCols = "") (hnd : (tables.map SortedTable.name).Nodup) :
    (((tables.flatMap SortedTable.rows).foldl (KeyLoop.next pg) l).flush pg).creates =
      (l.flush pg).creates ++ carried pg pending tables := by
  induction tables generalizing l pending with
  | nil => simp [carried]
  | cons t ts ih =>
    have hall : ∀ c ∈ pending ++ t.columns, c ≠ "" := by
      intro c hc
      exact (List.mem_append.mp hc).elim (hne c) (t.columns_ne c)
    have hlong : columnList (pending ++ t.columns) ≠ "" := by
      rw [ne_eq, columnList_eq_empty hall, List.append_eq_nil_iff]
      exact fun h => t.columns_ne_nil h.2
    obtain ⟨hnew, hnd'⟩ := List.nodup_cons.mp hnd
    have hrows := rows_of_table (fun h => hprev (h ▸ List.mem_cons_self ..)) hcols hne
    rw [List.flatMap_cons, List.foldl_append, hrows]
    -- Whether the columns of `t` are handed over is settled by the next flush.
    cases hrel : pg.relid t.name with
    | none =>
      rw [ih _ (pending ++ t.columns) (by rw [flush_absent hrel]) hall (fun h => absurd h hnew) hnd', flush_absent hrel]
      simp [carried, hrel]
    | some relid =>
      rw [ih _ [] (by rw [flush_present hrel hlong]; rfl) (by simp) (fun h => absurd h hnew) hnd',
        flush_present hrel hlong]
      simp [carried, hrel]

theorem groupSortKeys_eq_carried (r : ResultSet) : groupSortKeys pg r.rows = carried pg [] r.tables := by
  have h := @loop_carried Oid pg r.tables .start [] rfl (by simp) (fun _ => rfl) r.names_unique
  have hstart : (KeyLoop.start.flush pg).creates = [] := rfl
  rw [hstart, List.nil_append] at h
  exact h

theorem carried_ne (hpending : pending ≠ []) (tables : List SortedTable)
    (h : carried pg pending tables = tables.filterMap fun t => (pg.relid t.name).map fun r => (r, columnList t.columns)) :
    ∀ t ∈ tables, pg.relid t.name = none := by
  induction tables generalizing pending with
  | nil => simp
  | cons t ts ih =>
    cases hrel : pg.relid t.name with
    | none =>
      simp only [carried, hrel, List.filterMap_cons, Option.map_none] at h
      have hmore : pending ++ t.columns ≠ [] := by simp [hpending]
      intro t' ht'
      rcases List.mem_cons.mp ht' with rfl | htail
      · exact hrel
      · exact ih hmore h t' htail
    | some relid =>
      simp only [carried, hrel, List.filterMap_cons, Option.map_some, List.cons.injEq, Prod.mk.injEq, true_and] at h
      have hlt := length_columnList_lt hpending t.columns_ne_nil
      rw [h.1] at hlt
      exact absurd hlt (Nat.lt_irrefl _)

theorem carried_absent (pending : List String) (tables : List SortedTable)
    (h : ∀ t ∈ tables, pg.relid t.name = none) : carried pg pending tables = [] := by
  induction tables generalizing pending with
  | nil => rfl
  | cons t ts ih =>
    simp only [carried, h t (List.mem_cons_self ..)]
    exact ih _ fun t' ht' => h t' (List.mem_cons_of_mem _ ht')

theorem carried_own_iff (tables : List SortedTable) :
    (carried pg [] tables = tables.filterMap fun t => (pg.relid t.name).map fun r => (r, columnList t.columns)) ↔
      tables.Pairwise fun before after => (pg.relid after.name).isSome → (pg.relid before.name).isSome := by
  induction tables with
  | nil => simp [carried]
  | cons t ts ih =>
    rw [List.pairwise_cons]
    cases hrel : pg.relid t.name with
    | some relid =>
      simp only [carried, hrel, List.filterMap_cons, Option.map_some, List.nil_append, List.cons.injEq, true_and]
      simpa using ih
    | none =>
      simp only [carried, hrel, List.filterMap_cons, Option.map_none, List.nil_append, Option.isSome_none]
      constructor
      · intro h
        have habsent := carried_ne t.columns_ne_nil ts h
        refine ⟨fun t' ht' => by simp [habsent t' ht'], ?_⟩
        refine List.pairwise_of_forall_mem_list fun a ha b hb => ?_
        simp [habsent b hb]
      · rintro ⟨hall, -⟩
        have habsent : ∀ t' ∈ ts, pg.relid t'.name = none := by
          intro t' ht'
          simpa using hall t' ht'
        rw [carried_absent _ ts habsent, eq_comm, List.filterMap_eq_nil_iff]
        intro t' ht'
        simp [habsent t' ht']

end Loop

/-- Every table that PostgreSQL has gets its own sort keys, in their order and nothing else, exactly if no table that it
has comes after one that it does not have. -/
theorem own_columns_iff (pg : RelNames Oid) (r : ResultSet) :
    groupSortKeys pg r.rows = r.ownCreates pg ↔
      r.tables.Pairwise fun before after => (pg.relid after.name).isSome → (pg.relid before.name).isSome := by
  rw [groupSortKeys_eq_carried]
  exact carried_own_iff r.tables

/-! ## Typed keys

`sortCreates` runs the same loop over keys whose direction and null order are read already. -/

/-- The lookups in the catalog of names; a relation stands for its oid. -/
def Database.relNames (db : Database) : RelNames QName where
  getNamespaceOid schema := some (schema, "")
  getRelnameRelid table nsp := if (nsp.1, table) ∈ db.names then some (nsp.1, table) else none

def SortKey.toRow (k : SortKey) : KeyRow where
  expression := some k.expression
  sortDirection := some (match k.direction with
    | .asc => "ASC"
    | .desc => "DESC")
  nullOrder := some (match k.nulls with
    | .first => "NULLS_FIRST"
    | .last => "NULLS_LAST")

def Grouping.toLoop (group : Grouping) : KeyLoop QName := ⟨group.prev, group.idxCols, group.creates⟩

theorem SortKey.column_toRow (table : QName) (k : SortKey) : (SortKeyInfo.ofRow table k.toRow).column = k.text := by
  obtain ⟨expression, direction, nulls⟩ := k
  cases direction <;> cases nulls <;>
    simp [SortKeyInfo.column, SortKeyInfo.ofRow, SortKey.toRow, SortKey.text, Direction.text, NullOrder.text,
      String.append_assoc]

theorem Grouping.toLoop_flush (db : Database) (group : Grouping) :
    (group.flush db).toLoop = group.toLoop.flush db.relNames := by
  simp only [Grouping.flush, KeyLoop.flush, Grouping.toLoop, Database.relNames]
  by_cases hempty : group.idxCols = ""
  · simp [hempty]
  · by_cases hname : group.prev ∈ db.names
    · simp [hempty, hname]
    · simp [hempty, hname]

theorem Grouping.toLoop_row (db : Database) (group : Grouping) (row : QName × SortKey) :
    (group.row db row).toLoop = group.toLoop.next db.relNames (SortKeyInfo.ofRow row.1 row.2.toRow) := by
  obtain ⟨table, k⟩ := row
  simp only [Grouping.row, KeyLoop.next, SortKey.column_toRow]
  by_cases htable : table = group.prev
  · rw [if_pos htable, if_neg (by simp [SortKeyInfo.ofRow, Grouping.toLoop, htable])]
    rfl
  · have hnew : (SortKeyInfo.ofRow table k.toRow).schemaName ≠ group.toLoop.prev.1 ∨
        (SortKeyInfo.ofRow table k.toRow).tableName ≠ group.toLoop.prev.2 := by
      by_contra hsame
      simp only [ne_eq, not_or, not_not] at hsame
      exact htable (Prod.ext hsame.1 hsame.2)
    rw [if_neg htable, if_pos hnew, ← Grouping.toLoop_flush]
    rfl

theorem sortCreates_eq_groupSortKeys (db : Database) (snapshot : Snapshot) :
    sortCreates db snapshot =
      groupSortKeys db.relNames (snapshot.rows.map fun row => SortKeyInfo.ofRow row.1 row.2.toRow) := by
  have hfold : ∀ (rows : List (QName × SortKey)) (group : Grouping),
      (rows.foldl (Grouping.row db) group).toLoop =
        (rows.map fun row => SortKeyInfo.ofRow row.1 row.2.toRow).foldl (KeyLoop.next db.relNames) group.toLoop := by
    intro rows
    induction rows with
    | nil => exact fun _ => rfl
    | cons row rows ih =>
      intro group
      rw [List.map_cons, List.foldl_cons, List.foldl_cons, ih, Grouping.toLoop_row]
  have hflush := congrArg KeyLoop.creates
    (Grouping.toLoop_flush db (snapshot.rows.foldl (Grouping.row db) ⟨("", ""), "", []⟩))
  rw [hfold] at hflush
  exact hflush

/-- Only the table `public.t` is there. -/
def onlyT : RelNames Nat where
  getNamespaceOid schema := if schema = "public" then some 1 else none
  getRelnameRelid table nsp := if nsp = 1 ∧ table = "t" then some 7 else none

def goneThenT : ResultSet where
  tables :=
    [⟨("public", "gone"), [⟨some "a", some "DESC", some "NULLS_LAST"⟩], by simp⟩,
      ⟨("public", "t"), [⟨some "b", none, none⟩], by simp⟩]
  names_unique := by decide

/-- The index of `t` gets the key of the table before, which PostgreSQL does not have. -/
theorem columns_of_absent_table :
    groupSortKeys onlyT goneThenT.rows = [(7, "a DESC NULLS LAST, b ASC")] ∧
      goneThenT.ownCreates onlyT = [(7, "b ASC")] := by
  constructor
  · rfl
  · rfl

end PgDucklake.Sorted
