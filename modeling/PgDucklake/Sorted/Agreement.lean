import PgDucklake.Sorted.Operations

/-!
# Indexes and sort specifications agree

A table agrees if it has no sorted index and no sort specification, or one index and a specification with the same keys
(`AgreesOn`). `Careful` is what a command needs to keep all tables so. Here are the statements that a sync generates, the
texts that it makes of the rows of a snapshot, and the two index statements (`agree_createIndex`, `agree_dropIndex`).
-/

namespace PgDucklake.Sorted

variable (env : Env)

/-- The index of the table, if any, is its sort specification, if any. -/
def AgreesOn (db : Database) (table : QName) : Prop :=
  match db.specs table with
  | none => db.sortedOn table = []
  | some keys => ∃ i, db.sortedOn table = [i] ∧ List.Forall₂ (SameKey env.toGrammars) keys i.elems

def Agree (db : Database) : Prop := ∀ table ∈ db.tables, AgreesOn env db table

/-! ## The condition -/

/-- Where both parsers accept the text, they read the same keys, and no null placement is left to their defaults that
differ. -/
def ReadAlike (text : String) : Prop :=
  ∀ items params, env.duckdb text = some items → env.postgres text = some params →
    List.Forall₂ (SameRead env.toGrammars) items params ∧ ∀ e ∈ params, e.Placed

/-- The bare names of the table's indexes stand for these indexes or for nothing. -/
def Findable (db : Database) (path : List String) (table : QName) : Prop :=
  ∀ i ∈ db.sortedOn table, ∀ q, db.rangeVarGetRelid path i.name = some q → q = i.qualified

/-- What a command needs, in the state in which it completes, to keep the tables in agreement. -/
def Careful (s : State) (session : Nat) : Command → Prop
  | .createIndex stmt =>
    s.syncing session = false ∧ s.db.sortedOn stmt.relation = [] ∧
      (stmt.ifNotExists = true → (stmt.relation.1, stmt.idxname.getD (env.choose s.db stmt)) ∉ s.db.names) ∧
      (∀ text items, sortSpec stmt.params = some text → env.duckdb text = some items →
        List.Forall₂ (SameRead env.toGrammars) items stmt.params) ∧
      ∀ e ∈ stmt.params, e.Placed
  | .dropIndex _ _ _ => s.syncing session = false
  | .setSort path table sortedBy =>
    Findable s.db path table ∧ ∀ keys, sortedBy.mapM id = some keys → ReadAlike env (", ".intercalate keys)
  | .resetSort path table => Findable s.db path table
  | .external snapshot =>
    ∀ c ∈ snapshot.changes,
      c.1.1 ∉ triggerPath ∧ (∀ i ∈ s.db.sortedOn c.1, s.db.rangeVarGetRelid triggerPath i.name = none) ∧
      ∀ keys, c.2 = some keys → c.1 ∈ s.db.names ∧
        ∀ params, env.postgres (keysText keys) = some params →
          List.Forall₂ (SameKey env.toGrammars) keys params

variable {env}

/-! ## What the statements of a sync do -/

section Statements

variable {db db' : Database} {path : List String} {table : QName}

/-- A catalog that differs from another in the indexes of one table at most. -/
structure SameBut (table : QName) (db db' : Database) : Prop where
  tables : db'.tables = db.tables
  specs : db'.specs = db.specs
  sortedOn : ∀ t, t ≠ table → db'.sortedOn t = db.sortedOn t

theorem SameBut.refl (table : QName) (db : Database) : SameBut table db db := ⟨rfl, rfl, fun _ _ => rfl⟩

theorem SameBut.trans {db₁ db₂ db₃ : Database} (h₁ : SameBut table db₁ db₂) (h₂ : SameBut table db₂ db₃) :
    SameBut table db₁ db₃ :=
  ⟨h₂.tables.trans h₁.tables, h₂.specs.trans h₁.specs, fun t ht => (h₂.sortedOn t ht).trans (h₁.sortedOn t ht)⟩

/-- `DROP INDEX` of a sync drops what the bare name stands for. -/
theorem dropIndex_bare {name : String} (h : dropIndex true db path false [⟨none, name⟩] = some db') :
    ∃ q, db.rangeVarGetRelid path name = some q ∧ db' = db.removeIndexes [q] := by
  cases hq : db.rangeVarGetRelid path name with
  | none => simp [dropIndex, RangeVar.resolve, hq] at h
  | some q =>
    simp only [dropIndex, RangeVar.resolve, hq, List.filterMap_cons, List.filterMap_nil, handleDropSortedIndex] at h
    simp only [Bool.not_false, List.length_cons, List.length_nil, Bool.true_and, bne_self_eq_false, Bool.false_eq_true,
      if_false, if_true, Option.ite_none_left_eq_some, Option.some.injEq] at h
    exact ⟨q, rfl, h.2.symm⟩

theorem removeIndexes_own {i : Index} (hi : i ∈ db.sortedOn table) :
    SameBut table db (db.removeIndexes [i.qualified]) := by
  obtain ⟨hmem, -, htable⟩ := mem_sortedOn.mp hi
  refine ⟨rfl, rfl, fun t ht => ?_⟩
  rw [sortedOn_removeIndexes]
  refine List.filter_eq_self.mpr fun j hj => ?_
  obtain ⟨hindex, -, rfl⟩ := mem_sortedOn.mp hj
  simp only [List.mem_singleton, decide_not, Bool.not_eq_true', decide_eq_false_iff_not]
  intro hname
  exact ht (index_unique hindex hmem hname ▸ htable)

theorem dropIndexes_single (h : dropIndexes db path table = some db') (hone : (db.sortedOn table).length ≤ 1)
    (hfind : Findable db path table) : SameBut table db db' ∧ db'.sortedOn table = [] := by
  cases hs : db.sortedOn table with
  | nil =>
    simp only [dropIndexes, hs, List.foldlM_nil, Option.pure_def, Option.some.injEq] at h
    subst h
    exact ⟨.refl table db, hs⟩
  | cons i rest =>
    have hrest : rest = [] := by
      rw [hs, List.length_cons] at hone
      exact List.length_eq_zero_iff.mp (by omega)
    subst hrest
    have hi : i ∈ db.sortedOn table := hs ▸ List.mem_singleton_self i
    simp only [dropIndexes, hs, List.foldlM_cons, List.foldlM_nil, Option.bind_eq_bind, Option.pure_def] at h
    obtain ⟨db₁, h₁, hdone⟩ := Option.bind_eq_some_iff.mp h
    obtain rfl := Option.some.inj hdone
    obtain ⟨q, hq, rfl⟩ := dropIndex_bare h₁
    obtain rfl := hfind i hi q hq
    refine ⟨removeIndexes_own hi, ?_⟩
    rw [sortedOn_removeIndexes, hs]
    simp

theorem dropIndexes_unfound (hnone : ∀ i ∈ db.sortedOn table, db.rangeVarGetRelid path i.name = none)
    (h : dropIndexes db path table = some db') : db' = db ∧ db.sortedOn table = [] := by
  cases hs : db.sortedOn table with
  | nil =>
    simp only [dropIndexes, hs, List.foldlM_nil, Option.pure_def, Option.some.injEq] at h
    exact ⟨h.symm, rfl⟩
  | cons i rest =>
    simp only [dropIndexes, hs, List.foldlM_cons, Option.bind_eq_bind] at h
    obtain ⟨db₁, h₁, -⟩ := Option.bind_eq_some_iff.mp h
    obtain ⟨q, hq, -⟩ := dropIndex_bare h₁
    rw [hnone i (hs ▸ List.mem_cons_self ..)] at hq
    cases hq

/-- `CREATE INDEX` of a sync adds one index and leaves DuckDB alone. -/
theorem createIndex_sync {params : List IndexElem}
    (h : createIndex env true db (indexStmtFor table params) = some db') :
    ∃ i hnew, db' = db.addIndex i hnew ∧ i.table = table ∧ i.sorted = true ∧ i.elems = params := by
  obtain ⟨query, -, h⟩ := Option.bind_eq_some_iff.mp h
  obtain ⟨db₁, hdefine, happly⟩ := Option.bind_eq_some_iff.mp h
  obtain rfl : db₁ = db' := by simpa [applyCreateSortedIndex] using happly
  rcases defineIndex_eq hdefine with ⟨-, hif, -⟩ | hadd
  · cases hif
  · exact hadd

theorem addIndex_own {i : Index} {hnew : i.qualified ∉ db.names} (hsorted : i.sorted = true) :
    SameBut i.table db (db.addIndex i hnew) := by
  refine ⟨rfl, rfl, fun t ht => ?_⟩
  rw [sortedOn_addIndex hsorted, if_neg (Ne.symm ht), List.append_nil]

end Statements

/-! ## The text of an external snapshot -/

section Rows

variable {db : Database}

theorem SortKey.text_ne (k : SortKey) : k.text ≠ "" := by
  cases hd : k.direction <;> simp [SortKey.text, hd, Direction.text, String.append_eq_empty_iff]

theorem rows_same_table {table : QName} {creates : List (QName × String)} : ∀ (keys : List SortKey) (cols : String),
    cols ≠ "" →
      (keys.map fun k => (table, k)).foldl (Grouping.row db) ⟨table, cols, creates⟩ =
        ⟨table, ", ".intercalate (cols :: keys.map SortKey.text), creates⟩
  | [], cols, _ => by simp
  | k :: keys, cols, hne => by
    have hrow : Grouping.row db ⟨table, cols, creates⟩ (table, k) = ⟨table, cols ++ ", " ++ k.text, creates⟩ := by
      simp [Grouping.row, Grouping.append, hne]
    have hne' : cols ++ ", " ++ k.text ≠ "" := by simp [String.append_eq_empty_iff, k.text_ne]
    rw [List.map_cons, List.foldl_cons, hrow, rows_same_table keys _ hne']
    cases keys with
    | nil => simp
    | cons k' keys => simp [String.intercalate_cons_cons, String.append_assoc]

theorem rows_next_table {table : QName} {group : Grouping} {keys : List SortKey} (hkeys : keys ≠ [])
    (hprev : table = group.prev → group.idxCols = "") (hflush : (group.flush db).idxCols = "") :
    (keys.map fun k => (table, k)).foldl (Grouping.row db) group = ⟨table, keysText keys, (group.flush db).creates⟩ := by
  cases keys with
  | nil => exact absurd rfl hkeys
  | cons k keys =>
    have hrow : Grouping.row db group (table, k) = ⟨table, k.text, (group.flush db).creates⟩ := by
      by_cases htable : table = group.prev
      · obtain ⟨prev, cols, creates⟩ := group
        obtain rfl : cols = "" := hprev htable
        simp [Grouping.row, Grouping.append, Grouping.flush, htable]
      · simp [Grouping.row, Grouping.append, htable, hflush]
    rw [List.map_cons, List.foldl_cons, hrow, rows_same_table keys _ k.text_ne]
    rfl

/-- The index parameters for the tables with new keys. -/
def createsOf (changes : List (QName × Option (List SortKey))) : List (QName × String) :=
  changes.filterMap fun c => c.2.map fun keys => (c.1, keysText keys)

theorem keysText_ne {keys : List SortKey} (hkeys : keys ≠ []) : keysText keys ≠ "" := by
  cases keys with
  | nil => exact absurd rfl hkeys
  | cons k keys =>
    cases keys with
    | nil => simpa [keysText] using k.text_ne
    | cons k' keys => simp [keysText, String.intercalate_cons_cons, String.append_eq_empty_iff]

theorem flush_creates {group : Grouping} (hempty : group.idxCols = "" ∨ group.prev ∈ db.names) :
    (group.flush db).idxCols = "" := by
  simp only [Grouping.flush]
  split
  · assumption
  · rename_i hne
    simp [hempty.resolve_left hne]

theorem rows_creates : ∀ (changes : List (QName × Option (List SortKey))) (group : Grouping),
    (changes.map Prod.fst).Nodup → (group.prev ∈ changes.map Prod.fst → group.idxCols = "") →
      (∀ c ∈ changes, c.2 ≠ some []) → (∀ c ∈ changes, ∀ keys, c.2 = some keys → c.1 ∈ db.names) →
      (group.idxCols = "" ∨ group.prev ∈ db.names) →
      (((changes.flatMap fun c => (c.2.getD []).map fun k => (c.1, k)).foldl (Grouping.row db) group).flush db).creates =
        (group.flush db).creates ++ createsOf changes
  | [], group, _, _, _, _, _ => by simp [createsOf]
  | (table, none) :: changes, group, hnd, hprev, hne, hmem, hempty => by
    have ih := rows_creates changes group (List.nodup_cons.mp hnd).2 (fun h => hprev (List.mem_cons_of_mem _ h))
      (fun c hc => hne c (List.mem_cons_of_mem _ hc)) (fun c hc => hmem c (List.mem_cons_of_mem _ hc)) hempty
    simpa [createsOf] using ih
  | (table, some keys) :: changes, group, hnd, hprev, hne, hmem, hempty => by
    have hkeys : keys ≠ [] := fun h => hne _ (List.mem_cons_self ..) (congrArg some h)
    have hname : table ∈ db.names := hmem _ (List.mem_cons_self ..) keys rfl
    have hnext : table = group.prev → group.idxCols = "" := fun h => hprev (h ▸ List.mem_cons_self ..)
    have ih := rows_creates changes ⟨table, keysText keys, (group.flush db).creates⟩ (List.nodup_cons.mp hnd).2
      (fun h => absurd h (List.nodup_cons.mp hnd).1) (fun c hc => hne c (List.mem_cons_of_mem _ hc))
      (fun c hc => hmem c (List.mem_cons_of_mem _ hc)) (.inr hname)
    rw [List.flatMap_cons, List.foldl_append]
    simp only [Option.getD_some]
    rw [rows_next_table hkeys hnext (flush_creates hempty), ih]
    simp [Grouping.flush, keysText_ne hkeys, hname, createsOf]

theorem sortCreates_eq {snapshot : Snapshot}
    (hmem : ∀ c ∈ snapshot.changes, ∀ keys, c.2 = some keys → c.1 ∈ db.names) :
    sortCreates db snapshot = createsOf snapshot.changes :=
  rows_creates snapshot.changes ⟨("", ""), "", []⟩ snapshot.tables_unique (fun _ => rfl) snapshot.keys_ne hmem (.inl rfl)

end Rows

/-! ## Index statements keep the agreement -/

section Commands

variable {db db' : Database} {path : List String} {table : QName}

theorem AgreesOn.congr (h : AgreesOn env db table) (hspecs : db'.specs table = db.specs table)
    (hsorted : db'.sortedOn table = db.sortedOn table) : AgreesOn env db' table := by
  simp only [AgreesOn, hspecs, hsorted]
  exact h

theorem AgreesOn.length_le (h : AgreesOn env db table) : (db.sortedOn table).length ≤ 1 := by
  simp only [AgreesOn] at h
  split at h
  · simp [h]
  · obtain ⟨i, hi, -⟩ := h
    simp [hi]

theorem agreesOn_none (hspec : db.specs table = none) (hsorted : db.sortedOn table = []) : AgreesOn env db table := by
  simp only [AgreesOn, hspec]
  exact hsorted

theorem agreesOn_some {keys : List SortKey} {i : Index} (hspec : db.specs table = some keys)
    (hsorted : db.sortedOn table = [i]) (hkeys : List.Forall₂ (SameKey env.toGrammars) keys i.elems) :
    AgreesOn env db table := by
  simp only [AgreesOn, hspec]
  exact ⟨i, hsorted, hkeys⟩

theorem agree_createIndex {s : State} {session : Nat} {stmt : IndexStmt} (h : Agree env s.db)
    (hcare : Careful env s session (.createIndex stmt))
    (hexec : createIndex env (s.syncing session) s.db stmt = some db') : Agree env db' := by
  obtain ⟨hflag, hnone, hif, hread, hplaced⟩ := hcare
  obtain ⟨query, hquery, hexec⟩ := Option.bind_eq_some_iff.mp hexec
  obtain ⟨db₁, hdefine, happly⟩ := Option.bind_eq_some_iff.mp hexec
  have hspec : sortSpec stmt.params = some query := by
    simp only [getCreateSortedIndexDef, Option.ite_none_left_eq_some] at hquery
    exact hquery.2.2
  simp only [applyCreateSortedIndex, hflag, Bool.false_eq_true, if_false] at happly
  obtain ⟨items, hitems, rfl⟩ := Option.map_eq_some_iff.mp happly
  rcases defineIndex_eq hdefine with ⟨-, hskip, hmem⟩ | ⟨i, hnew, rfl, htable, hsorted, helems⟩
  · exact absurd hmem (hif hskip)
  · intro t ht
    by_cases heq : t = stmt.relation
    · subst heq
      refine agreesOn_some (i := i) (if_pos rfl) ?_ ?_
      · rw [sortedOn_setSpec, sortedOn_addIndex hsorted, hnone, if_pos htable, List.nil_append]
      · rw [helems]
        exact sameKeys_of_sameReads (hread query items hspec hitems) hplaced
    · refine (h t ht).congr (if_neg heq) ?_
      rw [sortedOn_setSpec, sortedOn_addIndex hsorted, htable, if_neg (Ne.symm heq), List.append_nil]

theorem resetSpecs (drops : List QName) (db : Database) (t : QName) :
    (drops.foldl (fun db table => db.setSpec table none) db).specs t = (if t ∈ drops then none else db.specs t) ∧
      (drops.foldl (fun db table => db.setSpec table none) db).sortedOn t = db.sortedOn t ∧
      (drops.foldl (fun db table => db.setSpec table none) db).tables = db.tables := by
  induction drops generalizing db with
  | nil => simp
  | cons table drops ih =>
    obtain ⟨hspecs, hsorted, htables⟩ := ih (db.setSpec table none)
    refine ⟨?_, hsorted, htables⟩
    rw [List.foldl_cons, hspecs]
    by_cases hmem : t ∈ drops
    · simp [hmem]
    · simp [hmem, Database.setSpec]

theorem mem_findSortedIndexDrops {dropped : List QName} :
    table ∈ findSortedIndexDrops db dropped ↔ ∃ i ∈ db.sortedOn table, i.qualified ∈ dropped := by
  simp only [findSortedIndexDrops, List.mem_filterMap, Option.map_eq_some_iff]
  constructor
  · rintro ⟨q, hq, i, hfind, rfl⟩
    have hi : (i.qualified == q && i.sorted) = true := by simpa using List.find?_some hfind
    simp only [Bool.and_eq_true, beq_iff_eq] at hi
    exact ⟨i, mem_sortedOn.mpr ⟨List.mem_of_find?_eq_some hfind, hi.2, rfl⟩, hi.1 ▸ hq⟩
  · rintro ⟨i, hi, hq⟩
    obtain ⟨hmem, hsorted, htable⟩ := mem_sortedOn.mp hi
    have hsome : (db.indexes.find? fun j => j.qualified == i.qualified && j.sorted).isSome :=
      List.find?_isSome.mpr ⟨i, hmem, by simp [hsorted]⟩
    obtain ⟨j, hj⟩ := Option.isSome_iff_exists.mp hsome
    have hname : (j.qualified == i.qualified && j.sorted) = true := by simpa using List.find?_some hj
    simp only [Bool.and_eq_true, beq_iff_eq] at hname
    have hij : j = i := index_unique (List.mem_of_find?_eq_some hj) hmem hname.1
    exact ⟨i.qualified, hq, j, hj, hij ▸ htable⟩

theorem agree_dropIndex {s : State} {session : Nat} {missingOk : Bool} {objects : List RangeVar} (h : Agree env s.db)
    (hcare : Careful env s session (.dropIndex path missingOk objects))
    (hexec : dropIndex (s.syncing session) s.db path missingOk objects = some db') : Agree env db' := by
  have hflag : s.syncing session = false := hcare
  simp only [dropIndex, Option.ite_none_left_eq_some, handleDropSortedIndex, hflag, Bool.false_eq_true, if_false,
    Option.some.injEq] at hexec
  obtain ⟨-, -, rfl⟩ := hexec
  generalize (objects.filterMap fun rv => rv.resolve s.db path) = found
  intro t ht
  obtain ⟨hspecs, hsorted, htables⟩ := resetSpecs (findSortedIndexDrops s.db found) (s.db.removeIndexes found) t
  rw [sortedOn_removeIndexes] at hsorted
  rw [htables] at ht
  have hagree := h t ht
  cases hspec : s.db.specs t with
  | none =>
    have hnone : s.db.sortedOn t = [] := by simpa [AgreesOn, hspec] using hagree
    refine agreesOn_none ?_ ?_
    · rw [hspecs]
      simp [Database.removeIndexes, hspec]
    · rw [hsorted, hnone, List.filter_nil]
  | some keys =>
    obtain ⟨i, hone, hkeys⟩ : ∃ i, s.db.sortedOn t = [i] ∧ List.Forall₂ (SameKey env.toGrammars) keys i.elems := by
      simpa [AgreesOn, hspec] using hagree
    have hdrop : t ∈ findSortedIndexDrops s.db found ↔ i.qualified ∈ found := by
      rw [mem_findSortedIndexDrops, hone]
      simp
    by_cases hmem : i.qualified ∈ found
    · refine agreesOn_none ?_ ?_
      · rw [hspecs, if_pos (hdrop.mpr hmem)]
      · rw [hsorted, hone]
        simp [hmem]
    · refine agreesOn_some (i := i) ?_ ?_ hkeys
      · rw [hspecs, if_neg (fun hd => hmem (hdrop.mp hd))]
        exact hspec
      · rw [hsorted, hone]
        simp [hmem]

end Commands

end PgDucklake.Sorted
