import PgDucklake.Sorted.Agreement

/-!
# Runs of sort commands

`agree_run`: in every run whose completed commands are careful, indexes and sort specifications agree. `second_index` is a
run of three plain commands after which they do not: a second index on a table replaces the specification but not the
first index, and dropping either removes the specification.
-/

namespace PgDucklake.Sorted

open Lib Relation

variable {env : Env}

/-! ## The procedures -/

section Procedures

variable {db db' : Database} {path : List String} {table : QName}

variable {s : State} {session : Nat}

theorem agree_setSort {sortedBy : List (Option String)} (h : Agree env s.db)
    (hcare : Careful env s session (.setSort path table sortedBy))
    (hexec : setSort env s.db path table sortedBy = some db') : Agree env db' := by
  obtain ⟨hfind, hread⟩ := hcare
  simp only [setSort, Option.ite_none_left_eq_some] at hexec
  obtain ⟨htable, -, hexec⟩ := hexec
  obtain ⟨keys, hkeys, hexec⟩ := Option.bind_eq_some_iff.mp hexec
  obtain ⟨items, hitems, hexec⟩ := Option.bind_eq_some_iff.mp hexec
  simp only [syncSortedIndexes, List.foldlM_cons, List.foldlM_nil, Option.bind_eq_bind, Option.pure_def,
    Option.bind_fun_some] at hexec
  obtain ⟨db₁, hdrop, hexec⟩ := Option.bind_eq_some_iff.mp hexec
  obtain ⟨params, hparams, hcreate⟩ := Option.bind_eq_some_iff.mp hexec
  obtain ⟨hsame, hnone⟩ := dropIndexes_single hdrop (h table (not_not.mp htable)).length_le hfind
  obtain ⟨i, hnew, rfl, rfl, hsorted, rfl⟩ := createIndex_sync hcreate
  have hown : SameBut i.table db₁ (db₁.addIndex i hnew) := addIndex_own hsorted
  have hadd := hsame.trans hown
  obtain ⟨hreads, hplaced⟩ := hread keys hkeys items i.elems hitems hparams
  intro t ht
  by_cases heq : t = i.table
  · subst heq
    refine agreesOn_some ?_ ?_ (sameKeys_of_sameReads hreads hplaced)
    · rw [hadd.specs]
      exact if_pos rfl
    · rw [sortedOn_addIndex hsorted, hnone, if_pos rfl, List.nil_append]
  · rw [hadd.tables] at ht
    refine (h t ht).congr ?_ (hadd.sortedOn t heq)
    rw [hadd.specs]
    exact if_neg heq

theorem agree_resetSort (h : Agree env s.db) (hcare : Careful env s session (.resetSort path table))
    (hexec : resetSort env s.db path table = some db') :
    Agree env db' := by
  simp only [resetSort, Option.ite_none_left_eq_some, syncSortedIndexes, List.foldlM_cons, List.foldlM_nil,
    Option.bind_eq_bind, Option.pure_def, Option.bind_some, Option.bind_fun_some] at hexec
  obtain ⟨htable, hdrop⟩ := hexec
  obtain ⟨hsame, hnone⟩ := dropIndexes_single hdrop (h table (not_not.mp htable)).length_le hcare
  intro t ht
  by_cases heq : t = table
  · subst heq
    refine agreesOn_none ?_ hnone
    rw [hsame.specs]
    exact if_pos rfl
  · rw [hsame.tables] at ht
    refine (h t ht).congr ?_ (hsame.sortedOn t heq)
    rw [hsame.specs]
    exact if_neg heq

end Procedures

/-! ## External snapshots -/

section External

variable {db db' : Database}

theorem publish_frame (changes : List (QName × Option (List SortKey))) (db : Database) :
    (changes.foldl (fun db c => db.setSpec c.1 c.2) db).tables = db.tables ∧
      (changes.foldl (fun db c => db.setSpec c.1 c.2) db).names = db.names ∧
      ∀ t, (changes.foldl (fun db c => db.setSpec c.1 c.2) db).sortedOn t = db.sortedOn t := by
  induction changes generalizing db with
  | nil => exact ⟨rfl, rfl, fun _ => rfl⟩
  | cons c changes ih =>
    obtain ⟨htables, hnames, hsorted⟩ := ih (db.setSpec c.1 c.2)
    exact ⟨htables, hnames, hsorted⟩

variable {changes : List (QName × Option (List SortKey))} {t : QName}

theorem publish_specs_of_notMem (h : t ∉ changes.map Prod.fst) (db : Database) :
    (changes.foldl (fun db c => db.setSpec c.1 c.2) db).specs t = db.specs t := by
  induction changes generalizing db with
  | nil => rfl
  | cons c changes ih =>
    rw [List.map_cons, List.mem_cons, not_or] at h
    rw [List.foldl_cons, ih h.2]
    exact if_neg h.1

theorem publish_specs_of_mem {keys : Option (List SortKey)} (hnd : (changes.map Prod.fst).Nodup)
    (h : (t, keys) ∈ changes) (db : Database) :
    (changes.foldl (fun db c => db.setSpec c.1 c.2) db).specs t = keys := by
  induction changes generalizing db with
  | nil => cases h
  | cons c changes ih =>
    rw [List.map_cons, List.nodup_cons] at hnd
    rcases List.mem_cons.mp h with rfl | h
    · rw [List.foldl_cons, publish_specs_of_notMem hnd.1]
      exact if_pos rfl
    · exact ih hnd.2 h _

/-- No name on the trigger's path is the name of one of the table's indexes. -/
def Unfound (db : Database) (table : QName) : Prop :=
  ∀ i ∈ db.sortedOn table, db.rangeVarGetRelid triggerPath i.name = none

theorem rangeVarGetRelid_none {path : List String} {name : String} :
    db.rangeVarGetRelid path name = none ↔ ∀ schema ∈ path, (schema, name) ∉ db.names := by
  simp [Database.rangeVarGetRelid]

variable {create : QName × String}

theorem create_unfound (hnone : Unfound db create.1) (hpath : create.1.1 ∉ triggerPath)
    (h : createSortedIndexForTable env triggerPath db create = some db') :
    SameBut create.1 db db' ∧ (∀ t, t ≠ create.1 → Unfound db t → Unfound db' t) ∧
      ∃ i params, env.postgres create.2 = some params ∧ db'.sortedOn create.1 = [i] ∧ i.elems = params := by
  obtain ⟨db₁, hdrop, h⟩ := Option.bind_eq_some_iff.mp h
  obtain ⟨params, hparams, hcreate⟩ := Option.bind_eq_some_iff.mp h
  obtain ⟨rfl, hempty⟩ := dropIndexes_unfound hnone hdrop
  obtain ⟨i, hnew, rfl, htable, hsorted, helems⟩ := createIndex_sync hcreate
  have hadd : SameBut create.1 db₁ (db₁.addIndex i hnew) := htable ▸ addIndex_own hsorted
  refine ⟨hadd, ?_, i, params, hparams, ?_, helems⟩
  · intro t ht hunfound j hj
    rw [hadd.sortedOn t ht] at hj
    rw [rangeVarGetRelid_none]
    intro schema hschema hmem
    have hold := rangeVarGetRelid_none.mp (hunfound j hj) schema hschema
    simp only [Database.names, Database.addIndex, List.map_append, ← List.append_assoc] at hmem
    rcases List.mem_append.mp hmem with hmem | hmem
    · exact hold hmem
    · -- the new index is not on the path
      have hname := List.mem_singleton.mp hmem
      have hschema' : schema = create.1.1 := by
        have := congrArg Prod.fst hname
        simpa [Index.qualified, htable] using this
      exact hpath (hschema' ▸ hschema)
  · rw [sortedOn_addIndex hsorted, hempty, if_pos htable, List.nil_append]

theorem creates_unfound : ∀ {creates : List (QName × String)} {db db' : Database},
    (creates.map Prod.fst).Nodup → (∀ c ∈ creates, c.1.1 ∉ triggerPath) → (∀ c ∈ creates, Unfound db c.1) →
      creates.foldlM (createSortedIndexForTable env triggerPath) db = some db' →
      db'.tables = db.tables ∧ db'.specs = db.specs ∧
        (∀ t, t ∉ creates.map Prod.fst → db'.sortedOn t = db.sortedOn t ∧ (Unfound db t → Unfound db' t)) ∧
        ∀ c ∈ creates, ∃ i params, env.postgres c.2 = some params ∧ db'.sortedOn c.1 = [i] ∧ i.elems = params
  | [], db, db', _, _, _, h => by
    obtain rfl : db = db' := by simpa using h
    exact ⟨rfl, rfl, fun _ _ => ⟨rfl, id⟩, by simp⟩
  | c :: creates, db, db', hnd, hpath, hnone, h => by
    rw [List.map_cons, List.nodup_cons] at hnd
    rw [List.foldlM_cons] at h
    obtain ⟨db₁, hcreate, h⟩ := Option.bind_eq_some_iff.mp h
    obtain ⟨hsame, hunfound, i, params, hparams, hsorted, helems⟩ :=
      create_unfound (hnone c (List.mem_cons_self ..)) (hpath c (List.mem_cons_self ..)) hcreate
    have hne : ∀ d ∈ creates, d.1 ≠ c.1 := fun d hd heq => hnd.1 (heq ▸ List.mem_map_of_mem hd)
    obtain ⟨htables, hspecs, hframe, hnew⟩ := creates_unfound hnd.2 (fun d hd => hpath d (List.mem_cons_of_mem _ hd))
      (fun d hd => hunfound d.1 (hne d hd) (hnone d (List.mem_cons_of_mem _ hd))) h
    refine ⟨htables.trans hsame.tables, hspecs.trans hsame.specs, fun t ht => ?_, fun d hd => ?_⟩
    · rw [List.map_cons, List.mem_cons, not_or] at ht
      obtain ⟨hsorted', hunfound'⟩ := hframe t ht.2
      exact ⟨hsorted'.trans (hsame.sortedOn t ht.1), fun hu => hunfound' (hunfound t ht.1 hu)⟩
    · rcases List.mem_cons.mp hd with rfl | hd
      · exact ⟨i, params, hparams, (hframe d.1 hnd.1).1.trans hsorted, helems⟩
      · exact hnew d hd

theorem resets_unfound : ∀ {resets : List QName} {db db' : Database}, (∀ t ∈ resets, Unfound db t) →
    resets.foldlM (fun db table => dropIndexes db triggerPath table) db = some db' →
      db' = db ∧ ∀ t ∈ resets, db.sortedOn t = []
  | [], db, db', _, h => by
    obtain rfl : db = db' := by simpa using h
    exact ⟨rfl, by simp⟩
  | t :: resets, db, db', hnone, h => by
    rw [List.foldlM_cons] at h
    obtain ⟨db₁, hdrop, hfold⟩ := Option.bind_eq_some_iff.mp h
    obtain ⟨rfl, hempty⟩ := dropIndexes_unfound (hnone t (List.mem_cons_self ..)) hdrop
    obtain ⟨rfl, hrest⟩ := resets_unfound (fun u hu => hnone u (List.mem_cons_of_mem _ hu)) hfold
    refine ⟨rfl, fun u hu => ?_⟩
    rcases List.mem_cons.mp hu with rfl | hu
    · exact hempty
    · exact hrest u hu

theorem mem_createsOf :
    create ∈ createsOf changes ↔ ∃ keys, (create.1, some keys) ∈ changes ∧ create.2 = keysText keys := by
  obtain ⟨table, text⟩ := create
  simp only [createsOf, List.mem_filterMap, Option.map_eq_some_iff, Prod.mk.injEq]
  constructor
  · rintro ⟨⟨t, -⟩, hc, keys, rfl, rfl, rfl⟩
    exact ⟨keys, hc, rfl⟩
  · rintro ⟨keys, hc, rfl⟩
    exact ⟨_, hc, keys, rfl, rfl, rfl⟩

theorem createsOf_sublist : ∀ changes : List (QName × Option (List SortKey)),
    ((createsOf changes).map Prod.fst).Sublist (changes.map Prod.fst)
  | [] => .slnil
  | (t, none) :: changes => (createsOf_sublist changes).cons t
  | (t, some _) :: changes => (createsOf_sublist changes).cons_cons t

theorem Snapshot.change_unique (snapshot : Snapshot) {c d : QName × Option (List SortKey)} (hc : c ∈ snapshot.changes)
    (hd : d ∈ snapshot.changes) (h : c.1 = d.1) : c = d :=
  List.inj_on_of_nodup_map snapshot.tables_unique hc hd h

variable {snapshot : Snapshot}

theorem notMem_creates (h : (t, none) ∈ snapshot.changes) :
    t ∉ (createsOf snapshot.changes).map Prod.fst := by
  intro hmem
  obtain ⟨create, hcreate, rfl⟩ := List.mem_map.mp hmem
  obtain ⟨keys, hkeys, -⟩ := mem_createsOf.mp hcreate
  cases congrArg Prod.snd (snapshot.change_unique h hkeys rfl)

theorem mem_sortResets :
    t ∈ sortResets db snapshot ↔ (t, none) ∈ snapshot.changes ∧ (db.specs t).isSome ∧ t ∈ db.names := by
  simp only [sortResets, List.mem_map, List.mem_filter, Bool.and_eq_true, Option.isNone_iff_eq_none, decide_eq_true_eq]
  constructor
  · rintro ⟨⟨_, _⟩, ⟨hc, ⟨rfl, hspec⟩, hname⟩, rfl⟩
    exact ⟨hc, hspec, hname⟩
  · rintro ⟨hc, hspec, hname⟩
    exact ⟨_, ⟨hc, ⟨rfl, hspec⟩, hname⟩, rfl⟩

theorem unfound_publish (h : Unfound db t) : Unfound (db.publish snapshot) t := by
  obtain ⟨-, hnames, hsorted⟩ := publish_frame snapshot.changes db
  intro i hi
  rw [rangeVarGetRelid_none]
  have hold := rangeVarGetRelid_none.mp (h i (hsorted t ▸ hi))
  exact hnames ▸ hold

theorem agree_external {s : State} {session : Nat} (h : Agree env s.db)
    (hcare : Careful env s session (.external snapshot)) (hexec : external env s.db snapshot = some db') :
    Agree env db' := by
  obtain ⟨htables, -, hsorted⟩ := publish_frame snapshot.changes s.db
  have hunfound : ∀ c ∈ snapshot.changes, Unfound (s.db.publish snapshot) c.1 :=
    fun c hc => unfound_publish (hcare c hc).2.1
  obtain ⟨db₁, hcreates, hresets⟩ := Option.bind_eq_some_iff.mp hexec
  rw [sortCreates_eq fun c hc keys hk => ((hcare c hc).2.2 keys hk).1] at hcreates
  obtain ⟨htables', hspecs', hframe, hnew⟩ := creates_unfound
    (snapshot.tables_unique.sublist (createsOf_sublist _))
    (fun create hcreate => by
      obtain ⟨keys, hkeys, -⟩ := mem_createsOf.mp hcreate
      exact (hcare _ hkeys).1)
    (fun create hcreate => by
      obtain ⟨keys, hkeys, -⟩ := mem_createsOf.mp hcreate
      exact hunfound _ hkeys) hcreates
  obtain ⟨rfl, hempty⟩ := resets_unfound (fun t ht => by
    have hchange := (mem_sortResets.mp ht).1
    exact (hframe t (notMem_creates hchange)).2 (hunfound _ hchange)) hresets
  intro t ht
  have htable : t ∈ s.db.tables := htables ▸ htables' ▸ ht
  by_cases hchanged : t ∈ snapshot.changes.map Prod.fst
  · obtain ⟨⟨t, keys⟩, hc, rfl⟩ := List.mem_map.mp hchanged
    have hspec : db'.specs t = keys := by
      rw [hspecs']
      exact publish_specs_of_mem snapshot.tables_unique hc s.db
    cases keys with
    | none =>
      refine agreesOn_none hspec ?_
      cases hold : s.db.specs t with
      | some keys =>
        have hname : t ∈ s.db.names := List.mem_append_left _ (List.mem_append_left _ htable)
        exact hempty t (mem_sortResets.mpr ⟨hc, by simp [hold], hname⟩)
      | none =>
        -- there was no specification to reset, hence no index
        have hnone : s.db.sortedOn t = [] := by simpa [AgreesOn, hold] using h t htable
        rw [(hframe t (notMem_creates hc)).1]
        exact (hsorted t).trans hnone
    | some keys =>
      obtain ⟨i, params, hparams, hone, rfl⟩ := hnew (t, keysText keys) (mem_createsOf.mpr ⟨keys, hc, rfl⟩)
      exact agreesOn_some hspec hone (((hcare _ hc).2.2 keys rfl).2 _ hparams)
  · have hframe' := hframe t fun hmem => hchanged ((createsOf_sublist _).subset hmem)
    refine (h t htable).congr ?_ (hframe'.1.trans (hsorted t))
    rw [hspecs']
    exact publish_specs_of_notMem hchanged s.db

end External

/-! ## Runs -/

theorem agree_step {s t : State} (h : Agree env s.db) (hstep : Step env (Careful env) s t) : Agree env t.db := by
  cases hstep with
  | completed hok hexec =>
    rename_i session c db'
    cases c with
    | createIndex stmt => exact agree_createIndex h hok hexec
    | dropIndex path missingOk objects => exact agree_dropIndex h hok hexec
    | setSort path table sortedBy => exact agree_setSort h hok hexec
    | resetSort path table => exact agree_resetSort h hok hexec
    | external snapshot => exact agree_external h hok hexec
  | failed _ => exact h

/-- Whatever commands complete carefully and whatever commands fail, every ducklake table has a sorted index exactly if
it has a sort specification, and then one index, with the keys of the specification. -/
theorem agree_run {s t : State} (h : Agree env s.db) (hrun : ReflTransGen (Step env (Careful env)) s t) :
    Agree env t.db :=
  run_invariant (P := fun s : State => Agree env s.db) (fun _ _ hs hstep => agree_step hs hstep) hrun h

/-! ## Two runs -/

/-- Parsers for the columns `a` and `b` in ascending order. -/
def letters : Env where
  duckdb text := if text = "a ASC" then some [⟨"a", .asc, none⟩] else if text = "b ASC" then some [⟨"b", .asc, none⟩]
    else none
  postgres text := if text = "a ASC" then some [⟨.name "a", some .asc, none, [], []⟩]
    else if text = "b ASC" then some [⟨.name "b", some .asc, none, [], []⟩] else none
  denotes text
    | .name column => text = column
    | .expr node => nodeToSQL node = some text
  choose _ stmt := stmt.relation.2 ++ "_idx"

/-- `CREATE INDEX name ON public.t USING ducklake_sorted (column)`. -/
def onColumn (name column : String) : IndexStmt :=
  { indexStmtFor ("public", "t") [⟨.name column, none, none, [], []⟩] with idxname := some name }

/-- One table, without a sort order. -/
def unsorted : State where
  db :=
    { tables := [("public", "t")]
      others := []
      indexes := []
      specs := fun _ => none
      names_unique := by decide }
  syncing _ := false

theorem unsorted_agree : Agree letters unsorted.db := by
  intro t _
  exact agreesOn_none rfl rfl

/-- A command of a session that completes. -/
def complete (env : Env) (s : State) (a : Nat × Command) : Option State :=
  (a.2.exec env (s.syncing a.1) s.db).map fun db => { s with db := db }.setFlag a.1 (a.2.flag (s.syncing a.1))

theorem step_complete (env : Env) (s : State) (a : Nat × Command) (t : State) (h : complete env s a = some t) :
    Step env (fun _ _ _ => True) s t := by
  obtain ⟨db, hexec, rfl⟩ := Option.map_eq_some_iff.mp h
  exact .completed trivial hexec

theorem agree_run_create :
    ∃ s, ReflTransGen (Step letters (Careful letters)) unsorted s ∧
      (s.db.sortedOn ("public", "t")).map (·.name) = ["i"] ∧ Agree letters s.db := by
  have hread : ∀ text items, sortSpec (onColumn "i" "a").params = some text → letters.duckdb text = some items →
      List.Forall₂ (SameRead letters.toGrammars) items (onColumn "i" "a").params := by
    intro text items htext hitems
    obtain rfl : "a ASC" = text := Option.some.inj htext
    obtain rfl : [⟨"a", .asc, none⟩] = items := Option.some.inj hitems
    exact .cons ⟨rfl, rfl, rfl⟩ .nil
  have hplaced : ∀ e ∈ (onColumn "i" "a").params, e.Placed := by
    intro e he hdesc
    obtain rfl := List.mem_singleton.mp he
    cases hdesc
  have hcare : Careful letters unsorted 0 (.createIndex (onColumn "i" "a")) :=
    ⟨rfl, rfl, (fun hif => Bool.noConfusion hif), hread, hplaced⟩
  have hrun : ReflTransGen (Step letters (Careful letters)) unsorted _ := .single (.completed hcare rfl)
  exact ⟨_, hrun, rfl, agree_run unsorted_agree hrun⟩

/-- Two indexes on one table, and one of them dropped: the other is left without a sort specification. -/
theorem second_index :
    ∃ s, ReflTransGen (Step letters fun _ _ _ => True) unsorted s ∧ s.db.specs ("public", "t") = none ∧
      (s.db.sortedOn ("public", "t")).map (·.name) = ["i"] ∧ ¬Agree letters s.db := by
  have htrace : trace (complete letters) unsorted
      [(0, .createIndex (onColumn "i" "a")), (0, .createIndex (onColumn "j" "b")),
        (0, .dropIndex ["public"] false [⟨none, "j"⟩])] = some _ := rfl
  have hrun : ReflTransGen (Step letters fun _ _ _ => True) unsorted _ :=
    trace_run (step_complete letters) htrace
  refine ⟨_, hrun, rfl, rfl, fun h => ?_⟩
  have hnone := h ("public", "t") (List.mem_singleton_self _)
  cases hnone

end PgDucklake.Sorted
