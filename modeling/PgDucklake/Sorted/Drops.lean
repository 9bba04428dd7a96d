import PgDucklake.Sorted.Agreement

/-!
# Dropping the sorted indexes of a relation

`SyncSortedIndexes` finds the sorted indexes of a relation by oid and drops each by its bare name, which is looked up
again along the search path. `dropSorted` is what the statements are for: the sorted indexes of the relation go, all else
stays. A sync does this for all its relations exactly if each bare name stands for its index when its turn comes
(`sync_drops_iff`): a relation of that name in an earlier schema on the path is dropped instead
(`namesake_dropped`), a schema that is not on the path is an error.
-/

namespace PgDucklake.Sorted

variable (env : Env)

/-! ## What the statements are for -/

def Database.dropSorted (db : Database) (table : QName) : Database :=
  db.removeIndexes ((db.sortedOn table).map Index.qualified)

/-- One relation of a sync. Its indexes are dropped; for new keys, which come as a text, an index is created. -/
abbrev SyncAction := QName × Option String

/-- What follows the drops for the relation. -/
def createAfter (db : Database) : SyncAction → Option Database
  | (_, none) => some db
  | (table, some sortSpec) =>
    (env.postgres sortSpec).bind fun params => createIndex env true db (indexStmtFor table params)

def syncStep (path : List String) (db : Database) (a : SyncAction) : Option Database :=
  (dropIndexes db path a.1).bind fun db' => createAfter env db' a

/-- The step as it is meant. -/
def meantStep (db : Database) (a : SyncAction) : Option Database := createAfter env (db.dropSorted a.1) a

def syncActions (creates : List (QName × String)) (resets : List QName) : List SyncAction :=
  creates.map (fun c => (c.1, some c.2)) ++ resets.map fun table => (table, none)

/-- `SyncSortedIndexes` with drops that do what they are for. -/
def meantSync (creates : List (QName × String)) (resets : List QName) (db : Database) : Option Database :=
  (syncActions creates resets).foldlM (meantStep env) db

/-- The bare names of the table's sorted indexes stand for them. -/
def FoundByName (path : List String) (db : Database) (table : QName) : Prop :=
  ∀ i ∈ db.sortedOn table, db.rangeVarGetRelid path i.name = some i.qualified

/-- Every relation's indexes are found by their bare names once the relations before it are done. -/
def FoundAlong (path : List String) : Database → List SyncAction → Prop
  | _, [] => True
  | db, a :: actions => FoundByName path db a.1 ∧ ∀ db', meantStep env db a = some db' → FoundAlong path db' actions

variable {env}

theorem syncSortedIndexes_eq (path : List String) (creates : List (QName × String)) (resets : List QName)
    (db : Database) :
    syncSortedIndexes env path creates resets db = (syncActions creates resets).foldlM (syncStep env path) db := by
  have hcreates : ∀ db, (creates.map fun c => ((c.1, some c.2) : SyncAction)).foldlM (syncStep env path) db =
      creates.foldlM (createSortedIndexForTable env path) db := by
    intro db
    rw [List.foldlM_map]
    rfl
  have hresets : ∀ db, (resets.map fun table => ((table, none) : SyncAction)).foldlM (syncStep env path) db =
      resets.foldlM (fun db table => dropIndexes db path table) db := by
    intro db
    rw [List.foldlM_map]
    congr 1
    funext db table
    simp [syncStep, createAfter]
  rw [syncActions, List.foldlM_append, hcreates]
  simp only [hresets]
  rfl

/-! ## One statement -/

section Statement

variable {db db' : Database} {path : List String} {table : QName}

theorem mem_names_removeIndexes {q q' : QName} (hne : q' ≠ q) :
    q' ∈ (db.removeIndexes [q]).names ↔ q' ∈ db.names := by
  simp only [Database.names, Database.removeIndexes, List.mem_append, List.mem_map, List.mem_filter,
    List.mem_singleton, decide_eq_true_eq]
  constructor
  · rintro (h | ⟨i, ⟨hi, -⟩, rfl⟩)
    · exact .inl h
    · exact .inr ⟨i, hi, rfl⟩
  · rintro (h | ⟨i, hi, rfl⟩)
    · exact .inl h
    · exact .inr ⟨i, ⟨hi, hne⟩, rfl⟩

theorem rangeVarGetRelid_removeIndexes {q : QName} {name : String} (hname : name ≠ q.2) :
    (db.removeIndexes [q]).rangeVarGetRelid path name = db.rangeVarGetRelid path name := by
  induction path with
  | nil => rfl
  | cons schema path ih =>
    have hne : (schema, name) ≠ q := by
      rintro rfl
      exact hname rfl
    simp only [Database.rangeVarGetRelid, List.map_cons, List.find?_cons, mem_names_removeIndexes hne] at ih ⊢
    rw [ih]

theorem rangeVarGetRelid_name {name : String} {q : QName} (h : db.rangeVarGetRelid path name = some q) :
    q.2 = name := by
  obtain ⟨schema, -, rfl⟩ := List.mem_map.mp (List.mem_of_find?_eq_some h)
  rfl

theorem dropIndex_found {i : Index} (hi : i ∈ db.indexes) (hfound : db.rangeVarGetRelid path i.name = some i.qualified) :
    dropIndex true db path false [⟨none, i.name⟩] = some (db.removeIndexes [i.qualified]) := by
  have hindex : db.isIndex i.qualified = true := by
    simp only [Database.isIndex, decide_eq_true_eq]
    exact List.mem_map_of_mem hi
  simp [dropIndex, RangeVar.resolve, hfound, handleDropSortedIndex, hindex]

theorem removeIndexes_removeIndexes (dropped dropped' : List QName) :
    (db.removeIndexes dropped).removeIndexes dropped' = db.removeIndexes (dropped ++ dropped') := by
  simp only [Database.removeIndexes, List.filter_filter]
  congr 1
  refine List.filter_congr fun i _ => ?_
  simp only [List.mem_append, not_or, Bool.decide_and]
  exact Bool.and_comm _ _

/-! ## The statements for one relation -/

theorem name_ne_of_sortedOn {i j : Index} (hi : i ∈ db.sortedOn table) (hj : j ∈ db.sortedOn table) (hne : i ≠ j) :
    i.name ≠ j.name := by
  obtain ⟨hi', -, hti⟩ := mem_sortedOn.mp hi
  obtain ⟨hj', -, htj⟩ := mem_sortedOn.mp hj
  intro hname
  refine hne (index_unique hi' hj' ?_)
  simp only [Index.qualified, hti, htj, hname]

/-- The statements for the indexes in `l`, from any point between them. -/
def dropEach (path : List String) (db : Database) (l : List Index) : Option Database :=
  l.foldlM (fun db i => dropIndex true db path false [⟨none, i.name⟩]) db

theorem dropEach_found (l : List Index) (db : Database) (hmem : ∀ i ∈ l, i ∈ db.indexes)
    (hnames : (l.map Index.name).Nodup)
    (hfound : ∀ i ∈ l, db.rangeVarGetRelid path i.name = some i.qualified) :
    dropEach path db l = some (db.removeIndexes (l.map Index.qualified)) := by
  induction l generalizing db with
  | nil => simp [dropEach, Database.removeIndexes]
  | cons i l ih =>
    obtain ⟨hnew, hnames'⟩ := List.nodup_cons.mp hnames
    have hother : ∀ j ∈ l, j.name ≠ i.name := by
      intro j hj hname
      exact hnew (hname ▸ List.mem_map_of_mem hj)
    have hstay : ∀ j ∈ l, j ∈ (db.removeIndexes [i.qualified]).indexes := by
      intro j hj
      simp only [Database.removeIndexes, List.mem_filter, List.mem_singleton, decide_eq_true_eq]
      exact ⟨hmem j (List.mem_cons_of_mem _ hj), fun h => hother j hj (congrArg Prod.snd h)⟩
    have hlater : ∀ j ∈ l, (db.removeIndexes [i.qualified]).rangeVarGetRelid path j.name = some j.qualified := by
      intro j hj
      rw [rangeVarGetRelid_removeIndexes (hother j hj)]
      exact hfound j (List.mem_cons_of_mem _ hj)
    have hfirst := dropIndex_found (hmem i (List.mem_cons_self ..)) (hfound i (List.mem_cons_self ..))
    have hrest := ih _ hstay hnames' hlater
    simp only [dropEach, List.foldlM_cons, hfirst, Option.bind_eq_bind, Option.bind_some] at hrest ⊢
    rw [hrest, removeIndexes_removeIndexes]
    rfl

theorem dropEach_other (l : List Index) (db : Database) {i : Index} (hi : i ∈ db.indexes)
    (hname : ∀ j ∈ l, i.name ≠ j.name) (h : dropEach path db l = some db') : i ∈ db'.indexes := by
  induction l generalizing db with
  | nil =>
    simp only [dropEach, List.foldlM_nil, Option.pure_def, Option.some.injEq] at h
    exact h ▸ hi
  | cons j l ih =>
    simp only [dropEach, List.foldlM_cons, Option.bind_eq_bind] at h
    obtain ⟨db₁, hfirst, hrest⟩ := Option.bind_eq_some_iff.mp h
    obtain ⟨q, hq, rfl⟩ := dropIndex_bare hfirst
    have hstay : i ∈ (db.removeIndexes [q]).indexes := by
      simp only [Database.removeIndexes, List.mem_filter, List.mem_singleton, decide_eq_true_eq]
      refine ⟨hi, fun hiq => hname j (List.mem_cons_self ..) ?_⟩
      rw [← rangeVarGetRelid_name hq, ← hiq]
      rfl
    exact ih _ hstay (fun j' hj' => hname j' (List.mem_cons_of_mem _ hj')) hrest

theorem dropEach_left (l : List Index) (db : Database) (hmem : ∀ i ∈ l, i ∈ db.indexes)
    (hnames : (l.map Index.name).Nodup) (h : dropEach path db l = some db') {i : Index} (hi : i ∈ l)
    (hgone : i ∉ db'.indexes) : db.rangeVarGetRelid path i.name = some i.qualified := by
  induction l generalizing db with
  | nil => cases hi
  | cons j l ih =>
    obtain ⟨hnew, hnames'⟩ := List.nodup_cons.mp hnames
    have hother : ∀ k ∈ l, k.name ≠ j.name := by
      intro k hk hname
      exact hnew (hname ▸ List.mem_map_of_mem hk)
    simp only [dropEach, List.foldlM_cons, Option.bind_eq_bind] at h
    obtain ⟨db₁, hfirst, hrest⟩ := Option.bind_eq_some_iff.mp h
    obtain ⟨q, hq, rfl⟩ := dropIndex_bare hfirst
    have hqname := rangeVarGetRelid_name hq
    rcases List.mem_cons.mp hi with rfl | hi'
    · by_contra hwrong
      have hstay : i ∈ (db.removeIndexes [q]).indexes := by
        simp only [Database.removeIndexes, List.mem_filter, List.mem_singleton, decide_eq_true_eq]
        exact ⟨hmem i (List.mem_cons_self ..), fun hiq => hwrong (hiq ▸ hq)⟩
      exact hgone (dropEach_other l _ hstay (fun k hk => (hother k hk).symm) hrest)
    · have hstay : ∀ k ∈ l, k ∈ (db.removeIndexes [q]).indexes := by
        intro k hk
        simp only [Database.removeIndexes, List.mem_filter, List.mem_singleton, decide_eq_true_eq]
        refine ⟨hmem k (List.mem_cons_of_mem _ hk), fun hkq => hother k hk ?_⟩
        rw [← hqname, ← hkq]
        rfl
      have hlater := ih _ hstay hnames' hrest hi'
      rwa [rangeVarGetRelid_removeIndexes (hqname ▸ hother i hi')] at hlater

theorem names_nodup_sortedOn : ((db.sortedOn table).map Index.name).Nodup := by
  have hnd : (db.sortedOn table).Nodup :=
    (List.Nodup.of_map _ (List.nodup_append.mp db.names_unique).2.1).filter _
  refine (List.nodup_map_iff_inj_on hnd).mpr fun i hi j hj hname => ?_
  by_contra hne
  exact name_ne_of_sortedOn hi hj hne hname

theorem dropIndexes_found (hfound : FoundByName path db table) :
    dropIndexes db path table = some (db.dropSorted table) :=
  dropEach_found _ db (fun _ hi => (mem_sortedOn.mp hi).1) names_nodup_sortedOn hfound

theorem dropIndexes_left (h : dropIndexes db path table = some db') (hnone : db'.sortedOn table = []) :
    FoundByName path db table := by
  intro i hi
  refine dropEach_left _ db (fun _ hj => (mem_sortedOn.mp hj).1) names_nodup_sortedOn h hi fun hleft => ?_
  obtain ⟨-, hsorted, htable⟩ := mem_sortedOn.mp hi
  have hstill : i ∈ db'.sortedOn table := mem_sortedOn.mpr ⟨hleft, hsorted, htable⟩
  rw [hnone] at hstill
  cases hstill

theorem sortedOn_dropSorted_self : (db.dropSorted table).sortedOn table = [] := by
  rw [Database.dropSorted, sortedOn_removeIndexes, List.filter_eq_nil_iff]
  intro i hi
  simp only [decide_eq_true_eq, not_not]
  exact List.mem_map_of_mem hi

theorem sortedOn_dropSorted_of_ne {t : QName} (hne : t ≠ table) :
    (db.dropSorted table).sortedOn t = db.sortedOn t := by
  rw [Database.dropSorted, sortedOn_removeIndexes, List.filter_eq_self]
  intro i hi
  obtain ⟨hmem, -, ht⟩ := mem_sortedOn.mp hi
  simp only [decide_eq_true_eq, List.mem_map, not_exists, not_and]
  intro j hj hname
  obtain ⟨hmem', -, ht'⟩ := mem_sortedOn.mp hj
  exact hne (by rw [← ht, ← ht', index_unique hmem' hmem hname])

end Statement

/-! ## The run -/

section Run

variable {db db' : Database} {path : List String} {a b : SyncAction}

/-- The number of sorted indexes that a relation is to have after its turn. -/
def SyncAction.meantCount (a : SyncAction) : Nat := if a.2.isSome then 1 else 0

/-- The relation still has an index that was to be dropped. -/
def Surplus (db : Database) (a : SyncAction) : Prop := a.meantCount < (db.sortedOn a.1).length

theorem sortedOn_createAfter (h : createAfter env db a = some db') :
    (db'.sortedOn a.1).length = (db.sortedOn a.1).length + a.meantCount ∧
      ∀ t, t ≠ a.1 → db'.sortedOn t = db.sortedOn t := by
  obtain ⟨table, spec⟩ := a
  cases spec with
  | none =>
    obtain rfl := Option.some.inj h
    exact ⟨rfl, fun _ _ => rfl⟩
  | some text =>
    obtain ⟨params, -, hcreate⟩ := Option.bind_eq_some_iff.mp h
    obtain ⟨i, hnew, rfl, rfl, hsorted, -⟩ := createIndex_sync hcreate
    constructor
    · rw [sortedOn_addIndex hsorted, if_pos rfl, List.length_append]
      rfl
    · intro t ht
      exact (addIndex_own hsorted).sortedOn t ht

theorem sortedOn_meantStep (h : meantStep env db a = some db') :
    (db'.sortedOn a.1).length = a.meantCount ∧ ∀ t, t ≠ a.1 → db'.sortedOn t = db.sortedOn t := by
  obtain ⟨hown, hother⟩ := sortedOn_createAfter h
  rw [sortedOn_dropSorted_self, List.length_nil, Nat.zero_add] at hown
  exact ⟨hown, fun t ht => (hother t ht).trans (sortedOn_dropSorted_of_ne ht)⟩

theorem syncStep_cases (h : syncStep env path db a = some db') :
    FoundByName path db a.1 ∧ meantStep env db a = some db' ∨ Surplus db' a := by
  obtain ⟨db₁, hdrop, hcreate⟩ := Option.bind_eq_some_iff.mp h
  by_cases hnone : db₁.sortedOn a.1 = []
  · have hfound := dropIndexes_left hdrop hnone
    rw [dropIndexes_found hfound] at hdrop
    obtain rfl := Option.some.inj hdrop
    exact .inl ⟨hfound, hcreate⟩
  · have hleft : 0 < (db₁.sortedOn a.1).length := List.length_pos_of_ne_nil hnone
    have hown := (sortedOn_createAfter hcreate).1
    right
    simp only [Surplus]
    omega

theorem surplus_run (actions : List SyncAction) (db : Database) (hsurplus : Surplus db b)
    (hnd : ((b :: actions).map Prod.fst).Nodup) (h : actions.foldlM (syncStep env path) db = some db') :
    ∃ c ∈ b :: actions, Surplus db' c := by
  induction actions generalizing db b with
  | nil =>
    simp only [List.foldlM_nil, Option.pure_def, Option.some.injEq] at h
    exact ⟨b, List.mem_singleton_self b, h ▸ hsurplus⟩
  | cons a actions ih =>
    simp only [List.foldlM_cons, Option.bind_eq_bind] at h
    obtain ⟨db₁, hstep, hrest⟩ := Option.bind_eq_some_iff.mp h
    simp only [List.map_cons, List.nodup_cons, List.mem_cons, not_or] at hnd
    obtain ⟨⟨hne, hb⟩, ha, hnd'⟩ := hnd
    rcases syncStep_cases hstep with ⟨-, hmeant⟩ | hown
    · -- The step has kept the indexes of `b`, which has too many still.
      have hstill : Surplus db₁ b := by
        simp only [Surplus, (sortedOn_meantStep hmeant).2 b.1 hne]
        exact hsurplus
      obtain ⟨c, hc, hmany⟩ := ih db₁ hstill (List.nodup_cons.mpr ⟨hb, hnd'⟩) hrest
      refine ⟨c, ?_, hmany⟩
      rcases List.mem_cons.mp hc with rfl | hc
      · exact List.mem_cons_self ..
      · exact List.mem_cons_of_mem _ (List.mem_cons_of_mem _ hc)
    · obtain ⟨c, hc, hmany⟩ := ih db₁ hown (List.nodup_cons.mpr ⟨ha, hnd'⟩) hrest
      exact ⟨c, List.mem_cons_of_mem _ hc, hmany⟩

theorem no_surplus_meant (actions : List SyncAction) (db : Database) (hnd : (actions.map Prod.fst).Nodup)
    (h : actions.foldlM (meantStep env) db = some db') : ∀ c ∈ actions, ¬Surplus db' c := by
  have hkept : ∀ (actions : List SyncAction) (db : Database), actions.foldlM (meantStep env) db = some db' →
      ∀ t, t ∉ actions.map Prod.fst → db'.sortedOn t = db.sortedOn t := by
    intro actions
    induction actions with
    | nil =>
      intro db h t _
      simp only [List.foldlM_nil, Option.pure_def, Option.some.injEq] at h
      rw [h]
    | cons a actions ih =>
      intro db h t ht
      simp only [List.foldlM_cons, Option.bind_eq_bind] at h
      obtain ⟨db₁, hstep, hrest⟩ := Option.bind_eq_some_iff.mp h
      simp only [List.map_cons, List.mem_cons, not_or] at ht
      rw [ih db₁ hrest t ht.2, (sortedOn_meantStep hstep).2 t ht.1]
  induction actions generalizing db with
  | nil => simp
  | cons a actions ih =>
    simp only [List.foldlM_cons, Option.bind_eq_bind] at h
    obtain ⟨db₁, hstep, hrest⟩ := Option.bind_eq_some_iff.mp h
    obtain ⟨ha, hnd'⟩ := List.nodup_cons.mp hnd
    intro c hc
    rcases List.mem_cons.mp hc with rfl | hc
    · simp only [Surplus, hkept actions db₁ hrest c.1 ha, (sortedOn_meantStep hstep).1]
      exact Nat.lt_irrefl _
    · exact ih db₁ hnd' hrest c hc

theorem run_eq_iff (actions : List SyncAction) (db : Database) (hnd : (actions.map Prod.fst).Nodup)
    (hmeant : actions.foldlM (meantStep env) db = some db') :
    actions.foldlM (syncStep env path) db = some db' ↔ FoundAlong env path db actions := by
  induction actions generalizing db with
  | nil => simpa [FoundAlong] using hmeant
  | cons a actions ih =>
    have hsettled := no_surplus_meant _ db hnd hmeant
    simp only [List.foldlM_cons, Option.bind_eq_bind] at hmeant ⊢
    obtain ⟨db₁, hstep, hrest⟩ := Option.bind_eq_some_iff.mp hmeant
    have hnd' := (List.nodup_cons.mp hnd).2
    constructor
    · intro h
      obtain ⟨db₂, hsync, hrun⟩ := Option.bind_eq_some_iff.mp h
      rcases syncStep_cases hsync with ⟨hfound, hsame⟩ | hsurplus
      · obtain rfl : db₂ = db₁ := Option.some.inj (hsame.symm.trans hstep)
        refine ⟨hfound, fun db₃ h₃ => ?_⟩
        obtain rfl : db₃ = db₂ := Option.some.inj (h₃.symm.trans hstep)
        exact (ih db₃ hnd' hrest).mp hrun
      · obtain ⟨c, hc, hmany⟩ := surplus_run actions db₂ hsurplus hnd hrun
        exact absurd hmany (hsettled c hc)
    · rintro ⟨hfound, hlater⟩
      have hsync : syncStep env path db a = some db₁ := by
        rw [syncStep, dropIndexes_found hfound]
        exact hstep
      rw [hsync]
      exact (ih db₁ hnd' hrest).mpr (hlater db₁ hstep)

end Run

/-- The relations are given once each, and the index statements succeed where the drops do what they are for. Then the
sync ends in the catalog that is meant exactly if the bare name of every index to be dropped stands for it. -/
theorem sync_drops_iff (env : Env) (path : List String) (creates : List (QName × String)) (resets : List QName)
    (db db' : Database) (hrelations : (creates.map Prod.fst ++ resets).Nodup)
    (hmeant : meantSync env creates resets db = some db') :
    syncSortedIndexes env path creates resets db = some db' ↔
      FoundAlong env path db (syncActions creates resets) := by
  rw [syncSortedIndexes_eq]
  refine run_eq_iff _ db ?_ hmeant
  simpa [syncActions, Function.comp_def] using hrelations

/-- Parsers that accept nothing: dropping indexes asks no parser. -/
def noParsers : Env where
  duckdb _ := none
  postgres _ := none
  denotes _ _ := False
  choose _ _ := ""

/-- The sorted index `b.i` of `b.t`, and in the schema `a` an index `i` of another kind on `a.u`. -/
def namesakes : Database where
  tables := [("b", "t")]
  others := [("a", "u")]
  indexes := [⟨("a", "u"), "i", false, []⟩, ⟨("b", "t"), "i", true, []⟩]
  specs _ := none
  names_unique := by decide

/-- With `b` first on the path, the sorted index is found. -/
theorem sync_drops_iff_namesakes :
    syncSortedIndexes noParsers ["b", "a"] [] [("b", "t")] namesakes = some (namesakes.dropSorted ("b", "t")) := by
  refine (sync_drops_iff noParsers ["b", "a"] [] [("b", "t")] namesakes _ (by decide) rfl).mpr ⟨?_, fun _ _ => trivial⟩
  intro i hi
  have hone : namesakes.sortedOn ("b", "t") = [⟨("b", "t"), "i", true, []⟩] := rfl
  rw [hone, List.mem_singleton] at hi
  subst hi
  decide

/-- With `a` first on the path, the other index is dropped and the sorted one stays. -/
theorem namesake_dropped :
    (syncSortedIndexes noParsers ["a", "b"] [] [("b", "t")] namesakes).map (fun db => db.indexes.map Index.qualified) =
        some [("b", "i")] ∧
      (meantSync noParsers [] [("b", "t")] namesakes).map (fun db => db.indexes.map Index.qualified) =
        some [("a", "i")] := by
  constructor
  · decide
  · decide

end PgDucklake.Sorted
