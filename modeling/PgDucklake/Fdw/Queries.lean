import Mathlib.Logic.Relation
import PgDucklake.Fdw.Servers

/-!
# Foreign tables in a query

Two walks go over a query before it is planned. One asks whether a foreign table of `ducklake_fdw` is in it, so that DuckDB
has to run it; the other attaches the databases of such tables and refuses to modify tables that are not updatable. Both
follow subqueries of the range table and common table expressions, but no sublinks of expressions, and the second stops
at a query without range table. `Below` is what a walk reaches. `foreign_tables_found_iff` says for which queries that
is enough.
-/

namespace PgDucklake.Fdw

abbrev Oid := Nat

inductive CmdType
  | select
  | update
  | insert
  | delete
  | merge
  | utility
  deriving DecidableEq, Repr

mutual

/-- An analysed query. Its expressions are given by the queries of the sublinks in them. -/
inductive Query
  | mk (commandType : CmdType) (resultRelation : Nat) (rtable : List Rte) (cteList : List Query) (sublinks : List Query)

/-- An entry of the range table: a relation, a subquery (with the view it was made of, if any), or a join, a function, a
list of values and so on. -/
inductive Rte
  | relation (relid : Oid) (sublinks : List Query)
  | subquery (relid : Oid) (query : Query) (sublinks : List Query)
  | other (sublinks : List Query)

end

def Rte.relid : Rte → Oid
  | .relation relid _ => relid
  | .subquery relid _ _ => relid
  | .other _ => 0

def Rte.sublinks : Rte → List Query
  | .relation _ sublinks => sublinks
  | .subquery _ _ sublinks => sublinks
  | .other sublinks => sublinks

namespace Query

def commandType : Query → CmdType
  | .mk commandType _ _ _ _ => commandType

def resultRelation : Query → Nat
  | .mk _ resultRelation _ _ _ => resultRelation

def rtable : Query → List Rte
  | .mk _ _ rtable _ _ => rtable

def cteList : Query → List Query
  | .mk _ _ _ cteList _ => cteList

def sublinks : Query → List Query
  | .mk _ _ _ _ sublinks => sublinks

end Query

/-! ## The catalog -/

structure ForeignTable where
  fdwid : Oid
  server : ForeignServer
  options : List (Text × Text)
  deriving DecidableEq, Repr

/-- The wrapper's oid, and the relations that are foreign tables. -/
structure Catalog where
  fdwOid : Option Oid
  foreignTable : Oid → Option ForeignTable
  invalid : foreignTable 0 = none

/-- The catalog, and the oid that the session has kept since it first looked. A wrapper is dropped with its tables. -/
structure State where
  catalog : Catalog
  cachedOid : Option Oid
  kept : ∀ oid, cachedOid = some oid → catalog.fdwOid = some oid ∨
    ∀ relid table, catalog.foreignTable relid = some table → table.fdwid ≠ oid

namespace State

variable (st : State)

def getDucklakeFdwOid : Option Oid := st.cachedOid <|> st.catalog.fdwOid

/-- The foreign table, if its wrapper has the given oid. -/
def tableOf (oid : Option Oid) (relid : Oid) : Option ForeignTable :=
  (st.catalog.foreignTable relid).filter fun table => some table.fdwid = oid

/-- `IsDucklakeForeignTable`, with the table. -/
def recognised (relid : Oid) : Option ForeignTable := st.tableOf st.getDucklakeFdwOid relid

/-- The foreign tables of `ducklake_fdw` as it is now. -/
def ducklakeTable (relid : Oid) : Option ForeignTable := st.tableOf st.catalog.fdwOid relid

/-- The kept oid is the wrapper's. -/
def Current : Prop := st.getDucklakeFdwOid = st.catalog.fdwOid

variable {st}

theorem recognised_of_current (h : st.Current) (relid : Oid) : st.recognised relid = st.ducklakeTable relid :=
  congrArg (fun oid => st.tableOf oid relid) h

variable {relid : Oid} {table : ForeignTable}

theorem current_of_recognised (h : st.recognised relid = some table) :
    st.Current := by
  rw [recognised, tableOf, Option.filter_eq_some_iff] at h
  obtain ⟨hrelation, hoid⟩ := h
  unfold Current getDucklakeFdwOid at *
  cases hcached : st.cachedOid with
  | none => rfl
  | some oid =>
    rw [hcached] at hoid
    rcases st.kept oid hcached with hcurrent | hgone
    · exact hcurrent.symm
    · exact absurd (by simpa using hoid) (hgone relid table hrelation)

theorem recognised_iff :
    st.recognised relid = some table ↔ st.Current ∧ st.ducklakeTable relid = some table := by
  constructor
  · intro h
    have hcurrent := current_of_recognised h
    exact ⟨hcurrent, (recognised_of_current hcurrent relid).symm.trans h⟩
  · rintro ⟨hcurrent, h⟩
    exact (recognised_of_current hcurrent relid).trans h

end State

/-! ## The options of a table -/

def validTableOptions : List Text := ["schema_name".toList, "table_name".toList, "updatable".toList]

/-- `ducklake_fdw_validator` for the options of a foreign table. -/
def ducklakeFdwTableValidator (options : List (Text × Text)) : Except OptionError Unit :=
  match options.find? fun o => o.1 ∉ validTableOptions with
  | some o => .error (.invalidOption o.1)
  | none =>
    match getOptionValue options "updatable" with
    | none => .ok ()
    | some value =>
      if !sameIgnoringCase value "true" && !sameIgnoringCase value "false" then .error .updatableValue else .ok ()

def ForeignTable.isUpdatable (table : ForeignTable) : Bool :=
  match getOptionValue table.options "updatable" with
  | some value => sameIgnoringCase value "true"
  | none =>
    match getOptionValue table.server.options "updatable" with
    | some value => sameIgnoringCase value "true"
    | none => !table.server.isFrozenServer

/-! ## The walks -/

section Walks

variable (st : State)

mutual

def queryReferencesDucklakeForeignTable : Query → Bool
  | .mk _ _ rtable cteList _ =>
    if st.getDucklakeFdwOid.isNone then false else rtableReferences rtable || ctesReference cteList

def rtableReferences : List Rte → Bool
  | [] => false
  | rte :: rtable => rteReferences rte || rtableReferences rtable

def rteReferences : Rte → Bool
  | .subquery _ query _ => queryReferencesDucklakeForeignTable query
  | .relation relid _ => (st.recognised relid).isSome
  | .other _ => false

def ctesReference : List Query → Bool
  | [] => false
  | query :: cteList => queryReferencesDucklakeForeignTable query || ctesReference cteList

end

/-- The operation of the hint. -/
def opName : CmdType → String
  | .insert => "INSERT"
  | .update => "UPDATE"
  | .delete => "DELETE"
  | _ => "Unknown"

/-- "ducklake_fdw foreign table is not updatable". -/
structure NotUpdatable where
  op : String
  deriving DecidableEq, Repr

/-- The table that the query itself modifies, if the walk takes it for one of the wrapper. -/
def Query.resultTable (q : Query) : Option ForeignTable :=
  if q.commandType ≠ .select ∧ 0 < q.resultRelation then
    (q.rtable[q.resultRelation - 1]?).bind fun rte => st.recognised rte.relid
  else none

/-- The query modifies a table that is not updatable. -/
def Query.blocked (q : Query) : Bool := (q.resultTable st).any fun table => !table.isUpdatable

mutual

/-- The servers whose databases are attached, in turn. -/
def registerForeignTablesInQuery : Query → Except NotUpdatable (List ForeignServer)
  | .mk commandType resultRelation rtable cteList sublinks =>
    if rtable.isEmpty || st.getDucklakeFdwOid.isNone then .ok []
    else
      (registerRtable rtable).bind fun tables =>
        (registerCtes cteList).bind fun ctes =>
          if (Query.mk commandType resultRelation rtable cteList sublinks).blocked st then
            .error ⟨opName commandType⟩
          else .ok (tables ++ ctes)

def registerRtable : List Rte → Except NotUpdatable (List ForeignServer)
  | [] => .ok []
  | rte :: rtable => (registerRte rte).bind fun servers => (registerRtable rtable).map (servers ++ ·)

def registerRte : Rte → Except NotUpdatable (List ForeignServer)
  | .subquery relid query _ =>
    (registerForeignTablesInQuery query).map (· ++ ((st.recognised relid).map ForeignTable.server).toList)
  | .relation relid _ => .ok ((st.recognised relid).map ForeignTable.server).toList
  | .other _ => .ok []

def registerCtes : List Query → Except NotUpdatable (List ForeignServer)
  | [] => .ok []
  | query :: cteList =>
    (registerForeignTablesInQuery query).bind fun servers => (registerCtes cteList).map (servers ++ ·)

end

end Walks

/-! ## What a walk reaches -/

inductive Form
  | subquery
  | cte
  | sublink
  deriving DecidableEq, Repr

/-- The second query stands in the first. -/
inductive Child : Form → Query → Query → Prop
  | subquery {q c relid sublinks} : .subquery relid c sublinks ∈ q.rtable → Child .subquery q c
  | cte {q c} : c ∈ q.cteList → Child .cte q c
  | sublink {q c} : c ∈ q.sublinks → Child .sublink q c
  | rteSublink {q c rte} : rte ∈ q.rtable → c ∈ rte.sublinks → Child .sublink q c

/-- The forms that are followed at a query. -/
abbrev Walk := Query → Form → Prop

def everywhere : Walk := fun _ _ => True
def referencesWalk : Walk := fun _ form => form ≠ .sublink
def registerWalk : Walk := fun q form => form ≠ .sublink ∧ q.rtable ≠ []

def Below (walk : Walk) : Query → Query → Prop :=
  Relation.ReflTransGen fun q c => ∃ form, walk q form ∧ Child form q c

variable {c : Query}

theorem Rte.sizeOf_lt_of_mem_sublinks {rte : Rte} (h : c ∈ rte.sublinks) : sizeOf c < sizeOf rte := by
  cases rte with
  | relation relid sublinks =>
    have := List.sizeOf_lt_of_mem (show c ∈ sublinks from h)
    simp only [Rte.relation.sizeOf_spec]
    omega
  | subquery relid query sublinks =>
    have := List.sizeOf_lt_of_mem (show c ∈ sublinks from h)
    simp only [Rte.subquery.sizeOf_spec]
    omega
  | other sublinks =>
    have := List.sizeOf_lt_of_mem (show c ∈ sublinks from h)
    simp only [Rte.other.sizeOf_spec]
    omega

variable {q : Query}

theorem Child.sizeOf_lt {form : Form} (h : Child form q c) : sizeOf c < sizeOf q := by
  obtain ⟨commandType, resultRelation, rtable, cteList, sublinks⟩ := q
  rw [Query.mk.sizeOf_spec]
  cases h with
  | @subquery _ _ relid sublinks' hmem =>
    have hrte := List.sizeOf_lt_of_mem (show Rte.subquery relid c sublinks' ∈ rtable from hmem)
    rw [Rte.subquery.sizeOf_spec] at hrte
    omega
  | cte hmem =>
    have := List.sizeOf_lt_of_mem (show c ∈ cteList from hmem)
    omega
  | sublink hmem =>
    have := List.sizeOf_lt_of_mem (show c ∈ sublinks from hmem)
    omega
  | @rteSublink _ _ rte hrte hmem =>
    have hentry := List.sizeOf_lt_of_mem (show rte ∈ rtable from hrte)
    have hinner := Rte.sizeOf_lt_of_mem_sublinks hmem
    omega

variable {P : Query → Prop}

theorem Query.child_induction (step : ∀ q, (∀ form c, Child form q c → P c) → P q) (q : Query) :
    P q :=
  step q fun _ c _ => Query.child_induction step c
termination_by sizeOf q
decreasing_by exact Child.sizeOf_lt (by assumption)

variable {walk : Walk}

theorem exists_below_iff :
    (∃ q', Below walk q q' ∧ P q') ↔
      P q ∨ ∃ form c, walk q form ∧ Child form q c ∧ ∃ q', Below walk c q' ∧ P q' := by
  constructor
  · rintro ⟨q', hbelow, hq'⟩
    rcases Relation.ReflTransGen.cases_head hbelow with rfl | ⟨c, ⟨form, hwalk, hchild⟩, hrest⟩
    · exact .inl hq'
    · exact .inr ⟨form, c, hwalk, hchild, q', hrest, hq'⟩
  · rintro (hq | ⟨form, c, hwalk, hchild, q', hbelow, hq'⟩)
    · exact ⟨q, .refl, hq⟩
    · exact ⟨q', .head ⟨form, hwalk, hchild⟩ hbelow, hq'⟩

/-- The relation is in the range table of a query that the walk reaches. -/
def Query.Mentions (walk : Walk) (q : Query) (relid : Oid) : Prop :=
  ∃ q', Below walk q q' ∧ ∃ sublinks, .relation relid sublinks ∈ q'.rtable

section References

variable {st : State}

theorem rtableReferences_iff {rtable : List Rte} :
    rtableReferences st rtable = true ↔ ∃ rte ∈ rtable, rteReferences st rte = true := by
  induction rtable with
  | nil => simp [rtableReferences]
  | cons rte rtable ih => simp [rtableReferences, ih]

theorem ctesReference_iff {cteList : List Query} :
    ctesReference st cteList = true ↔ ∃ c ∈ cteList, queryReferencesDucklakeForeignTable st c = true := by
  induction cteList with
  | nil => simp [ctesReference]
  | cons c cteList ih => simp [ctesReference, ih]

theorem recognised_of_isNone (h : st.getDucklakeFdwOid.isNone = true) (relid : Oid) : st.recognised relid = none := by
  have hnone : st.getDucklakeFdwOid = none := by simpa using h
  rw [State.recognised, State.tableOf, hnone]
  simp

theorem references_eq (q : Query) : queryReferencesDucklakeForeignTable st q =
    if st.getDucklakeFdwOid.isNone then false else rtableReferences st q.rtable || ctesReference st q.cteList := by
  cases q
  rfl

theorem references_iff (q : Query) : queryReferencesDucklakeForeignTable st q = true ↔
    ∃ relid, q.Mentions referencesWalk relid ∧ (st.recognised relid).isSome = true := by
  have hpull : ∀ q : Query, (∃ relid, q.Mentions referencesWalk relid ∧ (st.recognised relid).isSome = true) ↔
      ∃ q', Below referencesWalk q q' ∧
        ∃ relid sublinks, .relation relid sublinks ∈ q'.rtable ∧ (st.recognised relid).isSome = true := by
    intro q
    constructor
    · rintro ⟨relid, ⟨q', hbelow, sublinks, hmem⟩, hsome⟩
      exact ⟨q', hbelow, relid, sublinks, hmem, hsome⟩
    · rintro ⟨q', hbelow, relid, sublinks, hmem, hsome⟩
      exact ⟨relid, ⟨q', hbelow, sublinks, hmem⟩, hsome⟩
  rw [hpull]
  induction q using Query.child_induction with
  | step q ih =>
    rw [exists_below_iff]
    rw [references_eq]
    split_ifs with hoid
    · simp only [recognised_of_isNone hoid]
      have hnever : ∀ q : Query, ¬∃ q', Below referencesWalk q q' ∧
          ∃ relid sublinks, .relation relid sublinks ∈ q'.rtable ∧ (none : Option ForeignTable).isSome = true := by
        rintro q ⟨q', -, relid, sublinks, -, hsome⟩
        cases hsome
      constructor
      · intro h
        cases h
      · rintro (⟨relid, sublinks, -, hsome⟩ | ⟨form, c, -, -, hbelow⟩)
        · cases hsome
        · exact absurd hbelow (hnever c)
    · rw [Bool.or_eq_true, rtableReferences_iff, ctesReference_iff]
      constructor
      · rintro (⟨rte, hmem, hrte⟩ | ⟨c, hmem, hc⟩)
        · cases rte with
          | relation relid sublinks => exact .inl ⟨relid, sublinks, hmem, hrte⟩
          | subquery relid c sublinks =>
            have hchild : Child .subquery q c := .subquery hmem
            exact .inr ⟨.subquery, c, by simp [referencesWalk], hchild, (ih _ c hchild).mp hrte⟩
          | other sublinks => cases hrte
        · have hchild : Child .cte q c := .cte hmem
          exact .inr ⟨.cte, c, by simp [referencesWalk], hchild, (ih _ c hchild).mp hc⟩
      · rintro (⟨relid, sublinks, hmem, hsome⟩ | ⟨form, c, hwalk, hchild, hbelow⟩)
        · exact .inl ⟨_, hmem, hsome⟩
        · have hc := (ih form c hchild).mpr hbelow
          cases hchild with
          | subquery hmem => exact .inl ⟨_, hmem, hc⟩
          | cte hmem => exact .inr ⟨c, hmem, hc⟩
          | sublink hmem => exact absurd rfl hwalk
          | rteSublink hrte hmem => exact absurd rfl hwalk

end References

section Register

variable {st : State}

/-- A walk is refused, or attaches the servers. -/
def Yields (result : Except NotUpdatable (List ForeignServer)) (refused : Prop) (attached : ForeignServer → Prop) :
    Prop :=
  match result with
  | .error _ => refused
  | .ok servers => ¬refused ∧ ∀ server, server ∈ servers ↔ attached server

variable {p : Prop} {a b : ForeignServer → Prop}

theorem Yields.congr {result : Except NotUpdatable (List ForeignServer)} {q : Prop} (h : Yields result p a)
    (hp : p ↔ q) (ha : ∀ server, a server ↔ b server) : Yields result q b := by
  obtain rfl : p = q := propext hp
  obtain rfl : a = b := funext fun server => propext (ha server)
  exact h

variable {first rest : Except NotUpdatable (List ForeignServer)}

theorem Yields.append {q : Prop} (hfirst : Yields first p a) (hrest : Yields rest q b) :
    Yields (first.bind fun servers => rest.map (servers ++ ·)) (p ∨ q) (fun server => a server ∨ b server) := by
  cases first with
  | error e => exact .inl hfirst
  | ok servers =>
    cases rest with
    | error e => exact .inr hrest
    | ok servers' =>
      refine ⟨not_or.mpr ⟨hfirst.1, hrest.1⟩, fun server => ?_⟩
      rw [List.mem_append, hfirst.2, hrest.2]

variable (st) in
/-- A query that the walk reaches modifies a table that is not updatable. -/
def Query.Refused (q : Query) : Prop := ∃ q', Below registerWalk q q' ∧ q'.blocked st = true

variable (st) in
/-- A table of the server is where the walk goes. -/
def Query.Attaches (q : Query) (server : ForeignServer) : Prop :=
  ∃ q', Below registerWalk q q' ∧ ∃ rte ∈ q'.rtable, ∃ table, st.recognised rte.relid = some table ∧ table.server = server

variable (st) in
/-- What an entry of the range table adds. -/
def Rte.Refused : Rte → Prop
  | .subquery _ query _ => query.Refused st
  | _ => False

variable (st) in
def Rte.Attaches (rte : Rte) (server : ForeignServer) : Prop :=
  (∃ relid query sublinks, rte = .subquery relid query sublinks ∧ query.Attaches st server) ∨
    ∃ table, st.recognised rte.relid = some table ∧ table.server = server

theorem mem_server_iff {table : Option ForeignTable} {server : ForeignServer} :
    server ∈ (table.map ForeignTable.server).toList ↔ ∃ t, table = some t ∧ t.server = server := by
  cases table <;> simp [eq_comm]

theorem recognised_zero : st.recognised 0 = none := by
  rw [State.recognised, State.tableOf, st.catalog.invalid]
  rfl

theorem registerRte_yields (rte : Rte)
    (h : ∀ relid query sublinks, rte = .subquery relid query sublinks →
      Yields (registerForeignTablesInQuery st query) (query.Refused st) (query.Attaches st)) :
    Yields (registerRte st rte) (rte.Refused st) (rte.Attaches st) := by
  cases rte with
  | relation relid sublinks =>
    refine ⟨id, fun server => ?_⟩
    rw [mem_server_iff, Rte.Attaches]
    simp [Rte.relid]
  | other sublinks =>
    refine ⟨id, fun server => ?_⟩
    simp [Rte.Attaches, Rte.relid, recognised_zero]
  | subquery relid query sublinks =>
    have hquery := h relid query sublinks rfl
    rw [registerRte]
    cases hresult : registerForeignTablesInQuery st query with
    | error e =>
      rw [hresult] at hquery
      exact hquery
    | ok servers =>
      rw [hresult] at hquery
      refine ⟨hquery.1, fun server => ?_⟩
      rw [List.mem_append, hquery.2, mem_server_iff, Rte.Attaches]
      simp [Rte.relid]

theorem registerRtable_yields (rtable : List Rte)
    (h : ∀ rte ∈ rtable, Yields (registerRte st rte) (rte.Refused st) (rte.Attaches st)) :
    Yields (registerRtable st rtable) (∃ rte ∈ rtable, rte.Refused st)
      (fun server => ∃ rte ∈ rtable, rte.Attaches st server) := by
  induction rtable with
  | nil => exact ⟨by simp, by simp⟩
  | cons rte rtable ih =>
    have hrest := ih fun rte hrte => h rte (List.mem_cons_of_mem _ hrte)
    exact ((h rte List.mem_cons_self).append hrest).congr (by simp) (by simp)

theorem registerCtes_yields (cteList : List Query)
    (h : ∀ c ∈ cteList, Yields (registerForeignTablesInQuery st c) (c.Refused st) (c.Attaches st)) :
    Yields (registerCtes st cteList) (∃ c ∈ cteList, c.Refused st)
      (fun server => ∃ c ∈ cteList, c.Attaches st server) := by
  induction cteList with
  | nil => exact ⟨by simp, by simp⟩
  | cons c cteList ih =>
    have hrest := ih fun c hc => h c (List.mem_cons_of_mem _ hc)
    exact ((h c List.mem_cons_self).append hrest).congr (by simp) (by simp)

theorem register_eq (q : Query) : registerForeignTablesInQuery st q =
    if q.rtable.isEmpty || st.getDucklakeFdwOid.isNone then .ok []
    else
      (registerRtable st q.rtable).bind fun tables =>
        (registerCtes st q.cteList).bind fun ctes =>
          if q.blocked st then .error ⟨opName q.commandType⟩ else .ok (tables ++ ctes) := by
  cases q
  rfl

variable {q : Query}

theorem registerWalk_iff {R : Query → Prop} :
    (∃ form c, registerWalk q form ∧ Child form q c ∧ R c) ↔
      q.rtable ≠ [] ∧ ((∃ relid c sublinks, .subquery relid c sublinks ∈ q.rtable ∧ R c) ∨ ∃ c ∈ q.cteList, R c) := by
  constructor
  · rintro ⟨form, c, ⟨hform, hrtable⟩, hchild, hc⟩
    refine ⟨hrtable, ?_⟩
    cases hchild with
    | subquery hmem => exact .inl ⟨_, c, _, hmem, hc⟩
    | cte hmem => exact .inr ⟨c, hmem, hc⟩
    | sublink hmem => exact absurd rfl hform
    | rteSublink hrte hmem => exact absurd rfl hform
  · rintro ⟨hrtable, ⟨relid, c, sublinks, hmem, hc⟩ | ⟨c, hmem, hc⟩⟩
    · exact ⟨.subquery, c, ⟨by simp, hrtable⟩, .subquery hmem, hc⟩
    · exact ⟨.cte, c, ⟨by simp, hrtable⟩, .cte hmem, hc⟩

theorem refused_iff (q : Query) : q.Refused st ↔
    q.blocked st = true ∨ q.rtable ≠ [] ∧ ((∃ rte ∈ q.rtable, rte.Refused st) ∨ ∃ c ∈ q.cteList, c.Refused st) := by
  unfold Query.Refused
  rw [exists_below_iff, registerWalk_iff]
  refine or_congr_right (and_congr_right fun _ => or_congr_left ?_)
  constructor
  · rintro ⟨relid, c, sublinks, hmem, hc⟩
    exact ⟨_, hmem, hc⟩
  · rintro ⟨rte, hmem, hrte⟩
    cases rte with
    | subquery relid c sublinks => exact ⟨relid, c, sublinks, hmem, hrte⟩
    | relation relid sublinks => exact hrte.elim
    | other sublinks => exact hrte.elim

theorem attaches_iff (hne : q.rtable ≠ []) (server : ForeignServer) : q.Attaches st server ↔
    (∃ rte ∈ q.rtable, rte.Attaches st server) ∨ ∃ c ∈ q.cteList, c.Attaches st server := by
  unfold Query.Attaches
  rw [exists_below_iff, registerWalk_iff]
  constructor
  · rintro (⟨rte, hmem, htable⟩ | ⟨-, ⟨relid, c, sublinks, hmem, hc⟩ | hcte⟩)
    · exact .inl ⟨rte, hmem, .inr htable⟩
    · exact .inl ⟨_, hmem, .inl ⟨relid, c, sublinks, rfl, hc⟩⟩
    · exact .inr hcte
  · rintro (⟨rte, hmem, ⟨relid, c, sublinks, rfl, hc⟩ | htable⟩ | hcte)
    · exact .inr ⟨hne, .inl ⟨relid, c, sublinks, hmem, hc⟩⟩
    · exact .inl ⟨rte, hmem, htable⟩
    · exact .inr ⟨hne, .inr hcte⟩

theorem Yields.finish {q : Prop} (hfirst : Yields first p a) (hrest : Yields rest q b) (flag : Bool)
    (e : NotUpdatable) :
    Yields (first.bind fun tables => rest.bind fun ctes => if flag then .error e else .ok (tables ++ ctes))
      (flag = true ∨ p ∨ q) (fun server => a server ∨ b server) := by
  cases first with
  | error e => exact .inr (.inl hfirst)
  | ok servers =>
    cases rest with
    | error e => exact .inr (.inr hrest)
    | ok servers' =>
      cases flag with
      | true => exact .inl rfl
      | false =>
        refine ⟨by simp [hfirst.1, hrest.1], fun server => ?_⟩
        rw [List.mem_append, hfirst.2, hrest.2]

theorem blocked_of_unrecognised (h : ∀ rte ∈ q.rtable, st.recognised rte.relid = none) :
    q.blocked st = false := by
  have hnone : q.resultTable st = none := by
    unfold Query.resultTable
    split_ifs
    · cases hrte : q.rtable[q.resultRelation - 1]? with
      | none => rfl
      | some rte => exact h rte (List.mem_of_getElem? hrte)
    · rfl
  rw [Query.blocked, hnone]
  rfl

theorem register_yields (q : Query) :
    Yields (registerForeignTablesInQuery st q) (q.Refused st) (q.Attaches st) := by
  induction q using Query.child_induction with
  | step q ih =>
    rw [register_eq]
    by_cases hstop : (q.rtable.isEmpty || st.getDucklakeFdwOid.isNone) = true
    · rw [if_pos hstop]
      -- Nothing is looked at: there is no range table, or no wrapper.
      rw [Bool.or_eq_true, List.isEmpty_iff] at hstop
      rcases hstop with hempty | hoid
      · have hblocked : q.blocked st = false := blocked_of_unrecognised (by simp [hempty])
        refine ⟨?_, fun server => ?_⟩
        · rw [refused_iff, hblocked]
          simp [hempty]
        · unfold Query.Attaches
          rw [exists_below_iff, registerWalk_iff]
          simp [hempty]
      · refine ⟨?_, fun server => ?_⟩
        · rintro ⟨q', -, hblocked⟩
          rw [blocked_of_unrecognised fun rte _ => recognised_of_isNone hoid rte.relid] at hblocked
          cases hblocked
        · simp [Query.Attaches, recognised_of_isNone hoid]
    · rw [if_neg hstop]
      have hne : q.rtable ≠ [] := by
        intro hempty
        simp [hempty] at hstop
      have hrtable := @registerRtable_yields st q.rtable fun rte hrte =>
        registerRte_yields rte fun relid c sublinks heq => ih .subquery c (.subquery (heq ▸ hrte))
      have hctes := @registerCtes_yields st q.cteList fun c hc => ih .cte c (.cte hc)
      refine (hrtable.finish hctes (q.blocked st) _).congr ?_ fun server => (attaches_iff hne server).symm
      rw [refused_iff, and_iff_right hne]

end Register

/-! ## The planner hook -/

/-- The session; `initialized` says whether there is a DuckDB instance yet. -/
structure Session where
  state : State
  role : Role
  initialized : Bool

/-- The servers attached for the query, and whether it is handed to DuckDB. -/
structure Routed where
  attached : List ForeignServer
  toDuckDB : Bool

/-- The part of `DucklakePlannerHook` that concerns foreign tables; `forced` says that something else in the query asks
for DuckDB. -/
def ducklakePlannerHook (session : Session) (forced : Bool) (q : Query) : Except NotUpdatable Routed :=
  (if session.initialized then registerForeignTablesInQuery session.state q else .ok []).map fun attached =>
    ⟨attached, forced || queryReferencesDucklakeForeignTable session.state q⟩

/-- What ATTACH makes of a server: the database, and the name under which queries find it. -/
def ForeignServer.database (role : Role) (server : ForeignServer) : Text × Target :=
  (server.getDatabaseAlias role, server.target role)

/-- Foreign tables are found, wherever they are. -/
def Found (st : State) (q : Query) : Prop :=
  queryReferencesDucklakeForeignTable st q = true ↔
    ∃ relid, q.Mentions everywhere relid ∧ (st.ducklakeTable relid).isSome = true

/-- A query that is handed to DuckDB has its databases attached. -/
def DatabasesAttached (session : Session) (forced : Bool) (q : Query) : Prop :=
  ∀ routed, ducklakePlannerHook session forced q = .ok routed → routed.toDuckDB = true →
    ∀ relid table, q.Mentions everywhere relid → session.state.ducklakeTable relid = some table →
      ∃ server ∈ routed.attached, server.database session.role = table.server.database session.role

/-- The walks reach enough: with a foreign table anywhere, one is where the first walk goes, and the session's oid of the
wrapper is its oid; if the query is not refused, there is a DuckDB instance and the second walk comes to a table of the
same database. -/
structure Reached (session : Session) (q : Query) : Prop where
  found : ∀ relid, q.Mentions everywhere relid → (session.state.ducklakeTable relid).isSome = true →
    session.state.Current ∧
      ∃ relid', q.Mentions referencesWalk relid' ∧ (session.state.ducklakeTable relid').isSome = true
  attached : (session.initialized = true → ¬q.Refused session.state) →
    ∀ relid table, q.Mentions everywhere relid → session.state.ducklakeTable relid = some table →
      session.initialized = true ∧ session.state.Current ∧
        ∃ q', Below registerWalk q q' ∧ ∃ rte ∈ q'.rtable, ∃ table', session.state.ducklakeTable rte.relid = some table' ∧
          table'.server.database session.role = table.server.database session.role

theorem below_mono {walk' : Walk} (h : ∀ q form, walk q form → walk' q form) {q' : Query} (hbelow : Below walk q q') :
    Below walk' q q' := by
  induction hbelow with
  | refl => exact .refl
  | tail _ hstep ih =>
    obtain ⟨form, hwalk, hchild⟩ := hstep
    exact ih.tail ⟨form, h _ _ hwalk, hchild⟩

theorem Query.Mentions.everywhere {walk : Walk} {q : Query} {relid : Oid} (h : q.Mentions walk relid) :
    q.Mentions everywhere relid := by
  obtain ⟨q', hbelow, hmem⟩ := h
  exact ⟨q', below_mono (fun _ _ _ => trivial) hbelow, hmem⟩

theorem recognised_isSome_iff {st : State} {relid : Oid} :
    (st.recognised relid).isSome = true ↔ st.Current ∧ (st.ducklakeTable relid).isSome = true := by
  simp only [Option.isSome_iff_exists, State.recognised_iff, exists_and_left]

theorem found_iff (st : State) (q : Query) : Found st q ↔
    ∀ relid, q.Mentions everywhere relid → (st.ducklakeTable relid).isSome = true →
      st.Current ∧ ∃ relid', q.Mentions referencesWalk relid' ∧ (st.ducklakeTable relid').isSome = true := by
  unfold Found
  simp only [references_iff, recognised_isSome_iff]
  constructor
  · intro h relid hmentions htable
    obtain ⟨relid', hmentions', hcurrent, htable'⟩ := h.mpr ⟨relid, hmentions, htable⟩
    exact ⟨hcurrent, relid', hmentions', htable'⟩
  · intro h
    constructor
    · rintro ⟨relid, hmentions, -, htable⟩
      exact ⟨relid, hmentions.everywhere, htable⟩
    · rintro ⟨relid, hmentions, htable⟩
      obtain ⟨hcurrent, relid', hmentions', htable'⟩ := h relid hmentions htable
      exact ⟨relid', hmentions', hcurrent, htable'⟩

theorem hook_ok_iff (session : Session) (forced : Bool) (q : Query) :
    (∃ routed, ducklakePlannerHook session forced q = .ok routed) ↔
      (session.initialized = true → ¬q.Refused session.state) := by
  have hyields := @register_yields session.state q
  unfold ducklakePlannerHook
  cases hinit : session.initialized with
  | false => exact iff_of_true ⟨_, rfl⟩ (by simp)
  | true =>
    cases hresult : registerForeignTablesInQuery session.state q with
    | error e =>
      rw [hresult] at hyields
      exact iff_of_false (by rintro ⟨routed, h⟩; cases h) fun h => h rfl hyields
    | ok servers =>
      rw [hresult] at hyields
      exact iff_of_true ⟨_, rfl⟩ fun _ => hyields.1

theorem hook_attached {session : Session} {forced : Bool} {routed : Routed}
    (h : ducklakePlannerHook session forced q = .ok routed) :
    routed.toDuckDB = (forced || queryReferencesDucklakeForeignTable session.state q) ∧
      ∀ server, server ∈ routed.attached ↔ session.initialized = true ∧ q.Attaches session.state server := by
  have hyields := @register_yields session.state q
  unfold ducklakePlannerHook at h
  cases hinit : session.initialized with
  | false =>
    rw [hinit] at h
    cases h
    exact ⟨rfl, by simp⟩
  | true =>
    rw [hinit, if_pos rfl] at h
    cases hresult : registerForeignTablesInQuery session.state q with
    | error e =>
      rw [hresult] at h
      cases h
    | ok servers =>
      rw [hresult] at h hyields
      cases h
      exact ⟨rfl, by simpa using hyields.2⟩

/-- Every foreign table is found and its database attached, exactly for queries that the walks reach enough of. -/
theorem foreign_tables_found_iff (session : Session) (forced : Bool) (q : Query) :
    Found session.state q ∧ DatabasesAttached session forced q ↔ Reached session q := by
  constructor
  · rintro ⟨hfound, hattached⟩
    refine ⟨(found_iff _ q).mp hfound, fun haccepted relid table hmentions htable => ?_⟩
    have hrefers : queryReferencesDucklakeForeignTable session.state q = true :=
      hfound.mpr ⟨relid, hmentions, by rw [htable]; rfl⟩
    obtain ⟨routed, hhook⟩ := (hook_ok_iff session forced q).mpr haccepted
    obtain ⟨hto, hservers⟩ := hook_attached hhook
    rw [hrefers, Bool.or_true] at hto
    obtain ⟨server, hserver, hdatabase⟩ := hattached routed hhook hto relid table hmentions htable
    obtain ⟨hinit, q', hbelow, rte, hrte, table', hrecognised, rfl⟩ := (hservers server).mp hserver
    obtain ⟨hcurrent, htable'⟩ := State.recognised_iff.mp hrecognised
    exact ⟨hinit, hcurrent, q', hbelow, rte, hrte, table', htable', hdatabase⟩
  · rintro ⟨hfound, hattached⟩
    refine ⟨(found_iff _ q).mpr hfound, fun routed hhook _ relid table hmentions htable => ?_⟩
    have haccepted := (hook_ok_iff session forced q).mp ⟨routed, hhook⟩
    obtain ⟨hinit, hcurrent, q', hbelow, rte, hrte, table', htable', hdatabase⟩ :=
      hattached haccepted relid table hmentions htable
    have hrecognised := State.recognised_iff.mpr ⟨hcurrent, htable'⟩
    refine ⟨table'.server, ((hook_attached hhook).2 _).mpr ⟨hinit, ?_⟩, hdatabase⟩
    exact ⟨q', hbelow, rte, hrte, table', hrecognised, rfl⟩

/-! ## A table in a sublink -/

/-- A catalog with one foreign table, with the oid 1. -/
def oneTable (table : ForeignTable) : State where
  catalog := ⟨some table.fdwid, fun relid => if relid = 1 then some table else none, rfl⟩
  cachedOid := none
  kept := by simp

/-- SELECT (SELECT … FROM the table). -/
def inSublink : Query := .mk .select 0 [] [] [.mk .select 0 [.relation 1 []] [] []]

/-- The query is planned by PostgreSQL, where scans of the table are errors. -/
theorem sublink_not_found :
    queryReferencesDucklakeForeignTable (oneTable ⟨1, ⟨"s".toList, []⟩, []⟩) inSublink = false ∧
      ∃ relid, inSublink.Mentions everywhere relid ∧
        ((oneTable ⟨1, ⟨"s".toList, []⟩, []⟩).ducklakeTable relid).isSome = true := by
  refine ⟨rfl, 1, ⟨.mk .select 0 [.relation 1 []] [] [], .single ⟨.sublink, trivial, .sublink ?_⟩, [], ?_⟩, rfl⟩
  · exact List.mem_singleton.mpr rfl
  · exact List.mem_singleton.mpr rfl

end PgDucklake.Fdw
