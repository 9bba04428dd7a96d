import Mathlib.Data.List.Basic

/-!
# View privileges

A query that DuckDB runs gets a plan without permission infos, so its view privileges are checked before planning, by a
walk over the query tree. The walk follows range tables and WITH queries (`checkViewPermsRecursive_ok`); it does not
enter expressions, where sublinks hold further queries. A denied view is therefore noticed exactly if a denied view
stands outside the sublinks (`denied_view_raises_iff`).
-/

namespace PgDucklake.Planner

/-- The privileges that a query needs on a relation, and the role that needs them. -/
structure PermissionInfo where
  relid : Nat
  requiredPerms : Nat
  checkAsUser : Nat
  deriving DecidableEq, Repr

inductive RelKind
  | view
  | other
  deriving DecidableEq, Repr

mutual

/-- An analysed and rewritten query: range table, WITH queries, and all expressions (target list, conditions of the join
tree, HAVING, LIMIT, RETURNING and so on). The arms of a set operation are subqueries of the range table. -/
inductive Query
  | mk (rtable : List RangeTblEntry) (cteList : List Query) (expressions : List Expr)

/-- A range table entry: the permission info that `perminfoindex` points to, the subquery (for a view, its definition),
and the expressions of functions and VALUES lists. -/
inductive RangeTblEntry
  | mk (relkind : RelKind) (perminfo : Option PermissionInfo) (subquery : Option Query) (expressions : List Expr)

/-- An expression, as far as it can hold queries. -/
inductive Expr
  | node (args : List Expr)
  | subLink (testexpr : List Expr) (subselect : Query)

end

/-- `aclcheck_error`: permission denied for the view. -/
structure AclError where
  relid : Nat
  deriving DecidableEq, Repr

inductive PlanError
  | permissionDenied (error : AclError)
  | failed (message : String)
  deriving DecidableEq, Repr

/-- The check of one range table entry. -/
def checkEntry (granted : PermissionInfo → Bool) (relkind : RelKind) (perminfo : Option PermissionInfo) :
    Except AclError Unit :=
  match relkind, perminfo with
  | .view, some info => if granted info then .ok () else .error ⟨info.relid⟩
  | _, _ => .ok ()

mutual

/-- `granted` is PostgreSQL's check of one permission info. -/
def checkViewPermsRecursive (granted : PermissionInfo → Bool) : Query → Except AclError Unit
  | .mk rtable cteList _ => do
    checkRtable granted rtable
    checkCtes granted cteList

def checkRtable (granted : PermissionInfo → Bool) : List RangeTblEntry → Except AclError Unit
  | [] => .ok ()
  | .mk relkind perminfo subquery _ :: rtable => do
    checkEntry granted relkind perminfo
    checkSubquery granted subquery
    checkRtable granted rtable

def checkSubquery (granted : PermissionInfo → Bool) : Option Query → Except AclError Unit
  | none => .ok ()
  | some query => checkViewPermsRecursive granted query

def checkCtes (granted : PermissionInfo → Bool) : List Query → Except AclError Unit
  | [] => .ok ()
  | query :: queries => do
    checkViewPermsRecursive granted query
    checkCtes granted queries

end

/-- `createPlan` is the preparation of the query in DuckDB; it may fail or give no plan. -/
def planNode {P : Type} (granted : PermissionInfo → Bool) (createPlan : Query → Except String (Option P))
    (parse : Query) : Except PlanError (Option P) :=
  match checkViewPermsRecursive granted parse with
  | .error e => .error (.permissionDenied e)
  | .ok () =>
    match createPlan parse with
    | .error message => .error (.failed message)
    | .ok plan => .ok plan

/-! ## The views of a query -/

/-- The permission info of an entry, if it is a view. -/
def entryView (relkind : RelKind) (perminfo : Option PermissionInfo) : List PermissionInfo :=
  match relkind, perminfo with
  | .view, some info => [info]
  | _, _ => []

mutual

/-- The views of a query, by their permission infos: those in its range tables and WITH queries, to any depth, and if
`sublinks` is set those in the expressions as well. -/
def Query.views (sublinks : Bool) : Query → List PermissionInfo
  | .mk rtable cteList expressions =>
    rtableViews sublinks rtable ++ queriesViews sublinks cteList ++ expressionsViews sublinks expressions

def rtableViews (sublinks : Bool) : List RangeTblEntry → List PermissionInfo
  | [] => []
  | .mk relkind perminfo subquery expressions :: rtable =>
    entryView relkind perminfo ++ subqueryViews sublinks subquery ++ expressionsViews sublinks expressions ++
      rtableViews sublinks rtable

def subqueryViews (sublinks : Bool) : Option Query → List PermissionInfo
  | none => []
  | some query => query.views sublinks

def queriesViews (sublinks : Bool) : List Query → List PermissionInfo
  | [] => []
  | query :: queries => query.views sublinks ++ queriesViews sublinks queries

def Expr.views (sublinks : Bool) : Expr → List PermissionInfo
  | .node args => expressionsViews sublinks args
  | .subLink testexpr subselect =>
    expressionsViews sublinks testexpr ++ if sublinks then subselect.views sublinks else []

def expressionsViews (sublinks : Bool) : List Expr → List PermissionInfo
  | [] => []
  | expr :: exprs => expr.views sublinks ++ expressionsViews sublinks exprs

end

mutual

theorem Expr.views_false : ∀ e : Expr, e.views false = []
  | .node args => by
    simp only [Expr.views]
    exact expressionsViews_false args
  | .subLink testexpr _ => by
    simp only [Expr.views, expressionsViews_false testexpr]
    rfl

theorem expressionsViews_false : ∀ es : List Expr, expressionsViews false es = []
  | [] => rfl
  | e :: es => by simp [expressionsViews, e.views_false, expressionsViews_false es]

end

/-! ## What the walk checks -/

theorem seq_eq_ok {ε : Type} {x y : Except ε Unit} : (do x; y) = .ok () ↔ x = .ok () ∧ y = .ok () := by
  cases x with
  | error e => simp [bind, Except.bind]
  | ok u => simp [bind, Except.bind]

section Walk

variable (granted : PermissionInfo → Bool)

theorem checkEntry_ok (relkind : RelKind) (perminfo : Option PermissionInfo) :
    checkEntry granted relkind perminfo = .ok () ↔ ∀ info ∈ entryView relkind perminfo, granted info = true := by
  cases relkind with
  | other => simp [checkEntry, entryView]
  | view =>
    cases perminfo with
    | none => simp [checkEntry, entryView]
    | some info =>
      simp only [checkEntry, entryView, List.mem_singleton, forall_eq]
      split <;> simp_all

mutual

theorem checkViewPermsRecursive_ok : ∀ q : Query,
    checkViewPermsRecursive granted q = .ok () ↔ ∀ info ∈ q.views false, granted info = true
  | .mk rtable cteList expressions => by
    rw [checkViewPermsRecursive, seq_eq_ok, checkRtable_ok rtable, checkCtes_ok cteList, Query.views,
      expressionsViews_false, List.append_nil]
    simp only [List.mem_append, or_imp, forall_and]

theorem checkRtable_ok : ∀ rtable : List RangeTblEntry,
    checkRtable granted rtable = .ok () ↔ ∀ info ∈ rtableViews false rtable, granted info = true
  | [] => by simp [checkRtable, rtableViews]
  | .mk relkind perminfo subquery expressions :: rtable => by
    rw [checkRtable, seq_eq_ok, seq_eq_ok, checkEntry_ok, checkSubquery_ok subquery, checkRtable_ok rtable, rtableViews,
      expressionsViews_false, List.append_nil]
    simp only [List.mem_append, or_imp, forall_and, and_assoc]

theorem checkSubquery_ok : ∀ subquery : Option Query,
    checkSubquery granted subquery = .ok () ↔ ∀ info ∈ subqueryViews false subquery, granted info = true
  | none => by simp [checkSubquery, subqueryViews]
  | some query => by
    rw [checkSubquery, subqueryViews]
    exact checkViewPermsRecursive_ok query

theorem checkCtes_ok : ∀ queries : List Query,
    checkCtes granted queries = .ok () ↔ ∀ info ∈ queriesViews false queries, granted info = true
  | [] => by simp [checkCtes, queriesViews]
  | query :: queries => by
    rw [checkCtes, seq_eq_ok, checkViewPermsRecursive_ok query, checkCtes_ok queries, queriesViews]
    simp only [List.mem_append, or_imp, forall_and]

end

end Walk

/-! ## What the walk misses -/

variable {P : Type}

theorem planNode_denied {granted : PermissionInfo → Bool} {createPlan : Query → Except String (Option P)} {q : Query} :
    (∃ e, planNode granted createPlan q = .error (.permissionDenied e)) ↔
      ∃ info ∈ q.views false, granted info = false := by
  have hwalk := checkViewPermsRecursive_ok granted q
  constructor
  · rintro ⟨e, he⟩
    by_contra hnone
    have hok : checkViewPermsRecursive granted q = .ok () := hwalk.mpr fun info hinfo => by
      by_contra hdenied
      exact hnone ⟨info, hinfo, by simpa using hdenied⟩
    simp only [planNode, hok] at he
    split at he <;> cases he
  · rintro ⟨info, hinfo, hdenied⟩
    cases hcheck : checkViewPermsRecursive granted q with
    | error e => exact ⟨e, by simp [planNode, hcheck]⟩
    | ok u =>
      have hgranted := hwalk.mp hcheck info hinfo
      rw [hdenied] at hgranted
      cases hgranted

/-- A denied view makes planning fail, whatever view of the query it is, exactly if some denied view stands outside the
sublinks. -/
theorem denied_view_raises_iff (granted : PermissionInfo → Bool) (createPlan : Query → Except String (Option P))
    (q : Query) :
    (∀ info ∈ q.views true, granted info = false →
      ∃ e, planNode granted createPlan q = .error (.permissionDenied e)) ↔
    (∀ info ∈ q.views true, granted info = false → ∃ other ∈ q.views false, granted other = false) := by
  simp only [planNode_denied]

/-- `SELECT 1 WHERE EXISTS (SELECT 1 FROM v)`. -/
def existsView : Query := .mk [] [] [.subLink [] (.mk [.mk .view (some ⟨7, 2, 10⟩) none []] [] [])]

/-- Nothing is granted, and the query is planned. -/
theorem sublink_view_planned :
    ∃ info ∈ existsView.views true, (fun _ => false : PermissionInfo → Bool) info = false ∧
      planNode (fun _ => false) (fun _ => .ok (some ())) existsView = .ok (some ()) := by
  exact ⟨⟨7, 2, 10⟩, by decide, rfl, rfl⟩

end PgDucklake.Planner
