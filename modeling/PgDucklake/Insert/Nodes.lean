import Mathlib.Data.List.Basic

/-!
# Expression trees

PostgreSQL's expression nodes as the direct insert planner meets them. A node is a head, with the fields of its own that
the planner or the executor reads, over the list of its child expressions, in the order in which
`expression_tree_walker` visits them.
-/

namespace PgDucklake.Insert

abbrev Oid := UInt32

def invalidOid : Oid := 0

/-- `OidIsValid`. -/
def oidIsValid (oid : Oid) : Bool := oid != invalidOid

inductive ParamKind
  | paramExtern
  | paramExec
  | paramSublink
  | paramMultiexpr
  deriving DecidableEq, Repr

/-- The node kinds that share the fields of `OpExpr`. -/
inductive OpKind
  | opExpr
  | distinctExpr
  | nullIfExpr
  deriving DecidableEq, Repr

/-- The node kinds that call no function of the catalog themselves. The element coercion of an `ArrayCoerceExpr` is one
of its children. -/
inductive PlainKind
  | boolExpr
  | caseExpr
  | caseWhen
  | caseTestExpr
  | coalesceExpr
  | nullTest
  | booleanTest
  | relabelType
  | arrayExpr
  | rowExpr
  | arrayCoerceExpr
  | convertRowtypeExpr
  | collateExpr
  | subscriptingRef
  | fieldSelect
  | fieldStore
  | namedArgExpr
  | sqlValueFunction
  | xmlExpr
  | setToDefault
  deriving DecidableEq, Repr

/-- The tag of a node with its own fields. -/
inductive Head
  | const (consttype : Oid) (constvalue : Option UInt64)
  | var (varno : Nat) (varattno : Int)
  | param (paramkind : ParamKind) (paramid : Int) (paramtype : Oid)
  | aggref (aggfnoid : Oid)
  | groupingFunc
  | windowFunc (winfnoid : Oid)
  | subLink
  | subPlan
  | alternativeSubPlan
  | currentOfExpr
  | funcExpr (funcid : Oid) (funcretset : Bool) (funcresulttype : Oid)
  | opExpr (kind : OpKind) (opno opfuncid : Oid) (opretset : Bool)
  | scalarArrayOpExpr (opno opfuncid : Oid)
  | coerceViaIo (argtype resulttype : Oid)
  | rowCompareExpr (opnos : List Oid)
  | minMaxExpr (minmaxtype : Oid)
  | coerceToDomain (resulttype : Oid)
  | nextValueExpr (seqid : Oid)
  | plain (kind : PlainKind)
  deriving DecidableEq, Repr

inductive Expr
  | node (head : Head) (args : List Expr)

mutual

/-- The heads of all nodes of an expression. -/
def Expr.heads : Expr → List Head
  | .node head args => head :: headsAll args

def headsAll : List Expr → List Head
  | [] => []
  | e :: es => e.heads ++ headsAll es

end

/-- A function or an operator that returns a set. -/
def Head.returnsSet : Head → Bool
  | .funcExpr _ funcretset _ => funcretset
  | .opExpr _ _ _ opretset => opretset
  | _ => false

/-- `expression_returns_set`. -/
def Expr.returnsSet (e : Expr) : Bool := e.heads.any Head.returnsSet

end PgDucklake.Insert
