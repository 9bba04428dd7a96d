import PgDucklake.Insert.Nodes

/-!
# The gate of the VALUES producer

`IsAcceptableValuesExpr` walks an expression and refuses what needs a tuple stream, an outer query or an aggregate, and
the volatile functions of calls and operators. Functions behind other nodes are not looked at, and neither is whether a
function returns a set: `gate_admits_iff` says that these two are all that separates an accepted expression from one
without volatile functions, sublinks, aggregates, window functions and set-returning functions.
-/

namespace PgDucklake.Insert

/-- What the catalogs say about functions. -/
structure Functions where
  /-- `func_volatile(funcid) == PROVOLATILE_VOLATILE`. -/
  isVolatile : Oid → Bool
  /-- The function behind an operator. -/
  opcode : Oid → Oid
  /-- The comparison function that a row comparison calls for an operator. -/
  orderProc : Oid → Oid
  /-- The comparison function that GREATEST and LEAST call for a type. -/
  cmpProc : Oid → Oid
  /-- The input and output functions of a type. -/
  typinput : Oid → Oid
  typoutput : Oid → Oid
  /-- The functions that the constraints of a domain call. -/
  domainChecks : Oid → List Oid
  nextval : Oid

variable (cat : Functions)

/-- The nodes at which `ValuesExprUnsafeWalker` stops whatever their fields are. -/
def Head.needsContext : Head → Bool
  | .var .. | .param .. | .aggref _ | .groupingFunc | .windowFunc _ | .subLink | .subPlan | .alternativeSubPlan
  | .currentOfExpr => true
  | _ => false

/-- The calls that it finds to be volatile; an operator whose function is not resolved yet counts as volatile. -/
def Head.volatileCall : Head → Bool
  | .funcExpr funcid _ _ => cat.isVolatile funcid
  | .opExpr _ _ opfuncid _ => if !oidIsValid opfuncid then true else cat.isVolatile opfuncid
  | _ => false

mutual

def valuesExprUnsafeWalker : Expr → Bool
  | .node head args =>
    if head.needsContext then true
    else if head.volatileCall cat then true
    else expressionTreeWalker args

/-- `expression_tree_walker` with the walker above. -/
def expressionTreeWalker : List Expr → Bool
  | [] => false
  | e :: es => if valuesExprUnsafeWalker e then true else expressionTreeWalker es

end

def isAcceptableValuesExpr (e : Expr) : Bool := !valuesExprUnsafeWalker cat e

/-! ## What an expression executes -/

/-- The functions that the executor calls for a node. -/
def Head.executes : Head → List Oid
  | .funcExpr funcid _ _ => [funcid]
  | .opExpr _ opno opfuncid _ | .scalarArrayOpExpr opno opfuncid =>
    [if oidIsValid opfuncid then opfuncid else cat.opcode opno]
  | .coerceViaIo argtype resulttype => [cat.typoutput argtype, cat.typinput resulttype]
  | .rowCompareExpr opnos => opnos.map cat.orderProc
  | .minMaxExpr minmaxtype => [cat.cmpProc minmaxtype]
  | .coerceToDomain resulttype => cat.domainChecks resulttype
  | .nextValueExpr _ => [cat.nextval]
  | .aggref aggfnoid => [aggfnoid]
  | .windowFunc winfnoid => [winfnoid]
  | _ => []

/-- No function that the nodes of `e` selected by `p` execute is volatile. -/
def NoVolatile (p : Head → Bool) (e : Expr) : Prop :=
  ∀ head ∈ e.heads, p head = true → ∀ f ∈ head.executes cat, cat.isVolatile f = false

/-- An expression that the VALUES producer may evaluate on its own. -/
structure Evaluable (e : Expr) : Prop where
  stable : NoVolatile cat (fun _ => true) e
  noSubLink : .subLink ∉ e.heads
  noAggregate : ∀ f, .aggref f ∉ e.heads
  noWindowFunc : ∀ f, .windowFunc f ∉ e.heads
  noSet : e.returnsSet = false

/-- The nodes that execute functions which the walker does not look at. -/
def Head.isUnchecked : Head → Bool
  | .scalarArrayOpExpr .. | .coerceViaIo .. | .rowCompareExpr _ | .minMaxExpr _ | .coerceToDomain _
  | .nextValueExpr _ => true
  | _ => false

/-! ## The walker over the heads -/

/-- A head at which the walker stops. -/
def Head.isUnsafe (head : Head) : Bool := head.needsContext || head.volatileCall cat

mutual

theorem valuesExprUnsafeWalker_eq : ∀ e : Expr, valuesExprUnsafeWalker cat e = e.heads.any (Head.isUnsafe cat)
  | .node head args => by
    rw [valuesExprUnsafeWalker, Expr.heads, List.any_cons, Head.isUnsafe, expressionTreeWalker_eq args]
    cases head.needsContext <;> cases head.volatileCall cat <;> rfl

theorem expressionTreeWalker_eq : ∀ es : List Expr, expressionTreeWalker cat es = (headsAll es).any (Head.isUnsafe cat)
  | [] => rfl
  | e :: es => by
    rw [expressionTreeWalker, headsAll, List.any_append, valuesExprUnsafeWalker_eq e, expressionTreeWalker_eq es]
    cases e.heads.any (Head.isUnsafe cat) <;> rfl

end

variable {cat} {e : Expr}

theorem isAcceptableValuesExpr_iff :
    isAcceptableValuesExpr cat e = true ↔ ∀ head ∈ e.heads, head.isUnsafe cat = false := by
  rw [isAcceptableValuesExpr, valuesExprUnsafeWalker_eq]
  simp

theorem Head.stable_of_isUnsafe_eq_false {head : Head} (h : head.isUnsafe cat = false)
    (hchecked : head.isUnchecked = false) : ∀ f ∈ head.executes cat, cat.isVolatile f = false := by
  obtain ⟨hcontext, hcall⟩ := Bool.or_eq_false_iff.mp h
  intro f hf
  cases head with
  | funcExpr funcid _ _ =>
    rw [List.mem_singleton.mp hf]
    exact hcall
  | opExpr _ opno opfuncid _ =>
    rw [Head.volatileCall] at hcall
    cases hvalid : oidIsValid opfuncid with
    | false => simp [hvalid] at hcall
    | true =>
      rw [Head.executes, hvalid, List.mem_singleton] at hf
      simpa [hvalid, hf] using hcall
  | aggref _ | windowFunc _ => cases hcontext
  | scalarArrayOpExpr | coerceViaIo | rowCompareExpr | minMaxExpr | coerceToDomain | nextValueExpr =>
    simp [Head.isUnchecked] at hchecked
  | _ => simp [Head.executes] at hf

theorem stable_iff_unchecked (h : ∀ head ∈ e.heads, head.isUnsafe cat = false) :
    NoVolatile cat (fun _ => true) e ↔ NoVolatile cat Head.isUnchecked e := by
  refine ⟨fun hall head hmem _ => hall head hmem rfl, fun hunchecked head hmem _ => ?_⟩
  cases hcase : head.isUnchecked with
  | true => exact hunchecked head hmem hcase
  | false => exact head.stable_of_isUnsafe_eq_false (h head hmem) hcase

theorem not_mem_heads (h : ∀ head ∈ e.heads, head.isUnsafe cat = false) {head : Head}
    (hcontext : head.needsContext = true) : head ∉ e.heads := by
  intro hmem
  have hsafe := h head hmem
  rw [Head.isUnsafe, hcontext] at hsafe
  exact Bool.noConfusion hsafe

/-- **What the gate admits.** An accepted expression executes no volatile function and has no sublink, aggregate, window
function or set-returning function exactly if no function behind a node that the gate does not look at is volatile, and
none of its functions returns a set. -/
theorem gate_admits_iff (cat : Functions) (e : Expr) :
    (isAcceptableValuesExpr cat e = true → Evaluable cat e) ↔
      (isAcceptableValuesExpr cat e = true → NoVolatile cat Head.isUnchecked e ∧ e.returnsSet = false) := by
  refine imp_congr_right fun haccepted => ?_
  have hsafe := isAcceptableValuesExpr_iff.mp haccepted
  constructor
  · intro h
    exact ⟨(stable_iff_unchecked hsafe).mp h.stable, h.noSet⟩
  · rintro ⟨hunchecked, hset⟩
    exact {
      stable := (stable_iff_unchecked hsafe).mpr hunchecked
      noSubLink := not_mem_heads hsafe rfl
      noAggregate := fun _ => not_mem_heads hsafe rfl
      noWindowFunc := fun _ => not_mem_heads hsafe rfl
      noSet := hset }

/-! ## Accepted expressions that are not -/

/-- One volatile function, number 7, behind operator 70 and the input of type 700. -/
def oneVolatile : Functions where
  isVolatile f := f == 7
  opcode op := op / 10
  orderProc op := op / 10
  cmpProc _ := 1
  typinput type := type / 100
  typoutput _ := 1
  domainChecks _ := []
  nextval := 7

def constant : Expr := .node (.const 23 (some 1)) []

/-- `1 = ANY (ARRAY[1])` with a volatile operator. -/
def volatileAny : Expr := .node (.scalarArrayOpExpr 70 7) [constant, .node (.plain .arrayExpr) [constant]]

/-- A cast through the text form, to a type with a volatile input function. -/
def volatileCast : Expr := .node (.coerceViaIo 23 700) [constant]

/-- `generate_series(1, 3)`. -/
def series : Expr := .node (.funcExpr 1067 true 23) [constant, .node (.const 23 (some 3)) []]

theorem gate_admits_volatile :
    (isAcceptableValuesExpr oneVolatile volatileAny = true ∧ ¬ Evaluable oneVolatile volatileAny) ∧
    (isAcceptableValuesExpr oneVolatile volatileCast = true ∧ ¬ Evaluable oneVolatile volatileCast) ∧
    (isAcceptableValuesExpr oneVolatile series = true ∧ ¬ Evaluable oneVolatile series) := by
  refine ⟨⟨by decide, fun h => ?_⟩, ⟨by decide, fun h => ?_⟩, ⟨by decide, fun h => ?_⟩⟩
  · have hfalse := h.stable (.scalarArrayOpExpr 70 7) (by simp [volatileAny, Expr.heads]) rfl 7 (by decide)
    exact absurd hfalse (by decide)
  · have hfalse := h.stable (.coerceViaIo 23 700) (by simp [volatileCast, Expr.heads]) rfl 7 (by decide)
    exact absurd hfalse (by decide)
  · exact absurd h.noSet (by decide)

end PgDucklake.Insert
