import Mathlib.Tactic.Common

/-!
# Variant operators

DuckDB has no `->` and `->>` for VARIANT, so the planner hook replaces these operators by calls of extraction functions
before a query is deparsed. `rewriteVariantOpMutator` is the replacing walk, `extractAll` what it is for: every arrow
anywhere in the tree becomes a call on its rewritten operands, and nothing else changes. Two things make them differ
(`rewritten_iff`). The operands of a replaced operator are handed to `expression_tree_mutator`, which visits their
children but not themselves, so an arrow that is an operand of another stays. And an operator is taken for an arrow by
the types around it, so another operator with these types is replaced too (`chain_and_concatenation`).
-/

namespace PgDucklake.Variant

abbrev Oid := Nat

def TEXTOID : Oid := 25

def INT4OID : Oid := 23

/-! ## Query trees -/

/-- `OpExpr` without its arguments. -/
structure OpInfo where
  opno : Oid
  opresulttype : Oid
  inputcollid : Oid
  location : Int
  deriving DecidableEq, Repr

inductive CoercionForm
  | explicitCall
  | explicitCast
  | implicitCast
  | sqlSyntax
  deriving DecidableEq, Repr

/-- `FuncExpr` without its arguments. -/
structure FuncInfo where
  funcid : Oid
  funcresulttype : Oid
  funcretset : Bool
  funcvariadic : Bool
  funcformat : CoercionForm
  funccollid : Oid
  inputcollid : Oid
  location : Int
  deriving DecidableEq, Repr

/-- A node of an analysed query. `subLink` holds the test expression, if any, and the query; `query` its parts that hold
expressions; `other` is a node of another kind (variables, constants, Boolean expressions, target entries, join nodes,
range table entries, WITH queries and so on) with its children. `type` is what `exprType` returns. -/
inductive Node
  | opExpr (op : OpInfo) (args : List Node)
  | funcExpr (func : FuncInfo) (args : List Node)
  | subLink (label : String) (type : Oid) (testexpr : List Node) (subselect : Node)
  | query (label : String) (targetList jointree cteList rtable others : List Node)
  | other (label : String) (type : Oid) (children : List Node)

def exprType : Node → Oid
  | .opExpr op _ => op.opresulttype
  | .funcExpr func _ => func.funcresulttype
  | .subLink _ type _ _ => type
  | .query .. => 0
  | .other _ type _ => type

/-! ## The rewrite -/

/-- An arrow: `->` or, if `asText`, `->>`, with a key or, if `byIndex`, an index. -/
structure Arrow where
  asText : Bool
  byIndex : Bool
  deriving DecidableEq, Repr

/-- The extension's objects: the type, the operators, and the functions that `EnsureVariantFuncOids` finds. -/
structure Extension where
  variantOid : Oid
  variant_ne_text : variantOid ≠ TEXTOID
  arrowOf : Oid → Option Arrow
  variantFuncoids : Arrow → Option Oid

namespace Extension

variable (ext : Extension)

def resultType (arrow : Arrow) : Oid := if arrow.asText then TEXTOID else ext.variantOid

def keyType (arrow : Arrow) : Oid := if arrow.byIndex then INT4OID else TEXTOID

/-- The arrow that the types of an operator and of its operands are those of. -/
def arrowByTypes (op : OpInfo) (arg1 arg2 : Node) : Option Arrow :=
  if exprType arg1 ≠ ext.variantOid then none
  else if op.opresulttype ≠ ext.variantOid ∧ op.opresulttype ≠ TEXTOID then none
  else if exprType arg2 ≠ TEXTOID ∧ exprType arg2 ≠ INT4OID then none
  else some ⟨op.opresulttype ≠ ext.variantOid, exprType arg2 = INT4OID⟩

/-- The call in the place of an operator. -/
def call (op : OpInfo) (arrow : Arrow) (funcid : Oid) : FuncInfo where
  funcid := funcid
  funcresulttype := ext.resultType arrow
  funcretset := false
  funcvariadic := false
  funcformat := .explicitCall
  funccollid := 0
  inputcollid := op.inputcollid
  location := op.location

/-- The call that the walk puts in the place of an operator; `none` leaves it to `default_mutate`. -/
def replacement (op : OpInfo) (arg1 arg2 : Node) : Option FuncInfo :=
  (ext.arrowByTypes op arg1 arg2).bind fun arrow => (ext.variantFuncoids arrow).map (ext.call op arrow)

mutual

def rewriteVariantOpMutator : Node → Node
  | .query label targetList jointree cteList rtable others =>
    .query label (mutateNodes targetList) (mutateNodes jointree) (mutateNodes cteList) (mutateNodes rtable)
      (mutateNodes others)
  | .opExpr op [arg1, arg2] =>
    match ext.replacement op arg1 arg2 with
    -- The mutator itself is not applied to the two arguments.
    | some func => .funcExpr func [expressionTreeMutator arg1, expressionTreeMutator arg2]
    | none => .opExpr op [rewriteVariantOpMutator arg1, rewriteVariantOpMutator arg2]
  | .opExpr op args => .opExpr op (mutateNodes args)
  | .funcExpr func args => .funcExpr func (mutateNodes args)
  | .subLink label type testexpr subselect =>
    .subLink label type (mutateNodes testexpr) (rewriteVariantOpMutator subselect)
  | .other label type children => .other label type (mutateNodes children)

/-- `expression_tree_mutator` with this mutator: it is applied to the children. A query is returned as it is. -/
def expressionTreeMutator : Node → Node
  | .query label targetList jointree cteList rtable others =>
    .query label targetList jointree cteList rtable others
  | .opExpr op args => .opExpr op (mutateNodes args)
  | .funcExpr func args => .funcExpr func (mutateNodes args)
  | .subLink label type testexpr subselect =>
    .subLink label type (mutateNodes testexpr) (rewriteVariantOpMutator subselect)
  | .other label type children => .other label type (mutateNodes children)

def mutateNodes : List Node → List Node
  | [] => []
  | n :: ns => rewriteVariantOpMutator n :: mutateNodes ns

end

mutual

/-- There is a binary operator with a variant on its left. -/
def hasVariantOpWalker : Node → Bool
  | .opExpr _ [arg1, arg2] =>
    exprType arg1 == ext.variantOid || (hasVariantOpWalker arg1 || hasVariantOpWalker arg2)
  | .opExpr _ args => walkNodes args
  | .funcExpr _ args => walkNodes args
  | .subLink _ _ testexpr subselect => walkNodes testexpr || hasVariantOpWalker subselect
  | .query _ targetList jointree cteList rtable others =>
    walkNodes targetList || walkNodes jointree || walkNodes cteList || walkNodes rtable || walkNodes others
  | .other _ _ children => walkNodes children

def walkNodes : List Node → Bool
  | [] => false
  | n :: ns => hasVariantOpWalker n || walkNodes ns

end

end Extension

/-- Without the type there is nothing to rewrite. -/
def rewriteVariantOperators (ext : Option Extension) (parse : Node) : Node :=
  match ext with
  | none => parse
  | some ext => if ext.hasVariantOpWalker parse then ext.rewriteVariantOpMutator parse else parse

/-! ## What it is for -/

namespace Extension

variable (ext : Extension)

/-- The call for an operator that is an arrow of the extension, applied to a variant. -/
def extraction (op : OpInfo) (arg1 arg2 : Node) : Option FuncInfo :=
  (ext.arrowOf op.opno).bind fun arrow =>
    if exprType arg1 = ext.variantOid ∧ op.opresulttype = ext.resultType arrow ∧ exprType arg2 = keyType arrow then
      (ext.variantFuncoids arrow).map (ext.call op arrow)
    else none

mutual

/-- Every arrow is replaced by the call on its operands, in which every arrow is replaced. -/
def extractAll : Node → Node
  | .query label targetList jointree cteList rtable others =>
    .query label (extractNodes targetList) (extractNodes jointree) (extractNodes cteList) (extractNodes rtable)
      (extractNodes others)
  | .opExpr op [arg1, arg2] =>
    match ext.extraction op arg1 arg2 with
    | some func => .funcExpr func [extractAll arg1, extractAll arg2]
    | none => .opExpr op [extractAll arg1, extractAll arg2]
  | .opExpr op args => .opExpr op (extractNodes args)
  | .funcExpr func args => .funcExpr func (extractNodes args)
  | .subLink label type testexpr subselect => .subLink label type (extractNodes testexpr) (extractAll subselect)
  | .other label type children => .other label type (extractNodes children)

def extractNodes : List Node → List Node
  | [] => []
  | n :: ns => extractAll n :: extractNodes ns

end

mutual

/-- No arrow that has a call is left. -/
def ArrowFree : Node → Prop
  | .query _ targetList jointree cteList rtable others =>
    AllArrowFree targetList ∧ AllArrowFree jointree ∧ AllArrowFree cteList ∧ AllArrowFree rtable ∧ AllArrowFree others
  | .opExpr op [arg1, arg2] => ext.extraction op arg1 arg2 = none ∧ ArrowFree arg1 ∧ ArrowFree arg2
  | .opExpr _ args => AllArrowFree args
  | .funcExpr _ args => AllArrowFree args
  | .subLink _ _ testexpr subselect => AllArrowFree testexpr ∧ ArrowFree subselect
  | .other _ _ children => AllArrowFree children

def AllArrowFree : List Node → Prop
  | [] => True
  | n :: ns => ArrowFree n ∧ AllArrowFree ns

end

mutual

/-- The condition, at a node that is an operand of a replaced operator (`operand`) or not. An operand is not itself an
arrow; any other operator that is replaced is one. (A query is not an operand of operators; it would be passed over.) -/
def Apart (operand : Bool) : Node → Prop
  | .query label targetList jointree cteList rtable others =>
    if operand then ext.ArrowFree (.query label targetList jointree cteList rtable others)
    else AllApart targetList ∧ AllApart jointree ∧ AllApart cteList ∧ AllApart rtable ∧ AllApart others
  | .opExpr op [arg1, arg2] =>
    if operand then ext.extraction op arg1 arg2 = none ∧ Apart false arg1 ∧ Apart false arg2
    else
      match ext.replacement op arg1 arg2 with
      | some func => ext.extraction op arg1 arg2 = some func ∧ Apart true arg1 ∧ Apart true arg2
      | none => Apart false arg1 ∧ Apart false arg2
  | .opExpr _ args => AllApart args
  | .funcExpr _ args => AllApart args
  | .subLink _ _ testexpr subselect => AllApart testexpr ∧ Apart false subselect
  | .other _ _ children => AllApart children

def AllApart : List Node → Prop
  | [] => True
  | n :: ns => Apart false n ∧ AllApart ns

end

/-! ## Arrows and their types -/

section Types

variable {ext} {op : OpInfo} {arg1 arg2 arg1' arg2' : Node} {func : FuncInfo}

theorem arrowByTypes_of_types {arrow : Arrow} (hleft : exprType arg1 = ext.variantOid)
    (hresult : op.opresulttype = ext.resultType arrow) (hkey : exprType arg2 = keyType arrow) :
    ext.arrowByTypes op arg1 arg2 = some arrow := by
  obtain ⟨asText, byIndex⟩ := arrow
  have htext : decide (op.opresulttype ≠ ext.variantOid) = asText := by
    cases asText with
    | true => simpa [hresult, resultType] using ext.variant_ne_text.symm
    | false => simp [hresult, resultType]
  have hindex : decide (exprType arg2 = INT4OID) = byIndex := by
    cases byIndex with
    | true => simp [hkey, keyType]
    | false => simp [hkey, keyType, TEXTOID, INT4OID]
  have hresult' : ¬(op.opresulttype ≠ ext.variantOid ∧ op.opresulttype ≠ TEXTOID) := by
    cases asText <;> simp [hresult, resultType]
  have hkey' : ¬(exprType arg2 ≠ TEXTOID ∧ exprType arg2 ≠ INT4OID) := by
    cases byIndex <;> simp [hkey, keyType]
  rw [arrowByTypes, if_neg (not_not.mpr hleft), if_neg hresult', if_neg hkey', htext, hindex]

theorem replacement_of_extraction (h : ext.extraction op arg1 arg2 = some func) :
    ext.replacement op arg1 arg2 = some func := by
  obtain ⟨arrow, -, h⟩ := Option.bind_eq_some_iff.mp h
  split at h
  · rename_i htypes
    obtain ⟨hleft, hresult, hkey⟩ := htypes
    simp only [replacement, arrowByTypes_of_types hleft hresult hkey, Option.bind_some, h]
  · cases h

theorem type_of_extraction (h : ext.extraction op arg1 arg2 = some func) : func.funcresulttype = op.opresulttype := by
  obtain ⟨arrow, -, h⟩ := Option.bind_eq_some_iff.mp h
  split at h
  · rename_i htypes
    obtain ⟨funcid, -, rfl⟩ := Option.map_eq_some_iff.mp h
    exact htypes.2.1.symm
  · cases h

theorem extraction_congr (h1 : exprType arg1' = exprType arg1) (h2 : exprType arg2' = exprType arg2) :
    ext.extraction op arg1' arg2' = ext.extraction op arg1 arg2 := by
  simp only [extraction, h1, h2]

theorem exprType_extractAll (n : Node) : exprType (ext.extractAll n) = exprType n := by
  match n with
  | .query .. => rfl
  | .opExpr op [arg1, arg2] =>
    simp only [extractAll]
    cases h : ext.extraction op arg1 arg2 with
    | some func => exact type_of_extraction h
    | none => rfl
  | .opExpr _ [] | .opExpr _ [_] | .opExpr _ (_ :: _ :: _ :: _) => rfl
  | .funcExpr .. => rfl
  | .subLink .. => rfl
  | .other .. => rfl

end Types

/-! ## No arrow is left where all are replaced -/

section Free

variable {ext}

mutual

theorem arrowFree_extractAll (n : Node) : ext.ArrowFree (ext.extractAll n) := by
  match n with
  | .query label targetList jointree cteList rtable others =>
    exact ⟨allArrowFree_extractNodes targetList, allArrowFree_extractNodes jointree, allArrowFree_extractNodes cteList,
      allArrowFree_extractNodes rtable, allArrowFree_extractNodes others⟩
  | .opExpr op [arg1, arg2] =>
    have h1 := arrowFree_extractAll arg1
    have h2 := arrowFree_extractAll arg2
    simp only [extractAll]
    cases h : ext.extraction op arg1 arg2 with
    | some func => exact ⟨h1, h2, trivial⟩
    | none =>
      refine ⟨?_, h1, h2⟩
      rw [extraction_congr (exprType_extractAll arg1) (exprType_extractAll arg2), h]
  | .opExpr _ [] => trivial
  | .opExpr _ [arg1] => exact ⟨arrowFree_extractAll arg1, trivial⟩
  | .opExpr _ (arg1 :: arg2 :: arg3 :: args) =>
    exact ⟨arrowFree_extractAll arg1, arrowFree_extractAll arg2, arrowFree_extractAll arg3,
      allArrowFree_extractNodes args⟩
  | .funcExpr _ args => exact allArrowFree_extractNodes args
  | .subLink _ _ testexpr subselect => exact ⟨allArrowFree_extractNodes testexpr, arrowFree_extractAll subselect⟩
  | .other _ _ children => exact allArrowFree_extractNodes children

theorem allArrowFree_extractNodes (ns : List Node) : ext.AllArrowFree (ext.extractNodes ns) := by
  match ns with
  | [] => trivial
  | n :: ns => exact ⟨arrowFree_extractAll n, allArrowFree_extractNodes ns⟩

end

mutual

theorem extractAll_eq_self_iff (n : Node) : ext.extractAll n = n ↔ ext.ArrowFree n := by
  match n with
  | .query label targetList jointree cteList rtable others =>
    simp only [extractAll, ArrowFree, Node.query.injEq, true_and, extractNodes_eq_self_iff targetList,
      extractNodes_eq_self_iff jointree, extractNodes_eq_self_iff cteList, extractNodes_eq_self_iff rtable,
      extractNodes_eq_self_iff others]
  | .opExpr op [arg1, arg2] =>
    have h1 := extractAll_eq_self_iff arg1
    have h2 := extractAll_eq_self_iff arg2
    simp only [extractAll, ArrowFree]
    cases h : ext.extraction op arg1 arg2 with
    | some func => simp
    | none => simp [h1, h2]
  | .opExpr _ [] => simp [extractAll, extractNodes, ArrowFree, AllArrowFree]
  | .opExpr _ [arg1] =>
    simp [extractAll, extractNodes, ArrowFree, AllArrowFree, extractAll_eq_self_iff arg1]
  | .opExpr _ (arg1 :: arg2 :: arg3 :: args) =>
    simp [extractAll, extractNodes, ArrowFree, AllArrowFree, extractAll_eq_self_iff arg1, extractAll_eq_self_iff arg2,
      extractAll_eq_self_iff arg3, extractNodes_eq_self_iff args]
  | .funcExpr _ args => simp [extractAll, ArrowFree, extractNodes_eq_self_iff args]
  | .subLink _ _ testexpr subselect =>
    simp [extractAll, ArrowFree, extractNodes_eq_self_iff testexpr, extractAll_eq_self_iff subselect]
  | .other _ _ children => simp [extractAll, ArrowFree, extractNodes_eq_self_iff children]

theorem extractNodes_eq_self_iff (ns : List Node) : ext.extractNodes ns = ns ↔ ext.AllArrowFree ns := by
  match ns with
  | [] => simp [extractNodes, AllArrowFree]
  | n :: ns =>
    simp only [extractNodes, AllArrowFree, List.cons.injEq, extractAll_eq_self_iff n, extractNodes_eq_self_iff ns]

end

end Free

/-! ## The walk against what it is for -/

section Walk

variable {ext}

mutual

theorem rewrite_eq_iff (n : Node) :
    (ext.rewriteVariantOpMutator n = ext.extractAll n ↔ ext.Apart false n) ∧
      (ext.expressionTreeMutator n = ext.extractAll n ↔ ext.Apart true n) := by
  match n with
  | .query label targetList jointree cteList rtable others =>
    constructor
    · simp only [rewriteVariantOpMutator, extractAll, Apart, Node.query.injEq, true_and, Bool.false_eq_true, if_false,
        mutateNodes_eq_iff targetList, mutateNodes_eq_iff jointree, mutateNodes_eq_iff cteList,
        mutateNodes_eq_iff rtable, mutateNodes_eq_iff others]
    · rw [expressionTreeMutator, eq_comm, extractAll_eq_self_iff]
      rfl
  | .opExpr op [arg1, arg2] =>
    obtain ⟨hvisit1, hpass1⟩ := rewrite_eq_iff arg1
    obtain ⟨hvisit2, hpass2⟩ := rewrite_eq_iff arg2
    constructor
    · simp only [rewriteVariantOpMutator, extractAll, Apart, Bool.false_eq_true, if_false]
      cases hrep : ext.replacement op arg1 arg2 with
      | none =>
        have hex : ext.extraction op arg1 arg2 = none := by
          cases hex : ext.extraction op arg1 arg2 with
          | none => rfl
          | some func => rw [replacement_of_extraction hex] at hrep; cases hrep
        simp [hex, hvisit1, hvisit2]
      | some func =>
        cases hex : ext.extraction op arg1 arg2 with
        | none => simp
        | some func' => simp [hpass1, hpass2, eq_comm]
    · simp only [expressionTreeMutator, mutateNodes, extractAll, Apart, if_true]
      cases hex : ext.extraction op arg1 arg2 with
      | none => simp [hvisit1, hvisit2]
      | some func => simp
  | .opExpr _ [] =>
    simp [rewriteVariantOpMutator, expressionTreeMutator, mutateNodes, extractAll, extractNodes, Apart, AllApart]
  | .opExpr _ [arg1] =>
    simp [rewriteVariantOpMutator, expressionTreeMutator, mutateNodes, extractAll, extractNodes, Apart, AllApart,
      (rewrite_eq_iff arg1).1]
  | .opExpr _ (arg1 :: arg2 :: arg3 :: args) =>
    simp [rewriteVariantOpMutator, expressionTreeMutator, mutateNodes, extractAll, extractNodes, Apart, AllApart,
      (rewrite_eq_iff arg1).1, (rewrite_eq_iff arg2).1, (rewrite_eq_iff arg3).1, mutateNodes_eq_iff args]
  | .funcExpr _ args =>
    simp [rewriteVariantOpMutator, expressionTreeMutator, extractAll, Apart, mutateNodes_eq_iff args]
  | .subLink _ _ testexpr subselect =>
    simp [rewriteVariantOpMutator, expressionTreeMutator, extractAll, Apart, mutateNodes_eq_iff testexpr,
      (rewrite_eq_iff subselect).1]
  | .other _ _ children =>
    simp [rewriteVariantOpMutator, expressionTreeMutator, extractAll, Apart, mutateNodes_eq_iff children]

theorem mutateNodes_eq_iff (ns : List Node) : ext.mutateNodes ns = ext.extractNodes ns ↔ ext.AllApart ns := by
  match ns with
  | [] => simp [mutateNodes, extractNodes, AllApart]
  | n :: ns =>
    simp only [mutateNodes, extractNodes, AllApart, List.cons.injEq, (rewrite_eq_iff n).1, mutateNodes_eq_iff ns]

end

mutual

theorem rewrite_eq_self (n : Node) (h : ext.hasVariantOpWalker n = false) : ext.rewriteVariantOpMutator n = n := by
  match n with
  | .query label targetList jointree cteList rtable others =>
    simp only [hasVariantOpWalker, Bool.or_eq_false_iff] at h
    obtain ⟨⟨⟨⟨htarget, hjoin⟩, hctes⟩, hrtable⟩, hothers⟩ := h
    rw [rewriteVariantOpMutator, mutateNodes_eq_self targetList htarget, mutateNodes_eq_self jointree hjoin,
      mutateNodes_eq_self cteList hctes, mutateNodes_eq_self rtable hrtable, mutateNodes_eq_self others hothers]
  | .opExpr op [arg1, arg2] =>
    simp only [hasVariantOpWalker, Bool.or_eq_false_iff, beq_eq_false_iff_ne] at h
    obtain ⟨hleft, h1, h2⟩ := h
    have hrep : ext.replacement op arg1 arg2 = none := by simp [replacement, arrowByTypes, hleft]
    rw [rewriteVariantOpMutator, hrep, rewrite_eq_self arg1 h1, rewrite_eq_self arg2 h2]
  | .opExpr _ [] => rfl
  | .opExpr _ [arg1] =>
    simp only [hasVariantOpWalker, walkNodes, Bool.or_false] at h
    simp only [rewriteVariantOpMutator, mutateNodes, rewrite_eq_self arg1 h]
  | .opExpr _ (arg1 :: arg2 :: arg3 :: args) =>
    simp only [hasVariantOpWalker, walkNodes, Bool.or_eq_false_iff] at h
    obtain ⟨h1, h2, h3, hargs⟩ := h
    simp only [rewriteVariantOpMutator, mutateNodes, rewrite_eq_self arg1 h1, rewrite_eq_self arg2 h2,
      rewrite_eq_self arg3 h3, mutateNodes_eq_self args hargs]
  | .funcExpr _ args =>
    rw [hasVariantOpWalker] at h
    rw [rewriteVariantOpMutator, mutateNodes_eq_self args h]
  | .subLink _ _ testexpr subselect =>
    simp only [hasVariantOpWalker, Bool.or_eq_false_iff] at h
    rw [rewriteVariantOpMutator, mutateNodes_eq_self testexpr h.1, rewrite_eq_self subselect h.2]
  | .other _ _ children =>
    rw [hasVariantOpWalker] at h
    rw [rewriteVariantOpMutator, mutateNodes_eq_self children h]

theorem mutateNodes_eq_self (ns : List Node) (h : ext.walkNodes ns = false) : ext.mutateNodes ns = ns := by
  match ns with
  | [] => rfl
  | n :: ns =>
    simp only [walkNodes, Bool.or_eq_false_iff] at h
    rw [mutateNodes, rewrite_eq_self n h.1, mutateNodes_eq_self ns h.2]

end

end Walk

end Extension

theorem rewriteVariantOperators_eq (ext : Extension) (parse : Node) :
    rewriteVariantOperators (some ext) parse = ext.rewriteVariantOpMutator parse := by
  simp only [rewriteVariantOperators]
  split
  · rfl
  · rename_i hnone
    exact (Extension.rewrite_eq_self parse (by simpa using hnone)).symm

/-- Every arrow in the tree is replaced by its call, none is left and nothing else is changed, exactly if no arrow is an
operand of a replaced operator, and every other replaced operator is an arrow. -/
theorem rewritten_iff (ext : Extension) (parse : Node) :
    (rewriteVariantOperators (some ext) parse = ext.extractAll parse ∧
        ext.ArrowFree (rewriteVariantOperators (some ext) parse)) ↔
      ext.Apart false parse := by
  rw [rewriteVariantOperators_eq, ← (Extension.rewrite_eq_iff parse).1]
  constructor
  · exact And.left
  · intro h
    exact ⟨h, h ▸ Extension.arrowFree_extractAll parse⟩

/-! ## Two queries -/

/-- The arrows are the operators 101 to 104, with the functions 201 to 204. -/
def sampleExtension : Extension where
  variantOid := 100
  variant_ne_text := by decide
  arrowOf
    | 101 => some ⟨false, false⟩
    | 102 => some ⟨false, true⟩
    | 103 => some ⟨true, false⟩
    | 104 => some ⟨true, true⟩
    | _ => none
  variantFuncoids
    | ⟨false, false⟩ => some 201
    | ⟨false, true⟩ => some 202
    | ⟨true, false⟩ => some 203
    | ⟨true, true⟩ => some 204

def select (expression : Node) : Node := .query "SELECT" [expression] [] [] [] []

def column (name : String) : Node := .other name 100 []

def key (text : String) : Node := .other text TEXTOID []

/-- `v -> 'a' ->> 'b'`. -/
def chain : Node :=
  .opExpr ⟨103, TEXTOID, 0, 9⟩ [.opExpr ⟨101, 100, 0, 2⟩ [column "v", key "a"], key "b"]

/-- `v || 'b'`, with the operator of `anynonarray` and `text`. -/
def concatenation : Node := .opExpr ⟨2780, TEXTOID, 0, 2⟩ [column "v", key "b"]

/-- The inner arrow of the chain stays. The concatenation, which has no arrow, becomes an extraction. -/
theorem chain_and_concatenation :
    rewriteVariantOperators (some sampleExtension) (select chain) =
        select (.funcExpr ⟨203, TEXTOID, false, false, .explicitCall, 0, 0, 9⟩
          [.opExpr ⟨101, 100, 0, 2⟩ [column "v", key "a"], key "b"]) ∧
      ¬sampleExtension.ArrowFree (rewriteVariantOperators (some sampleExtension) (select chain)) ∧
      sampleExtension.extractAll (select concatenation) = select concatenation ∧
      rewriteVariantOperators (some sampleExtension) (select concatenation) =
        select (.funcExpr ⟨203, TEXTOID, false, false, .explicitCall, 0, 0, 2⟩ [column "v", key "b"]) := by
  refine ⟨rfl, ?_, rfl, rfl⟩
  rintro ⟨⟨⟨⟨hinner, -⟩, -⟩, -⟩, -⟩
  cases hinner

end PgDucklake.Variant
