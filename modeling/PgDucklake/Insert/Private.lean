import Mathlib.Tactic.Common
import PgDucklake.Insert.Unnest
import PgDucklake.Insert.Values
import Mathlib.Algebra.Order.Ring.Int

/-!
# The private list of a direct insert plan

A plan carries what its matcher found as a flat list of nodes, which `DirectInsert_CreateCustomScanState` reads back.
`createCustomScanState_values` and `createCustomScanState_unnest` are the round trips.
-/

namespace PgDucklake.Insert

inductive PrivateItem
  | integer (ival : Int)
  | string (sval : String)
  | expr (e : Expr)
  | query (q : Query)

/-! ## Words in integer nodes -/

/-- The `int` of an integer node made from a 32-bit word. -/
def intOfWord (w : UInt32) : Int := w.toInt32.toInt

/-- The 32-bit word of the `int` of an integer node. -/
def wordOfInt (z : Int) : UInt32 := (Int32.ofInt z).toUInt32

def lowWord (x : UInt64) : UInt32 := (x &&& 0xFFFFFFFF).toUInt32

def highWord (x : UInt64) : UInt32 := ((x >>> 32) &&& 0xFFFFFFFF).toUInt32

def joinWords (low high : UInt32) : UInt64 := (high.toUInt64 <<< 32) ||| low.toUInt64

@[simp] theorem wordOfInt_intOfWord (w : UInt32) : wordOfInt (intOfWord w) = w := by
  simp [wordOfInt, intOfWord]

theorem toNat_lowWord (x : UInt64) : (lowWord x).toNat = x.toNat % 2 ^ 32 := by
  have hmask := Nat.and_two_pow_sub_one_eq_mod x.toNat 32
  simp only [lowWord, UInt64.toNat_toUInt32, UInt64.toNat_and]
  rw [show (0xFFFFFFFF : UInt64).toNat = 2 ^ 32 - 1 from rfl, hmask, Nat.mod_mod]

theorem toNat_highWord (x : UInt64) : (highWord x).toNat = x.toNat / 2 ^ 32 := by
  have hmask := Nat.and_two_pow_sub_one_eq_mod (x.toNat / 2 ^ 32) 32
  have hx := x.toNat_lt
  simp only [highWord, UInt64.toNat_toUInt32, UInt64.toNat_and, UInt64.toNat_shiftRight]
  rw [show (0xFFFFFFFF : UInt64).toNat = 2 ^ 32 - 1 from rfl, show (32 : UInt64).toNat % 64 = 32 from rfl,
    Nat.shiftRight_eq_div_pow, hmask]
  omega

theorem toNat_joinWords (low high : UInt32) : (joinWords low high).toNat = high.toNat * 2 ^ 32 + low.toNat := by
  have hlow := low.toNat_lt
  have hhigh := high.toNat_lt
  simp only [joinWords, UInt64.toNat_or, UInt64.toNat_shiftLeft, UInt32.toNat_toUInt64]
  rw [show (32 : UInt64).toNat % 64 = 32 from rfl, Nat.shiftLeft_eq, Nat.mod_eq_of_lt (by omega), ← Nat.shiftLeft_eq,
    ← Nat.shiftLeft_add_eq_or_of_lt hlow]

@[simp] theorem joinWords_lowWord_highWord (x : UInt64) : joinWords (lowWord x) (highWord x) = x := by
  apply UInt64.toNat_inj.mp
  rw [toNat_joinWords, toNat_lowWord, toNat_highWord]
  omega

/-! ## Writing -/

def modeUnnest : Int := 0
def modeValues : Int := 1

def privateWord (w : UInt32) : PrivateItem := .integer (intOfWord w)

def privateParam (pinfo : ParamInfo) : List PrivateItem := [.integer pinfo.paramId, privateWord pinfo.elementType]

/-- The mode and the target. -/
def privateTarget (mode : Int) (targetTableOid : Oid) (tableId schemaVersion : UInt64) : List PrivateItem :=
  [.integer mode, privateWord targetTableOid, privateWord (lowWord tableId), privateWord (highWord tableId),
    privateWord (lowWord schemaVersion), privateWord (highWord schemaVersion)]

/-- A list after its length. -/
def privateList {α : Type} (item : α → List PrivateItem) (l : List α) : List PrivateItem :=
  .integer l.length :: l.flatMap item

/-- `custom_private` of `CreateDirectInsertPlan`. -/
def createDirectInsertPlan (parse : Query) (context : DirectInsertContext) : List PrivateItem :=
  privateTarget modeUnnest context.targetTableOid context.tableId context.schemaVersion ++
    (privateList privateParam context.paramInfos ++
      (privateList (fun name => [.string name]) context.targetColNames ++
        (privateList (fun type => [privateWord type]) context.targetColTypes ++ [.query parse])))

/-- `custom_private` of `CreateValuesInsertPlan`. -/
def createValuesInsertPlan (parse : Query) (context : ValuesInsertContext) : List PrivateItem :=
  privateTarget modeValues context.targetTableOid context.tableId context.schemaVersion ++
    (.integer context.numRows :: .integer context.numCols ::
      (privateList (fun name => [.string name]) context.targetColNames ++
        (privateList (fun type => [privateWord type]) context.inlinedColTypes ++
          (privateList (fun type => [privateWord type]) context.srcColTypes ++
            ((context.exprs.take (context.numRows * context.numCols)).map PrivateItem.expr ++ [.query parse])))))

/-! ## Reading -/

/-- A step of `DirectInsert_CreateCustomScanState` with its position in the list. -/
abbrev Reader := StateT (List PrivateItem) Option

def nextInt : Reader Int
  | .integer z :: rest => some (z, rest)
  | _ => none

def nextWord : Reader UInt32 := do return wordOfInt (← nextInt)

def nextString : Reader String
  | .string s :: rest => some (s, rest)
  | _ => none

def nextExpr : Reader Expr
  | .expr e :: rest => some (e, rest)
  | _ => none

def nextParam : Reader (Int × Oid) := do
  let paramId ← nextInt
  let elementType ← nextWord
  return (paramId, elementType)

def nextId : Reader UInt64 := do
  let low ← nextWord
  let high ← nextWord
  return joinWords low high

def readMany {α : Type} (next : Reader α) : Nat → Reader (List α)
  | 0 => return []
  | n + 1 => do
    let a ← next
    let as ← readMany next n
    return a :: as

def readList {α : Type} (next : Reader α) : Reader (List α) := do
  let n ← nextInt
  readMany next n.toNat

structure UnnestScanState where
  targetTableOid : Oid
  tableId : UInt64
  schemaVersion : UInt64
  paramIds : List Int
  elementTypes : List Oid
  columnNames : List String
  columnTypes : List Oid

structure ValuesScanState where
  targetTableOid : Oid
  tableId : UInt64
  schemaVersion : UInt64
  numRows : Nat
  numCols : Nat
  columnNames : List String
  columnTypes : List Oid
  srcTypes : List Oid
  exprs : List Expr

inductive DirectInsertScanState
  | unnest (state : UnnestScanState)
  | values (state : ValuesScanState)

def createCustomScanState : Reader DirectInsertScanState := do
  let mode ← nextInt
  let targetTableOid ← nextWord
  let tableId ← nextId
  let schemaVersion ← nextId
  if mode = modeUnnest then
    let params ← readList nextParam
    let columnNames ← readList nextString
    let columnTypes ← readList nextWord
    return .unnest ⟨targetTableOid, tableId, schemaVersion, params.map (·.1), params.map (·.2), columnNames, columnTypes⟩
  else
    let numRows ← nextInt
    let numCols ← nextInt
    let columnNames ← readList nextString
    let columnTypes ← readList nextWord
    let srcTypes ← readList nextWord
    let exprs ← readMany nextExpr (numRows.toNat * numCols.toNat)
    return .values ⟨targetTableOid, tableId, schemaVersion, numRows.toNat, numCols.toNat, columnNames, columnTypes,
      srcTypes, exprs⟩

/-! ## Round trips -/

@[simp] theorem bind_reader {α β : Type} (x : Reader α) (f : α → Reader β) (items : List PrivateItem) :
    (x >>= f) items = (x items).bind fun p => f p.1 p.2 := rfl

@[simp] theorem pure_reader {α : Type} (a : α) (items : List PrivateItem) :
    (pure a : Reader α) items = some (a, items) := rfl

@[simp] theorem map_reader {α β : Type} (f : α → β) (x : Reader α) (items : List PrivateItem) :
    (f <$> x) items = (x items).map fun p => (f p.1, p.2) := by
  cases h : x items <;> simp [Functor.map, StateT.map, h]

variable {rest : List PrivateItem}

@[simp] theorem nextInt_integer (z : Int) : nextInt (.integer z :: rest) = some (z, rest) := rfl

@[simp] theorem nextString_string (s : String) : nextString (.string s :: rest) = some (s, rest) := rfl

@[simp] theorem nextExpr_expr (e : Expr) : nextExpr (.expr e :: rest) = some (e, rest) := rfl

@[simp] theorem nextWord_privateWord (w : UInt32) : nextWord (privateWord w :: rest) = some (w, rest) := by
  simp [nextWord, privateWord]

@[simp] theorem nextId_words (x : UInt64) :
    nextId (privateWord (lowWord x) :: privateWord (highWord x) :: rest) = some (x, rest) := by
  simp [nextId]

@[simp] theorem nextParam_privateParam (pinfo : ParamInfo) :
    nextParam (privateParam pinfo ++ rest) = some ((pinfo.paramId, pinfo.elementType), rest) := by
  simp [nextParam, privateParam]

theorem readMany_flatMap {α β : Type} {next : Reader β} {item : α → List PrivateItem} (val : α → β)
    (hnext : ∀ a rest, next (item a ++ rest) = some (val a, rest)) (l : List α) :
    readMany next l.length (l.flatMap item ++ rest) = some (l.map val, rest) := by
  induction l with
  | nil => rfl
  | cons a l ih => simp [readMany, hnext, ih]

theorem readList_privateList {α β : Type} {next : Reader β} {item : α → List PrivateItem} (val : α → β)
    (hnext : ∀ a rest, next (item a ++ rest) = some (val a, rest)) (l : List α) :
    readList next (privateList item l ++ rest) = some (l.map val, rest) := by
  simp [readList, privateList, readMany_flatMap val hnext l]

@[simp] theorem readList_strings (l : List String) :
    readList nextString (privateList (fun name => [.string name]) l ++ rest) = some (l, rest) := by
  simpa using readList_privateList id (fun _ _ => rfl) l

@[simp] theorem readList_words (l : List UInt32) :
    readList nextWord (privateList (fun type => [privateWord type]) l ++ rest) = some (l, rest) := by
  simpa using readList_privateList id (fun w _ => nextWord_privateWord w) l

theorem readMany_exprs (l : List Expr) {n : Nat} (h : l.length = n) :
    readMany nextExpr n (l.map PrivateItem.expr ++ rest) = some (l, rest) := by
  subst h
  have hnext (e : Expr) (rest : List PrivateItem) : nextExpr ([PrivateItem.expr e] ++ rest) = some (id e, rest) := rfl
  rw [List.map_eq_flatMap, readMany_flatMap id hnext l, List.map_id]

/-- The state of an UNNEST plan. -/
def DirectInsertContext.state (context : DirectInsertContext) : UnnestScanState where
  targetTableOid := context.targetTableOid
  tableId := context.tableId
  schemaVersion := context.schemaVersion
  paramIds := context.paramInfos.map (·.paramId)
  elementTypes := context.paramInfos.map (·.elementType)
  columnNames := context.targetColNames
  columnTypes := context.targetColTypes

/-- The state of a VALUES plan. -/
def ValuesInsertContext.state (context : ValuesInsertContext) : ValuesScanState where
  targetTableOid := context.targetTableOid
  tableId := context.tableId
  schemaVersion := context.schemaVersion
  numRows := context.numRows
  numCols := context.numCols
  columnNames := context.targetColNames
  columnTypes := context.inlinedColTypes
  srcTypes := context.srcColTypes
  exprs := context.exprs

theorem createCustomScanState_unnest (parse : Query) (context : DirectInsertContext) :
    createCustomScanState (createDirectInsertPlan parse context) = some (.unnest context.state, [.query parse]) := by
  have hparams (rest : List PrivateItem) :
      readList nextParam (privateList privateParam context.paramInfos ++ rest) =
        some (context.paramInfos.map fun pinfo => (pinfo.paramId, pinfo.elementType), rest) :=
    readList_privateList _ (fun pinfo _ => nextParam_privateParam pinfo) _
  simp [createCustomScanState, createDirectInsertPlan, privateTarget, hparams, DirectInsertContext.state]

theorem createCustomScanState_values (parse : Query) {context : ValuesInsertContext}
    (hexprs : context.exprs.length = context.numRows * context.numCols) :
    createCustomScanState (createValuesInsertPlan parse context) = some (.values context.state, [.query parse]) := by
  have htake : context.exprs.take (context.numRows * context.numCols) = context.exprs :=
    List.take_of_length_le (Nat.le_of_eq hexprs)
  simp [createCustomScanState, createValuesInsertPlan, privateTarget, htake, readMany_exprs _ hexprs,
    ValuesInsertContext.state, modeValues, modeUnnest]

/-! ## The decoded context -/

/-- The context that a state of an UNNEST plan stands for. The types of the parameters are not in the list. -/
def UnnestScanState.context (state : UnnestScanState) : DirectInsertContext where
  targetTableOid := state.targetTableOid
  tableId := state.tableId
  schemaVersion := state.schemaVersion
  paramInfos := List.zipWith (fun paramId elementType => ⟨paramId, 0, elementType⟩) state.paramIds state.elementTypes
  targetColNames := state.columnNames
  targetColTypes := state.columnTypes

def ValuesScanState.context (state : ValuesScanState) : ValuesInsertContext where
  targetTableOid := state.targetTableOid
  tableId := state.tableId
  schemaVersion := state.schemaVersion
  numRows := state.numRows
  numCols := state.numCols
  targetColNames := state.columnNames
  inlinedColTypes := state.columnTypes
  srcColTypes := state.srcTypes
  exprs := state.exprs

/-- The context without the types of its parameters. -/
def DirectInsertContext.untyped (context : DirectInsertContext) : DirectInsertContext :=
  { context with paramInfos := context.paramInfos.map fun pinfo => { pinfo with paramType := 0 } }

theorem DirectInsertContext.context_state (context : DirectInsertContext) : context.state.context = context.untyped := by
  simp [DirectInsertContext.state, UnnestScanState.context, DirectInsertContext.untyped, List.zipWith_map,
    List.zipWith_self]

theorem ValuesInsertContext.context_state (context : ValuesInsertContext) : context.state.context = context := rfl

/-! ## The range of the integer nodes -/

def IsInt (z : Int) : Prop := -2 ^ 31 ≤ z ∧ z < 2 ^ 31

theorem isInt_intOfWord (w : UInt32) : IsInt (intOfWord w) :=
  ⟨w.toInt32.le_toInt, w.toInt32.toInt_lt⟩

theorem isInt_length {α : Type} {l : List α} (h : l.length < 2 ^ 31) : IsInt l.length := by
  unfold IsInt
  omega

/-- Every integer node holds an `int`. -/
def IntItems (items : List PrivateItem) : Prop := ∀ z, .integer z ∈ items → IsInt z

theorem intItems_append {items items' : List PrivateItem} (h : IntItems items) (h' : IntItems items') :
    IntItems (items ++ items') := by
  intro z hz
  rcases List.mem_append.mp hz with hz | hz
  · exact h z hz
  · exact h' z hz

theorem intItems_cons {item : PrivateItem} {items : List PrivateItem} (h : ∀ z, item = .integer z → IsInt z)
    (h' : IntItems items) : IntItems (item :: items) := by
  intro z hz
  rcases List.mem_cons.mp hz with hz | hz
  · exact h z hz.symm
  · exact h' z hz

theorem intItems_privateList {α : Type} {item : α → List PrivateItem} {l : List α} (hlen : l.length < 2 ^ 31)
    (h : ∀ a ∈ l, IntItems (item a)) : IntItems (privateList item l) := by
  refine intItems_cons ?_ ?_
  · rintro z ⟨⟩
    exact isInt_length hlen
  · intro z hz
    obtain ⟨a, ha, hz⟩ := List.mem_flatMap.mp hz
    exact h a ha z hz

theorem intItems_word (w : UInt32) : IntItems [privateWord w] := by
  intro z hz
  cases List.mem_singleton.mp hz
  exact isInt_intOfWord w

theorem intItems_names {l : List String} (hlen : l.length < 2 ^ 31) :
    IntItems (privateList (fun name => [.string name]) l) :=
  intItems_privateList hlen fun _ _ z hz => by cases List.mem_singleton.mp hz

theorem intItems_words {l : List UInt32} (hlen : l.length < 2 ^ 31) :
    IntItems (privateList (fun type => [privateWord type]) l) :=
  intItems_privateList hlen fun w _ => intItems_word w

theorem intItems_target {mode : Int} (hmode : IsInt mode) (targetTableOid : Oid) (tableId schemaVersion : UInt64) :
    IntItems (privateTarget mode targetTableOid tableId schemaVersion) := by
  have hword (w : UInt32) : ∀ z, privateWord w = .integer z → IsInt z := by
    rintro z ⟨⟩
    exact isInt_intOfWord w
  refine intItems_cons (by rintro z ⟨⟩; exact hmode) ?_
  exact intItems_cons (hword _) (intItems_cons (hword _) (intItems_cons (hword _) (intItems_cons (hword _)
    (intItems_word _))))

theorem intItems_query (parse : Query) : IntItems [.query parse] := by
  intro z hz
  cases List.mem_singleton.mp hz

/-- What holds of every context in memory: its lists have `int` lengths, and the parameter numbers are `int`s. -/
structure DirectInsertContext.Stored (context : DirectInsertContext) : Prop where
  params : context.paramInfos.length < 2 ^ 31
  paramId : ∀ pinfo ∈ context.paramInfos, IsInt pinfo.paramId
  names : context.targetColNames.length < 2 ^ 31
  types : context.targetColTypes.length < 2 ^ 31

/-- One expression for each cell, in an array with an `int` length. -/
structure ValuesInsertContext.Stored (context : ValuesInsertContext) : Prop where
  exprs : context.exprs.length = context.numRows * context.numCols
  rows : context.numRows < 2 ^ 31
  cols : context.numCols < 2 ^ 31
  cells : context.numRows * context.numCols < 2 ^ 31
  names : context.targetColNames.length < 2 ^ 31
  types : context.inlinedColTypes.length < 2 ^ 31
  srcTypes : context.srcColTypes.length < 2 ^ 31

theorem intItems_createDirectInsertPlan (parse : Query) {context : DirectInsertContext} (h : context.Stored) :
    IntItems (createDirectInsertPlan parse context) := by
  have hparams : IntItems (privateList privateParam context.paramInfos) := by
    refine intItems_privateList h.params fun pinfo hp => ?_
    refine intItems_cons ?_ (intItems_word _)
    rintro z ⟨⟩
    exact h.paramId pinfo hp
  refine intItems_append (intItems_target ⟨by decide, by decide⟩ _ _ _) (intItems_append hparams ?_)
  exact intItems_append (intItems_names h.names) (intItems_append (intItems_words h.types) (intItems_query parse))

theorem intItems_createValuesInsertPlan (parse : Query) {context : ValuesInsertContext} (h : context.Stored) :
    IntItems (createValuesInsertPlan parse context) := by
  have hrows := h.rows
  have hcols := h.cols
  have hexprs : IntItems ((context.exprs.take (context.numRows * context.numCols)).map PrivateItem.expr) := by
    intro z hz
    obtain ⟨e, -, he⟩ := List.mem_map.mp hz
    cases he
  refine intItems_append (intItems_target ⟨by decide, by decide⟩ _ _ _) ?_
  refine intItems_cons (by rintro z ⟨⟩; unfold IsInt; omega) (intItems_cons (by rintro z ⟨⟩; unfold IsInt; omega) ?_)
  refine intItems_append (intItems_names h.names) (intItems_append (intItems_words h.types) ?_)
  exact intItems_append (intItems_words h.srcTypes) (intItems_append hexprs (intItems_query parse))

/-- **Plans survive the encoding**: the state that is read back has every field of the context but the types of the
parameters, is of the variant that was written, and the query is the last item; no integer is cut. -/
theorem private_round_trip (parse : Query) :
    (∀ context : DirectInsertContext, context.Stored →
      IntItems (createDirectInsertPlan parse context) ∧
      (createDirectInsertPlan parse context).getLast? = some (.query parse) ∧
      ∃ state, createCustomScanState (createDirectInsertPlan parse context) = some (.unnest state, [.query parse]) ∧
        state.context = context.untyped) ∧
    ∀ context : ValuesInsertContext, context.Stored →
      IntItems (createValuesInsertPlan parse context) ∧
      (createValuesInsertPlan parse context).getLast? = some (.query parse) ∧
      ∃ state, createCustomScanState (createValuesInsertPlan parse context) = some (.values state, [.query parse]) ∧
        state.context = context := by
  constructor
  · intro context h
    refine ⟨intItems_createDirectInsertPlan parse h, ?_, context.state, createCustomScanState_unnest parse context,
      context.context_state⟩
    simp [createDirectInsertPlan, List.getLast?_append]
  · intro context h
    refine ⟨intItems_createValuesInsertPlan parse h, ?_, context.state, createCustomScanState_values parse h.exprs,
      context.context_state⟩
    simp [createValuesInsertPlan, List.getLast?_append, List.getLast?_cons]

/-- An `INSERT` into the only table of its range table. -/
def bareInsert : Query where
  isInsert := true
  resultRelation := 1
  rtable := [.relation 16384 false]
  jointree := none
  targetList := []
  clauses := []

/-- `UNNEST($1)` of an `int4[]`, into a table with both halves of its id above `2 ^ 31`. -/
def oneParam : DirectInsertContext where
  targetTableOid := 4000000000
  tableId := 0xFFFFFFFFFFFFFFFE
  schemaVersion := 0x80000000
  paramInfos := [⟨1, 1007, 23⟩]
  targetColNames := ["a"]
  targetColTypes := [23]

/-- `VALUES (7)`. -/
def oneValue : ValuesInsertContext where
  targetTableOid := 4000000000
  tableId := 0xFFFFFFFFFFFFFFFE
  schemaVersion := 0x80000000
  numRows := 1
  numCols := 1
  targetColNames := ["a"]
  inlinedColTypes := [23]
  srcColTypes := [23]
  exprs := [.node (.const 23 (some 7)) []]

theorem oneParam_oneValue_survive :
    (∃ state, createCustomScanState (createDirectInsertPlan bareInsert oneParam) =
        some (.unnest state, [.query bareInsert]) ∧ state.context = oneParam.untyped) ∧
      ∃ state, createCustomScanState (createValuesInsertPlan bareInsert oneValue) =
        some (.values state, [.query bareInsert]) ∧ state.context = oneValue := by
  have hparam : oneParam.Stored := ⟨by decide, by simp [oneParam, IsInt], by decide, by decide⟩
  have hvalue : oneValue.Stored :=
    ⟨by decide, by decide, by decide, by decide, by decide, by decide, by decide⟩
  have h := private_round_trip bareInsert
  exact ⟨(h.1 oneParam hparam).2.2, (h.2 oneValue hvalue).2.2⟩

/-- The type of the parameter is lost. -/
theorem param_type_not_encoded :
    createDirectInsertPlan bareInsert oneParam = createDirectInsertPlan bareInsert oneParam.untyped ∧
      oneParam.paramInfos ≠ oneParam.untyped.paramInfos := by
  exact ⟨rfl, by decide⟩

end PgDucklake.Insert
