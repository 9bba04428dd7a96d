import PgDucklake.Insert.Catalog
import PgDucklake.Insert.Gate

/-!
# Matching a VALUES insert

`TryMatchValues` resolves every cell of the insert to one expression: rows by the VALUES lists, columns by the target
list. `tryMatchValues_spec` says what an accepted statement looks like; the rest of the development uses only that.
-/

namespace PgDucklake.Insert

structure ValuesInsertContext where
  targetTableOid : Oid
  tableId : UInt64
  schemaVersion : UInt64
  numRows : Nat
  numCols : Nat
  targetColNames : List String
  inlinedColTypes : List Oid
  srcColTypes : List Oid
  /-- One expression per cell, row by row. -/
  exprs : List Expr

/-- The first VALUES entry of the range table, with its index. -/
def findValuesRte : Nat → List RangeTblEntry → Option (Nat × List (List Expr))
  | _, [] => none
  | idx, .values lists :: _ => some (idx, lists)
  | idx, _ :: rtes => findValuesRte (idx + 1) rtes

def Query.valuesRte (parse : Query) : Option (Nat × List (List Expr)) := findValuesRte 1 parse.rtable

/-- There is no WHERE clause, and FROM is the VALUES entry or nothing. -/
def Query.isPureValues (parse : Query) : Bool :=
  let fl := (parse.jointree.map (·.fromlist)).getD []
  (parse.jointree.bind (·.quals)).isNone &&
    match parse.valuesRte with
    | none => fl.isEmpty
    | some (idx, _) =>
      match fl with
      | [FromNode.rangeTblRef rtindex] => rtindex == idx
      | _ => false

/-- The rows of the insert. A single row is in the target list itself. -/
def Query.valuesLists (parse : Query) : List (List Expr) :=
  match parse.valuesRte with
  | some (_, lists) => lists
  | none => if parse.targetList.isEmpty then [] else [parse.targets.map (·.expr)]

/-- `values_col_idx`, `target_expr` and `single_row_seq`. -/
structure ColumnMap where
  valuesColIdx : List Int
  targetExpr : List (Option Expr)
  singleRowSeq : Nat

def ColumnMap.start (numTableCols : Nat) : ColumnMap :=
  ⟨List.replicate numTableCols (-1), List.replicate numTableCols none, 0⟩

/-- The attribute number of a Var of the given range table entry. -/
def Expr.varOf (varno : Nat) : Expr → Option Int
  | .node (.var v varattno) _ => if v = varno then some varattno else none
  | _ => none

/-- One entry of the target list. -/
def ColumnMap.enter (valuesRte : Option (Nat × List (List Expr))) (numTableCols : Nat) (m : ColumnMap)
    (tle : TargetEntry) : Option ColumnMap :=
  if tle.resno < 1 ∨ tle.resno > numTableCols then none
  else
    let col := (tle.resno - 1).toNat
    match valuesRte with
    | some (varno, _) =>
      match tle.expr.varOf varno with
      | some varattno => some { m with valuesColIdx := m.valuesColIdx.set col (varattno - 1) }
      | none => some { m with targetExpr := m.targetExpr.set col (some tle.expr) }
    | none => some { m with
        valuesColIdx := m.valuesColIdx.set col m.singleRowSeq
        singleRowSeq := m.singleRowSeq + 1 }

/-- The NULL of a column that the statement does not mention. -/
def nullConst (type : Oid) : Expr := .node (.const type none) []

/-- `eval_const_expressions` and the gate. -/
def foldAndCheck (cat : Functions) (evalConstExpressions : Expr → Expr) (e : Expr) : Option Expr :=
  let folded := evalConstExpressions e
  if isAcceptableValuesExpr cat folded then some folded else none

/-- The expression of one cell. -/
def resolveCell (cat : Functions) (evalConstExpressions : Expr → Expr) (m : ColumnMap) (rowExprs : List Expr)
    (col : Nat) (attr : Attribute) : Option Expr :=
  let idx := m.valuesColIdx.getD col (-1)
  if idx ≥ 0 then
    match rowExprs[idx.toNat]? with
    | none => none
    | some e => foldAndCheck cat evalConstExpressions e
  else
    match m.targetExpr.getD col none with
    | some e => foldAndCheck cat evalConstExpressions e
    | none => some (nullConst attr.atttypid)

/-- The cells of one row. -/
def resolveRow (cat : Functions) (evalConstExpressions : Expr → Expr) (m : ColumnMap) (rowExprs : List Expr) :
    Nat → TupleDesc → Option (List Expr)
  | _, [] => some []
  | col, attr :: attrs => do
    let e ← resolveCell cat evalConstExpressions m rowExprs col attr
    let es ← resolveRow cat evalConstExpressions m rowExprs (col + 1) attrs
    some (e :: es)

/-- The cells of all rows. -/
def resolveRows (cat : Functions) (evalConstExpressions : Expr → Expr) (m : ColumnMap) (desc : TupleDesc) :
    List (List Expr) → Option (List (List Expr))
  | [] => some []
  | rowExprs :: rest => do
    let es ← resolveRow cat evalConstExpressions m rowExprs 0 desc
    let ess ← resolveRows cat evalConstExpressions m desc rest
    some (es :: ess)

def tryMatchValues (cat : Functions) (evalConstExpressions : Expr → Expr) (c : Catalog) (caches : Caches)
    (precond : InsertPrecondition) (parse : Query) : Except DirectInsertReason ValuesInsertContext :=
  if !parse.isPureValues then .error .unsupportedInsertShape
  else
    let numRows := parse.valuesLists.length
    if numRows = 0 then .error .unsupportedInsertShape
    else if precond.rowLimit > 0 ∧ (numRows : Int) > precond.rowLimit then .error .greaterThanLimit
    else
      let desc := precond.targetRel.descr
      match parse.targets.foldlM (ColumnMap.enter parse.valuesRte desc.length) (ColumnMap.start desc.length) with
      | none => .error .unsupportedInsertShape
      | some m =>
        match resolveRows cat evalConstExpressions m desc parse.valuesLists with
        | none => .error .unsupportedInsertShape
        | some exprs =>
          let srcColTypes := desc.map (·.atttypid)
          match getCachedInlinedColumnTypes c caches precond.tableId precond.schemaVersion srcColTypes with
          | none => .error .colTypesUnsupported
          | some inlinedColTypes => .ok {
              targetTableOid := precond.targetOid
              tableId := precond.tableId
              schemaVersion := precond.schemaVersion
              numRows := numRows
              numCols := desc.length
              targetColNames := desc.map (·.attname)
              inlinedColTypes := inlinedColTypes
              srcColTypes := srcColTypes
              exprs := exprs.flatten }

/-! ## The column map -/

/-- What the map says about a column. -/
def ColumnMap.entry (m : ColumnMap) (col : Nat) : Int × Option Expr :=
  (m.valuesColIdx.getD col (-1), m.targetExpr.getD col none)

/-- What a target entry says about its column, `seq` being the number of entries before it. -/
def TargetEntry.entry (tle : TargetEntry) (valuesRte : Option (Nat × List (List Expr))) (seq : Nat) :
    Int × Option Expr :=
  match valuesRte with
  | some (varno, _) =>
    match tle.expr.varOf varno with
    | some varattno => (varattno - 1, none)
    | none => (-1, some tle.expr)
  | none => (seq, none)

/-- The column of a target entry. -/
def TargetEntry.column (tle : TargetEntry) : Nat := (tle.resno - 1).toNat

/-- The map has an entry for each column. -/
structure ColumnMap.Sized (n : Nat) (m : ColumnMap) : Prop where
  valuesColIdx : m.valuesColIdx.length = n
  targetExpr : m.targetExpr.length = n

variable {valuesRte : Option (Nat × List (List Expr))} {n : Nat} {m m' : ColumnMap} {tle : TargetEntry}

theorem ColumnMap.sized_start (n : Nat) : (ColumnMap.start n).Sized n := ⟨by simp [start], by simp [start]⟩

theorem ColumnMap.entry_start (n col : Nat) : (ColumnMap.start n).entry col = (-1, none) := by
  simp [entry, start, List.getD_eq_getElem?_getD, List.getElem?_replicate]
  constructor <;> split <;> rfl

/-- What one target entry does to the map. -/
structure ColumnMap.Enters (valuesRte : Option (Nat × List (List Expr))) (n : Nat) (m : ColumnMap) (tle : TargetEntry)
    (m' : ColumnMap) : Prop where
  first : 1 ≤ tle.resno
  last : tle.resno ≤ n
  sized : m'.Sized n
  seq : valuesRte = none → m'.singleRowSeq = m.singleRowSeq + 1
  own : m.entry tle.column = (-1, none) → m'.entry tle.column = tle.entry valuesRte m.singleRowSeq
  others : ∀ col ≠ tle.column, m'.entry col = m.entry col

theorem getD_set_ne {α : Type} (l : List α) (i j : Nat) (a d : α) (h : j ≠ i) : (l.set i a).getD j d = l.getD j d := by
  rw [List.getD_eq_getElem?_getD, List.getD_eq_getElem?_getD, List.getElem?_set_ne (Ne.symm h)]

theorem getD_set_self {α : Type} (l : List α) (i : Nat) (a d : α) (h : i < l.length) : (l.set i a).getD i d = a := by
  rw [List.getD_eq_getElem?_getD, List.getElem?_set_self h, Option.getD_some]

theorem ColumnMap.Sized.enters_values (hm : m.Sized n) (hfirst : 1 ≤ tle.resno) (hlast : tle.resno ≤ n) (idx : Int)
    (seq : Nat) (hentry : tle.entry valuesRte m.singleRowSeq = (idx, none))
    (hseq : valuesRte = none → seq = m.singleRowSeq + 1) :
    ColumnMap.Enters valuesRte n m tle
      { m with valuesColIdx := m.valuesColIdx.set tle.column idx, singleRowSeq := seq } where
  first := hfirst
  last := hlast
  sized := ⟨by simp [hm.valuesColIdx], hm.targetExpr⟩
  seq := hseq
  own h := by
    have hcol : tle.column < m.valuesColIdx.length := by
      rw [hm.valuesColIdx, TargetEntry.column]
      omega
    rw [hentry, ColumnMap.entry, getD_set_self _ _ _ _ hcol]
    exact congrArg (Prod.mk idx) (congrArg Prod.snd h)
  others col hcol := by rw [ColumnMap.entry, getD_set_ne _ _ _ _ _ hcol, ColumnMap.entry]

theorem ColumnMap.Sized.enters_target (hm : m.Sized n) (hfirst : 1 ≤ tle.resno) (hlast : tle.resno ≤ n) {rte : Nat × List (List Expr)}
    (hentry : tle.entry (some rte) m.singleRowSeq = (-1, some tle.expr)) :
    ColumnMap.Enters (some rte) n m tle { m with targetExpr := m.targetExpr.set tle.column (some tle.expr) } where
  first := hfirst
  last := hlast
  sized := ⟨hm.valuesColIdx, by simp [hm.targetExpr]⟩
  seq h := nomatch h
  own h := by
    have hcol : tle.column < m.targetExpr.length := by
      rw [hm.targetExpr, TargetEntry.column]
      omega
    rw [hentry, ColumnMap.entry, getD_set_self _ _ _ _ hcol]
    exact congrArg (Prod.mk · (some tle.expr)) (congrArg Prod.fst h)
  others col hcol := by rw [ColumnMap.entry, getD_set_ne _ _ _ _ _ hcol, ColumnMap.entry]

theorem ColumnMap.Sized.enter (hm : m.Sized n) (h : m.enter valuesRte n tle = some m') :
    ColumnMap.Enters valuesRte n m tle m' := by
  rw [ColumnMap.enter] at h
  split at h
  · cases h
  · next hrange =>
    have hfirst : 1 ≤ tle.resno := by omega
    have hlast : tle.resno ≤ n := by omega
    cases valuesRte with
    | none =>
      cases h
      exact hm.enters_values hfirst hlast m.singleRowSeq (m.singleRowSeq + 1) rfl fun _ => rfl
    | some rte =>
      obtain ⟨varno, lists⟩ := rte
      simp only at h
      cases hvar : tle.expr.varOf varno with
      | some varattno =>
        rw [hvar] at h
        cases h
        exact hm.enters_values hfirst hlast (varattno - 1) m.singleRowSeq (by simp [TargetEntry.entry, hvar]) nofun
      | none =>
        rw [hvar] at h
        cases h
        exact hm.enters_target hfirst hlast (by simp [TargetEntry.entry, hvar])

/-- What a list of target entries does to the map. -/
structure ColumnMap.EntersAll (valuesRte : Option (Nat × List (List Expr))) (n : Nat) (m : ColumnMap)
    (ts : List TargetEntry) (m' : ColumnMap) : Prop where
  range : ∀ tle ∈ ts, 1 ≤ tle.resno ∧ tle.resno ≤ n
  others : ∀ col, (∀ tle ∈ ts, tle.column ≠ col) → m'.entry col = m.entry col
  own : ∀ p (tle : TargetEntry), ts[p]? = some tle → m.entry tle.column = (-1, none) →
    m'.entry tle.column = tle.entry valuesRte (m.singleRowSeq + p)

theorem ColumnMap.Sized.enterAll {ts : List TargetEntry} (hm : m.Sized n)
    (h : ts.foldlM (ColumnMap.enter valuesRte n) m = some m') (hdistinct : (ts.map (·.resno)).Nodup) :
    ColumnMap.EntersAll valuesRte n m ts m' := by
  induction ts generalizing m with
  | nil =>
    cases h
    exact ⟨by simp, fun _ _ => rfl, by simp⟩
  | cons t ts ih =>
    rw [List.foldlM_cons] at h
    obtain ⟨m₁, henter, hrest⟩ := Option.bind_eq_some_iff.mp h
    have hstep := hm.enter henter
    rw [List.map_cons, List.nodup_cons] at hdistinct
    obtain ⟨hrange, hothers, hown⟩ := ih hstep.sized hrest hdistinct.2
    -- two entries of the same column would have the same number
    have hcolumns : ∀ tle ∈ ts, tle.column ≠ t.column := by
      intro tle hmem heq
      have hfirst := (hrange tle hmem).1
      have hfirst' := hstep.first
      simp only [TargetEntry.column] at heq
      have hsame : tle.resno = t.resno := by omega
      exact hdistinct.1 (hsame ▸ List.mem_map_of_mem hmem)
    refine ⟨?_, ?_, ?_⟩
    · intro tle hmem
      rcases List.mem_cons.mp hmem with rfl | hmem
      · exact ⟨hstep.first, hstep.last⟩
      · exact hrange tle hmem
    · intro col hcol
      rw [hothers col fun tle hmem => hcol tle (List.mem_cons_of_mem _ hmem)]
      exact hstep.others col (hcol t List.mem_cons_self).symm
    · intro p tle hp hfree
      cases p with
      | zero =>
        cases Option.some.inj hp
        rw [hothers _ hcolumns]
        exact hstep.own hfree
      | succ p =>
        rw [List.getElem?_cons_succ] at hp
        have hmem := List.mem_of_getElem? hp
        rw [hown p tle hp (by rw [hstep.others _ (hcolumns tle hmem), hfree])]
        cases valuesRte with
        | none => rw [hstep.seq rfl, Nat.add_right_comm, Nat.add_assoc]
        | some rte => rfl

/-! ## Accepted statements -/

/-- What an accepted statement looks like. -/
structure Accepted (cat : Functions) (evalConstExpressions : Expr → Expr) (c : Catalog) (caches : Caches)
    (precond : InsertPrecondition) (parse : Query) (context : ValuesInsertContext) (m : ColumnMap)
    (cells : List (List Expr)) : Prop where
  mapped : parse.targets.foldlM (ColumnMap.enter parse.valuesRte precond.targetRel.descr.length)
    (ColumnMap.start precond.targetRel.descr.length) = some m
  resolved : resolveRows cat evalConstExpressions m precond.targetRel.descr parse.valuesLists = some cells
  exprs : context.exprs = cells.flatten
  rows_pos : 0 < context.numRows
  numRows : context.numRows = parse.valuesLists.length
  numCols : context.numCols = precond.targetRel.descr.length
  srcColTypes : context.srcColTypes = precond.targetRel.descr.map (·.atttypid)
  inlinedColTypes : getCachedInlinedColumnTypes c caches precond.tableId precond.schemaVersion context.srcColTypes =
    some context.inlinedColTypes
  tableId : context.tableId = precond.tableId
  schemaVersion : context.schemaVersion = precond.schemaVersion

theorem tryMatchValues_spec {cat : Functions} {evalConstExpressions : Expr → Expr} {c : Catalog} {caches : Caches}
    {precond : InsertPrecondition} {parse : Query} {context : ValuesInsertContext}
    (h : tryMatchValues cat evalConstExpressions c caches precond parse = .ok context) :
    ∃ m cells, Accepted cat evalConstExpressions c caches precond parse context m cells := by
  simp only [tryMatchValues] at h
  split at h
  · cases h
  split at h
  · cases h
  rename_i hrows
  split at h
  · cases h
  split at h
  · cases h
  rename_i m hm
  split at h
  · cases h
  rename_i cells hcells
  split at h
  · cases h
  rename_i inlinedColTypes htypes
  cases h
  exact ⟨m, cells, hm, hcells, rfl, Nat.pos_of_ne_zero hrows, rfl, rfl, rfl, htypes, rfl, rfl⟩

variable {cat : Functions} {evalConstExpressions : Expr → Expr} {rowExprs : List Expr}

theorem foldAndCheck_eq {e e' : Expr} (h : foldAndCheck cat evalConstExpressions e = some e') :
    e' = evalConstExpressions e := by
  rw [foldAndCheck] at h
  split at h
  · exact (Option.some.inj h).symm
  · cases h

theorem resolveRow_spec {col : Nat} {desc : TupleDesc} {es : List Expr}
    (h : resolveRow cat evalConstExpressions m rowExprs col desc = some es) :
    es.length = desc.length ∧
    ∀ k < desc.length, ∃ attr e, es[k]? = some e ∧ resolveCell cat evalConstExpressions m rowExprs (col + k) attr = some e := by
  induction desc generalizing col es with
  | nil =>
    cases h
    exact ⟨rfl, by simp⟩
  | cons attr attrs ih =>
    rw [resolveRow] at h
    obtain ⟨e, he, h⟩ := Option.bind_eq_some_iff.mp h
    obtain ⟨es', hes, h⟩ := Option.bind_eq_some_iff.mp h
    cases h
    obtain ⟨hlength, hcells⟩ := ih hes
    refine ⟨by simp [hlength], fun k hk => ?_⟩
    cases k with
    | zero => exact ⟨attr, e, rfl, he⟩
    | succ k =>
      obtain ⟨attr', e', hk', he'⟩ := hcells k (by simpa using hk)
      exact ⟨attr', e', by simpa using hk', by rwa [show col + (k + 1) = col + 1 + k by omega]⟩

theorem resolveRows_spec {desc : TupleDesc} {lists cells : List (List Expr)}
    (h : resolveRows cat evalConstExpressions m desc lists = some cells) :
    cells.length = lists.length ∧
    ∀ (i : Nat) (row : List Expr), lists[i]? = some row → ∃ es, cells[i]? = some es ∧
      resolveRow cat evalConstExpressions m row 0 desc = some es := by
  induction lists generalizing cells with
  | nil =>
    cases h
    exact ⟨rfl, by simp⟩
  | cons row rows ih =>
    rw [resolveRows] at h
    obtain ⟨es, hes, h⟩ := Option.bind_eq_some_iff.mp h
    obtain ⟨ess, hess, h⟩ := Option.bind_eq_some_iff.mp h
    cases h
    obtain ⟨hlength, hrows⟩ := ih hess
    refine ⟨by simp [hlength], fun i row' hrow => ?_⟩
    cases i with
    | zero =>
      cases Option.some.inj hrow
      exact ⟨es, rfl, hes⟩
    | succ i => exact hrows i row' (by simpa using hrow)

end PgDucklake.Insert
