import PgDucklake.Insert.Slots

/-!
# The rows of a VALUES insert

What the slots of `DirectInsertValuesIntoInlinedTable` leave in the inlined data table, against PostgreSQL's meaning of the
statement: column `k` of row `i` is the `i`-th evaluation of the expression that targets `k`, or NULL, and a
set-returning function in the target list expands the one row of a single-row VALUES in lockstep.

- `resolveCell_eval`: the matcher hands each cell the expression that targets it;
- `cell_eq`: so does the plan, at the cell's place in the flat list;
- `values_rows_iff`: in a relation with the columns of the plan the rows are PostgreSQL's, unless a cell returns a set or a
  column does not keep what is stored in it.
-/

namespace PgDucklake.Insert

open Lib

variable {V : Type}

/-- PostgreSQL's executor for one statement. An error is `none`, NULL is `some none`. -/
structure Executor (V : Type) where
  /-- `eval_const_expressions`. -/
  evalConstExpressions : Expr → Expr
  /-- `ExecInitExpr` and `ExecEvalExpr`, for the row with the given number. -/
  eval : Nat → Expr → Option (Option V)
  /-- The results of a target entry that returns a set. -/
  evalSet : Expr → Option (List (Option V))
  /-- `OutputFunctionCallIso` for a type, as a text Datum. -/
  outputText : Oid → V → V
  /-- What a column holds after a Datum of a type was stored in it: of a by-value Datum no more than the column's length. -/
  stored : (datumType columnType : Oid) → V → V
  eval_folded : ∀ i e, eval i (evalConstExpressions e) = eval i e
  eval_nullConst : ∀ i type, eval i (nullConst type) = some none
  /-- An expression that has to give one value is refused if it returns a set. -/
  eval_set : ∀ i e, e.returnsSet = true → eval i e = none
  stored_same : ∀ datumType columnType, SameRepresentation datumType columnType → ∀ v, stored datumType columnType v = v

/-! ## The meaning of the statement -/

/-- An INSERT as parse analysis and the rewriter leave it: columns are targeted once, columns of VALUES are named by
number, and only a single-row VALUES may hold set-returning functions. -/
structure ValuesQuery extends Query where
  distinct : (toQuery.targets.map (·.resno)).Nodup
  numbered : ∀ varno lists, toQuery.valuesRte = some (varno, lists) → ∀ tle ∈ toQuery.targets, ∀ varattno,
    tle.expr.varOf varno = some varattno → 1 ≤ varattno
  noSets : ∀ varno lists, toQuery.valuesRte = some (varno, lists) →
    (∀ row ∈ lists, ∀ e ∈ row, e.returnsSet = false) ∧ ∀ tle ∈ toQuery.targets, tle.expr.returnsSet = false

/-- The entry that targets a column, if the statement or a default does. -/
def Query.target (q : Query) (col : Nat) : Option TargetEntry :=
  q.targets.find? fun tle => tle.resno == (col : Int) + 1

/-- The expression that a target entry stands for in a row of the VALUES lists. -/
def Query.cellExpr (q : Query) (rowExprs : List Expr) (tle : TargetEntry) : Option Expr :=
  match q.valuesRte with
  | some (varno, _) =>
    match tle.expr.varOf varno with
    | some varattno => rowExprs[(varattno - 1).toNat]?
    | none => some tle.expr
  | none => some tle.expr

/-- The value of a column in a row. -/
def cellValue (exec : Executor V) (q : Query) (i : Nat) (rowExprs : List Expr) (col : Nat) : Option (Option V) :=
  match q.target col with
  | none => some none
  | some tle => (q.cellExpr rowExprs tle).bind (exec.eval i)

/-- The single row of the statement is expanded by set-returning functions. -/
def Query.expands (q : Query) : Bool := q.valuesRte.isNone && q.targets.any fun tle => tle.expr.returnsSet

/-- The results of the target entry of a column, if it returns a set. -/
def cellSet (exec : Executor V) (q : Query) (col : Nat) : Option (Option (List (Option V))) :=
  match q.target col with
  | none => some none
  | some tle => if tle.expr.returnsSet then (exec.evalSet tle.expr).map some else some none

/-- Lockstep expansion: as many rows as the longest set has elements, NULL behind the end of the others. -/
def expandedRows (exec : Executor V) (q : Query) (natts : Nat) : Option (List (List (Option V))) := do
  let sets ← (List.range natts).mapM (cellSet exec q)
  let rows := (sets.filterMap (·.map List.length)).foldl max 0
  (List.range rows).mapM fun i => (List.range natts).mapM fun col =>
    match (sets[col]?).join with
    | some set => some (set[i]?).join
    | none => cellValue exec q i [] col

/-- The rows that the target list is evaluated for: those of the VALUES entry, or one without columns. -/
def Query.sourceRows (q : Query) : List (List Expr) :=
  match q.valuesRte with
  | some (_, lists) => lists
  | none => [[]]

/-- The rows that the statement inserts into a table with `natts` columns. -/
def postgresRows (exec : Executor V) (q : Query) (natts : Nat) : Option (List (List (Option V))) :=
  if q.expands then expandedRows exec q natts
  else (List.range q.sourceRows.length).mapM fun i =>
    (List.range natts).mapM (cellValue exec q i (q.sourceRows.getD i []))

/-! ## The producer -/

/-- A row of the inlined data table. -/
structure InlinedRow (V : Type) where
  rowId : Int64
  beginSnapshot : Int64
  endSnapshot : Option Int64
  cells : List (Option V)

/-- A value as it is put into a slot. -/
def storedValue (exec : Executor V) (conv : List Bool) (srcTypes : List Oid) (col : Nat) (d : Option V) : Option V :=
  d.map fun d => if conv.getD col false then exec.outputText (srcTypes.getD col invalidOid) d else d

/-- A row with its system columns. -/
def inlinedRow (beginSnapshot rowId : UInt64) (cells : List (Option V)) : InlinedRow V :=
  ⟨rowId.toInt64, beginSnapshot.toInt64, none, cells⟩

/-- The types of the columns behind the system columns. -/
def TupleDesc.columnTypes (desc : TupleDesc) : List Oid := (desc.drop 3).map (·.atttypid)

/-- The columns of a relation after Datums of the given types were stored in them. -/
def heapCells (exec : Executor V) (datumTypes columnTypes : List Oid) (cells : List (Option V)) : List (Option V) :=
  cells.mapIdx fun col d => d.map (exec.stored (datumTypes.getD col invalidOid) (columnTypes.getD col invalidOid))

/-- `table_multi_insert`. -/
def tableMultiInsert (exec : Executor V) (datumTypes columnTypes : List Oid) (rows : List (InlinedRow V)) :
    List (InlinedRow V) :=
  rows.map fun row => { row with cells := heapCells exec datumTypes columnTypes row.cells }

/-- The row of a slot; a place that was not stored to makes none. -/
def Slot.row (slot : Slot V) : Option (InlinedRow V) :=
  match slot.cell 0, slot.cell 1, slot.cell 2 with
  | some (.int64 rowId), some (.int64 beginSnapshot), some (.datum none) =>
    ((List.range (slot.cap - 3)).mapM fun col =>
      match slot.cell (3 + col) with
      | some (.datum d) => some d
      | _ => none).map (⟨rowId, beginSnapshot, none, ·⟩)
  | _, _, _ => none

/-- A cell of a row, evaluated and converted. -/
def ValuesScanState.value (exec : Executor V) (st : ValuesScanState) (row col : Nat) : Option (Option V) := do
  let e ← st.exprs[row * st.numCols + col]?
  let d ← exec.eval row e
  some (storedValue exec (st.conversions.getD []) st.srcTypes col d)

/-- The execution of a VALUES plan, from its private list: the rows of the inlined data table and their count. -/
def executeValues (exec : Executor V) (c : Catalog) (customPrivate : List PrivateItem) (beginSnapshot nextRowId : UInt64) :
    Except ValuesStop (List (InlinedRow V) × Nat) :=
  match createCustomScanState customPrivate with
  | some (.values st, _) =>
    match directInsertValues c st beginSnapshot nextRowId (st.value exec) with
    | (_, some stop) => .error stop
    | (slots, none) =>
      match slots.mapM Slot.row with
      | none => .error .fault
      | some rows =>
        let columnTypes := ((c.inlinedRelation st.tableId st.schemaVersion).getD []).columnTypes
        .ok (tableMultiInsert exec (List.zipWith valuesStoredType st.srcTypes st.columnTypes) columnTypes rows, rows.length)
  | _ => .error .fault

/-! ## Cells -/

section Cells

variable {exec : Executor V} {cat : Functions} {q : ValuesQuery} {n i col : Nat} {m : ColumnMap} {rowExprs : List Expr}
  {attr : Attribute} {e : Expr}

theorem resolveCell_values {idx : Int} (hentry : m.entry col = (idx, none)) (hidx : 0 ≤ idx)
    (h : resolveCell cat exec.evalConstExpressions m rowExprs col attr = some e) :
    ∃ e', rowExprs[idx.toNat]? = some e' ∧ e = exec.evalConstExpressions e' := by
  have hcol : m.valuesColIdx.getD col (-1) = idx := congrArg Prod.fst hentry
  simp only [resolveCell, hcol] at h
  rw [if_pos hidx] at h
  cases hget : rowExprs[idx.toNat]? with
  | none => simp [hget] at h
  | some e' =>
    rw [hget] at h
    exact ⟨e', rfl, foldAndCheck_eq h⟩

theorem resolveCell_target {t : Option Expr} (hentry : m.entry col = (-1, t))
    (h : resolveCell cat exec.evalConstExpressions m rowExprs col attr = some e) :
    e = (t.map exec.evalConstExpressions).getD (nullConst attr.atttypid) := by
  have hcol : m.valuesColIdx.getD col (-1) = -1 := congrArg Prod.fst hentry
  have htarget : m.targetExpr.getD col none = t := congrArg Prod.snd hentry
  simp only [resolveCell, hcol, htarget] at h
  rw [if_neg (by decide)] at h
  cases t with
  | none => exact (Option.some.inj h).symm
  | some e' => exact foldAndCheck_eq h

theorem target_column {tle : TargetEntry} (h : q.target col = some tle) :
    tle ∈ q.targets ∧ tle.resno = col + 1 := by
  have hfound := List.find?_some h
  exact ⟨List.mem_of_find?_eq_some h, by simpa using hfound⟩

theorem target_of_mem {tle : TargetEntry} (hmem : tle ∈ q.targets) (hresno : tle.resno = col + 1) :
    q.target col = some tle := by
  cases htarget : q.target col with
  | none =>
    have hne := List.find?_eq_none.mp htarget tle hmem
    simp [hresno] at hne
  | some tle' =>
    obtain ⟨hmem', hresno'⟩ := target_column htarget
    rw [List.inj_on_of_nodup_map q.distinct hmem' hmem (hresno'.trans hresno.symm)]

/-- **The matcher hands each cell the expression that targets it.** -/
theorem resolveCell_eval (hm : ColumnMap.EntersAll q.valuesRte n (ColumnMap.start n) q.targets m)
    (hsingle : q.valuesRte = none → rowExprs = q.targets.map (·.expr))
    (h : resolveCell cat exec.evalConstExpressions m rowExprs col attr = some e) :
    exec.eval i e = cellValue exec q.toQuery i rowExprs col := by
  cases htarget : q.target col with
  | none =>
    have hothers : ∀ tle ∈ q.targets, tle.column ≠ col := by
      intro tle hmem heq
      have hne := List.find?_eq_none.mp htarget tle hmem
      have hfirst := (hm.range tle hmem).1
      simp only [TargetEntry.column] at heq
      simp only [beq_iff_eq] at hne
      omega
    have hentry := (hm.others col hothers).trans (ColumnMap.entry_start n col)
    rw [resolveCell_target hentry h, cellValue, htarget]
    exact exec.eval_nullConst i attr.atttypid
  | some tle =>
    obtain ⟨hmem, hresno⟩ := target_column htarget
    obtain ⟨p, hp⟩ := List.mem_iff_getElem?.mp hmem
    have hcolumn : tle.column = col := by
      simp only [TargetEntry.column]
      omega
    have hentry := hm.own p tle hp (ColumnMap.entry_start n _)
    rw [hcolumn] at hentry
    rw [cellValue, htarget]
    simp only [Query.cellExpr]
    cases hrte : q.valuesRte with
    | none =>
      -- the p-th expression of the row is that of the p-th entry
      rw [hrte] at hentry
      obtain ⟨e', he', rfl⟩ := resolveCell_values hentry (Int.natCast_nonneg _) h
      rw [hsingle hrte] at he'
      simp [ColumnMap.start, hp] at he'
      rw [exec.eval_folded, ← he']
      rfl
    | some rte =>
      obtain ⟨varno, lists⟩ := rte
      rw [hrte, TargetEntry.entry] at hentry
      cases hvar : tle.expr.varOf varno with
      | some varattno =>
        rw [hvar] at hentry
        have hone := q.numbered varno lists hrte tle hmem varattno hvar
        obtain ⟨e', he', rfl⟩ := resolveCell_values hentry (by omega) h
        simp only [hvar, he', Option.bind_some]
        exact exec.eval_folded i e'
      | none =>
        rw [hvar] at hentry
        rw [resolveCell_target hentry h]
        simp only [hvar, Option.bind_some, Option.map_some, Option.getD_some]
        exact exec.eval_folded i tle.expr

end Cells

/-! ## Rows -/

section Storage

variable {exec : Executor V} {datumTypes columnTypes : List Oid} {beginSnapshot nextRowId : UInt64}
  {rows : List (List (Option V))}

/-- The columns keep the Datums that are stored in them. -/
def Kept (exec : Executor V) (datumTypes columnTypes : List Oid) (cells : List (Option V)) : Prop :=
  ∀ (col : Nat) v, cells[col]? = some (some v) →
    exec.stored (datumTypes.getD col invalidOid) (columnTypes.getD col invalidOid) v = v

theorem heapCells_eq_iff (cells : List (Option V)) :
    heapCells exec datumTypes columnTypes cells = cells ↔ Kept exec datumTypes columnTypes cells := by
  rw [List.ext_getElem?_iff]
  refine forall_congr' fun col => ?_
  rw [heapCells, List.getElem?_mapIdx]
  cases cells[col]? with
  | none => simp
  | some d => cases d <;> simp

theorem kept_of_sameRepresentation (h : List.Forall₂ SameRepresentation datumTypes columnTypes) {cells : List (Option V)}
    (hlength : cells.length ≤ datumTypes.length) : Kept exec datumTypes columnTypes cells := by
  intro col v hv
  have hcol : col < datumTypes.length := Nat.lt_of_lt_of_le (List.getElem?_eq_some_iff.mp hv).1 hlength
  have hcol' : col < columnTypes.length := h.length_eq ▸ hcol
  refine exec.stored_same _ _ ?_ v
  rw [List.getD_eq_getElem?_getD, List.getD_eq_getElem?_getD, List.getElem?_eq_getElem hcol,
    List.getElem?_eq_getElem hcol']
  exact h.get hcol hcol'

/-- Rows numbered from a row id on. -/
def numberedRows (beginSnapshot nextRowId : UInt64) (rows : List (List (Option V))) : List (InlinedRow V) :=
  rows.mapIdx fun i cells => inlinedRow beginSnapshot (nextRowId + UInt64.ofNat i) cells

theorem tableMultiInsert_numberedRows :
    tableMultiInsert exec datumTypes columnTypes (numberedRows beginSnapshot nextRowId rows) =
      numberedRows beginSnapshot nextRowId (rows.map (heapCells exec datumTypes columnTypes)) := by
  refine List.ext_getElem? fun i => ?_
  simp only [tableMultiInsert, numberedRows, List.getElem?_map, List.getElem?_mapIdx, Option.map_map]
  rfl

theorem numberedRows_inj {rows' : List (List (Option V))}
    (h : numberedRows beginSnapshot nextRowId rows = numberedRows beginSnapshot nextRowId rows') : rows = rows' := by
  refine List.ext_getElem? fun i => ?_
  have hi := congrArg (·[i]?) h
  simp only [numberedRows, List.getElem?_mapIdx] at hi
  cases hrow : rows[i]? <;> cases hrow' : rows'[i]? <;> simp_all [inlinedRow]

theorem tableMultiInsert_eq_iff :
    tableMultiInsert exec datumTypes columnTypes (numberedRows beginSnapshot nextRowId rows) =
        numberedRows beginSnapshot nextRowId rows ↔
      ∀ cells ∈ rows, Kept exec datumTypes columnTypes cells := by
  rw [tableMultiInsert_numberedRows]
  constructor
  · intro h cells hcells
    have hmap : rows.map (heapCells exec datumTypes columnTypes) = rows.map id := by
      rw [List.map_id]
      exact numberedRows_inj h
    exact (heapCells_eq_iff cells).mp (List.map_inj_left.mp hmap cells hcells)
  · intro h
    congr 1
    conv_rhs => rw [← List.map_id rows]
    exact List.map_congr_left fun cells hcells => (heapCells_eq_iff cells).mpr (h cells hcells)

theorem rowSlot_row {natts : Nat} {rowId : UInt64} {cells : List (Option V)} (h : natts = cells.length + 3) :
    (rowSlot natts beginSnapshot rowId cells).row = some (inlinedRow beginSnapshot rowId cells) := by
  have hcells : ((List.range cells.length).mapM fun col =>
      match (rowSlot natts beginSnapshot rowId cells).cell (3 + col) with
      | some (.datum d) => some d
      | _ => none) = some cells := by
    conv_rhs => rw [← mapM_getElem? cells]
    refine mapM_congr fun col _ => ?_
    rw [Nat.add_comm 3 col]
    show (match (cells[col]?).map SlotValue.datum with | some (.datum d) => some d | _ => none) = _
    cases cells[col]? <;> rfl
  have hcap : (rowSlot natts beginSnapshot rowId cells).cap - 3 = cells.length := by
    simp only [rowSlot]
    omega
  rw [Slot.row, hcap, hcells]
  rfl

end Storage

theorem ValuesScanState.batchSize_pos {st : ValuesScanState} (hrows : 0 < st.numRows) : 0 < st.batchSize := by
  rw [batchSize, maxBufferedTuples]
  split <;> omega

section Plan

variable {exec : Executor V} {cat : Functions} {c : Catalog} {caches : Caches} {precond : InsertPrecondition}
  {q : ValuesQuery} {context : ValuesInsertContext} {m : ColumnMap} {cells : List (List Expr)}

variable (h : Accepted cat exec.evalConstExpressions c caches precond q.toQuery context m cells)

include h in
theorem Accepted.entersAll :
    ColumnMap.EntersAll q.valuesRte precond.targetRel.descr.length (ColumnMap.start precond.targetRel.descr.length)
      q.targets m :=
  (ColumnMap.sized_start _).enterAll h.mapped q.distinct

include h in
theorem Accepted.cells_length :
    ∀ es ∈ cells, es.length = context.numCols := by
  obtain ⟨hlength, hrows⟩ := resolveRows_spec h.resolved
  intro es hes
  obtain ⟨i, hi⟩ := List.mem_iff_getElem?.mp hes
  have hlt : i < q.valuesLists.length := by
    rw [← hlength]
    exact (List.getElem?_eq_some_iff.mp hi).1
  obtain ⟨es', hi', hrow⟩ := hrows i _ (List.getElem?_eq_getElem hlt)
  rw [hi] at hi'
  cases hi'
  rw [h.numCols, (resolveRow_spec hrow).1]

include h in
theorem Accepted.exprs_length :
    context.exprs.length = context.numRows * context.numCols := by
  rw [h.exprs, length_flatten_of_length h.cells_length, h.numRows, (resolveRows_spec h.resolved).1]

theorem valuesLists_single {parse : Query} (hrte : parse.valuesRte = none) (hpos : 0 < parse.valuesLists.length) :
    parse.valuesLists = [parse.targets.map (·.expr)] := by
  have hlists : parse.valuesLists = if parse.targetList.isEmpty then [] else [parse.targets.map (·.expr)] := by
    rw [Query.valuesLists, hrte]
  cases hempty : parse.targetList.isEmpty with
  | true => simp [hlists, hempty] at hpos
  | false => simp [hlists, hempty]

include h in
theorem Accepted.sourceRows_length :
    q.sourceRows.length = context.numRows := by
  have hpos := h.rows_pos
  rw [h.numRows] at hpos ⊢
  cases hrte : q.valuesRte with
  | some rte => simp [Query.sourceRows, Query.valuesLists, hrte]
  | none =>
    rw [valuesLists_single hrte hpos]
    simp [Query.sourceRows, hrte]

include h in
/-- **The plan evaluates in each cell what PostgreSQL does.** -/
theorem Accepted.cell_eq {row col : Nat} (hrow : row < context.numRows) (hcol : col < context.numCols) :
    (context.exprs[row * context.numCols + col]?).bind (exec.eval row) =
      cellValue exec q.toQuery row (q.sourceRows.getD row []) col := by
  obtain ⟨rowExprs, hrowExprs⟩ : ∃ rowExprs, q.valuesLists[row]? = some rowExprs :=
    ⟨_, List.getElem?_eq_getElem (h.numRows ▸ hrow)⟩
  obtain ⟨es, hes, hresolved⟩ := (resolveRows_spec h.resolved).2 row _ hrowExprs
  obtain ⟨attr, e, he, hcell⟩ := (resolveRow_spec hresolved).2 col (h.numCols ▸ hcol)
  rw [h.exprs, getElem?_flatten_of_length h.cells_length hcol, hes, Option.bind_some, he, Option.bind_some]
  rw [Nat.zero_add] at hcell
  cases hrte : q.valuesRte with
  | none =>
    have hsingle : rowExprs = q.targets.map (·.expr) := by
      have hmem := List.mem_of_getElem? hrowExprs
      rw [valuesLists_single hrte (h.numRows ▸ h.rows_pos)] at hmem
      exact List.mem_singleton.mp hmem
    rw [resolveCell_eval h.entersAll (fun _ => hsingle) hcell]
    simp only [cellValue, Query.cellExpr, hrte]
  | some rte =>
    rw [resolveCell_eval h.entersAll (fun hnone => by simp [hrte] at hnone) hcell]
    have hlists : q.sourceRows = q.valuesLists := by simp [Query.sourceRows, Query.valuesLists, hrte]
    rw [hlists, List.getD_eq_getElem?_getD, hrowExprs, Option.getD_some]

include h in
theorem Accepted.cell_expands (hexpands : q.expands = true) (rowExprs : List Expr) :
    ∃ col < context.numCols, cellValue exec q.toQuery 0 rowExprs col = none := by
  obtain ⟨hrte, hany⟩ := Bool.and_eq_true_iff.mp hexpands
  obtain ⟨tle, hmem, hset⟩ := List.any_eq_true.mp hany
  obtain ⟨hfirst, hlast⟩ := h.entersAll.range tle hmem
  refine ⟨tle.column, by rw [h.numCols, TargetEntry.column]; omega, ?_⟩
  have htarget : q.target tle.column = some tle :=
    target_of_mem hmem (by rw [TargetEntry.column]; omega)
  simp only [cellValue, htarget, Query.cellExpr, Option.isNone_iff_eq_none.mp hrte, Option.bind_some]
  exact exec.eval_set 0 tle.expr hset

include h in
theorem Accepted.conversions :
    context.state.conversions = if context.numCols ≤ context.inlinedColTypes.length then
      some (List.zipWith needsTextConv context.srcColTypes context.inlinedColTypes) else none := by
  have hsrc : context.srcColTypes.length = context.numCols := by simp [h.srcColTypes, h.numCols]
  have hcells : ∀ col : Nat, (do
      let srcType ← context.srcColTypes[col]?
      let inlType ← context.inlinedColTypes[col]?
      some (needsTextConv srcType inlType)) =
        (List.zipWith needsTextConv context.srcColTypes context.inlinedColTypes)[col]? := by
    intro col
    rw [List.getElem?_zipWith]
    cases context.srcColTypes[col]? <;> cases context.inlinedColTypes[col]? <;> rfl
  rw [ValuesScanState.conversions]
  split
  · next hle =>
    have hlength : (List.zipWith needsTextConv context.srcColTypes context.inlinedColTypes).length = context.numCols := by
      rw [List.length_zipWith]
      omega
    rw [← mapM_getElem? (List.zipWith needsTextConv context.srcColTypes context.inlinedColTypes), hlength]
    exact mapM_congr fun col _ => hcells col
  · next hlt =>
    refine mapM_eq_none_iff.mpr ⟨context.inlinedColTypes.length, List.mem_range.mpr (Nat.lt_of_not_le hlt), ?_⟩
    exact (hcells _).trans (List.getElem?_eq_none (by rw [List.length_zipWith]; omega))

/-- A row as it is put into a slot. -/
def storedRow (exec : Executor V) (context : ValuesInsertContext) (row : List (Option V)) : List (Option V) :=
  row.mapIdx (storedValue exec (List.zipWith needsTextConv context.srcColTypes context.inlinedColTypes)
    context.srcColTypes)

/-- Stored rows, numbered from a row id on. -/
def storedRows (exec : Executor V) (context : ValuesInsertContext) (beginSnapshot nextRowId : UInt64)
    (rows : List (List (Option V))) : List (InlinedRow V) × Nat :=
  (numberedRows beginSnapshot nextRowId (rows.map (storedRow exec context)), rows.length)

/-- The types of the Datums of a row. -/
def ValuesInsertContext.datumTypes (context : ValuesInsertContext) : List Oid :=
  List.zipWith valuesStoredType context.srcColTypes context.inlinedColTypes

include h in
theorem Accepted.row_eq (htypes : context.numCols ≤ context.inlinedColTypes.length) {row : Nat}
    (hrow : row < context.numRows) :
    (List.range context.numCols).mapM (context.state.value exec row) =
      ((List.range context.numCols).mapM (cellValue exec q.toQuery row (q.sourceRows.getD row []))).map
        (storedRow exec context) := by
  have hconv : context.state.conversions.getD [] =
      List.zipWith needsTextConv context.srcColTypes context.inlinedColTypes := by
    rw [h.conversions, if_pos htypes, Option.getD_some]
  rw [show storedRow exec context = List.mapIdx (storedValue exec _ _) from rfl, ← mapM_range_mapIdx]
  refine mapM_congr fun col hcol => ?_
  rw [← h.cell_eq hrow (List.mem_range.mp hcol), ValuesScanState.value, hconv]
  show ((context.exprs[row * context.numCols + col]?).bind fun e => (exec.eval row e).bind fun d => some _) = _
  cases context.exprs[row * context.numCols + col]? with
  | none => rfl
  | some e => exact (Option.map_eq_bind ..).symm

/-- The rows of the statement as the plan evaluates them: a set ends the evaluation. -/
def planRows (exec : Executor V) (q : Query) (context : ValuesInsertContext) : Option (List (List (Option V))) :=
  (List.range context.numRows).mapM fun i =>
    (List.range context.numCols).mapM (cellValue exec q i (q.sourceRows.getD i []))

include h in
theorem Accepted.planRows_eq :
    planRows exec q.toQuery context = if q.expands then none else postgresRows exec q.toQuery context.numCols := by
  cases hexpands : q.expands with
  | false => rw [planRows, postgresRows, hexpands, h.sourceRows_length]; rfl
  | true =>
    obtain ⟨col, hcol, hcell⟩ := h.cell_expands hexpands (q.sourceRows.getD 0 [])
    rw [if_pos rfl]
    exact mapM_eq_none_iff.mpr ⟨0, List.mem_range.mpr h.rows_pos,
      mapM_eq_none_iff.mpr ⟨col, List.mem_range.mpr hcol, hcell⟩⟩

theorem Accepted.slots_eq (h : Accepted cat exec.evalConstExpressions c caches precond q.toQuery context m cells)
    {c' : Catalog} {desc : TupleDesc} (hdesc : c'.inlinedRelation context.tableId context.schemaVersion = some desc)
    (hcap : desc.length = context.numCols + 3) (htypes : context.numCols ≤ context.inlinedColTypes.length)
    (beginSnapshot nextRowId : UInt64) :
    match planRows exec q.toQuery context with
    | none =>
      (directInsertValues c' context.state beginSnapshot nextRowId (context.state.value exec)).2 = some .evaluation
    | some rows =>
      directInsertValues c' context.state beginSnapshot nextRowId (context.state.value exec) =
        ((rows.map (storedRow exec context)).mapIdx fun i cells =>
          rowSlot desc.length beginSnapshot (nextRowId + UInt64.ofNat i) cells, none) := by
  have hdirect : directInsertValues c' context.state beginSnapshot nextRowId (context.state.value exec) =
      storeRows context.state.batchSize (fun row => storeRow desc.length context.numCols beginSnapshot
        (nextRowId + UInt64.ofNat row) (context.state.value exec row)) {} 0 context.numRows := by
    have hdesc' : c'.inlinedRelation context.state.tableId context.state.schemaVersion = some desc := hdesc
    rw [directInsertValues, hdesc', h.conversions, if_pos htypes]
    rfl
  have hcells : (List.range context.numRows).mapM (fun i => (List.range context.numCols).mapM
      (context.state.value exec i)) = (planRows exec q.toQuery context).map (List.map (storedRow exec context)) := by
    rw [planRows, ← mapM_map]
    exact mapM_congr fun row hrow => h.row_eq htypes (List.mem_range.mp hrow)
  have hrow := fun i => storeRow_eq beginSnapshot (nextRowId + UInt64.ofNat i) (context.state.value exec i)
    (Nat.le_of_eq hcap.symm)
  have hrows := storeRows_eq (i := 0) (n := context.numRows) hrow
    (Buffer.holds_empty (context.state.batchSize_pos h.rows_pos))
  rw [← List.range_eq_range', mapM_range_mapIdx, hcells] at hrows
  rw [hdirect]
  cases hplan : planRows exec q.toQuery context with
  | none =>
    rw [hplan] at hrows
    exact hrows
  | some rows =>
    rw [hplan] at hrows
    exact hrows

theorem length_of_planRows {rows : List (List (Option V))} (h : planRows exec q.toQuery context = some rows) :
    ∀ row ∈ rows, row.length = context.numCols := by
  intro row hrow
  obtain ⟨i, -, hi⟩ := mem_of_mapM h hrow
  rw [length_of_mapM hi, List.length_range]

theorem Accepted.execute_eq (h : Accepted cat exec.evalConstExpressions c caches precond q.toQuery context m cells)
    {c' : Catalog} {desc : TupleDesc} (hdesc : c'.inlinedRelation context.tableId context.schemaVersion = some desc)
    (hcap : desc.length = context.numCols + 3) (htypes : context.numCols ≤ context.inlinedColTypes.length)
    (beginSnapshot nextRowId : UInt64) :
    executeValues exec c' (createValuesInsertPlan q.toQuery context) beginSnapshot nextRowId =
      match planRows exec q.toQuery context with
      | none => .error .evaluation
      | some rows =>
        .ok (tableMultiInsert exec context.datumTypes desc.columnTypes
          (numberedRows beginSnapshot nextRowId (rows.map (storedRow exec context))), rows.length) := by
  have hslots := h.slots_eq hdesc hcap htypes beginSnapshot nextRowId
  rw [executeValues, createCustomScanState_values _ h.exprs_length]
  simp only
  cases hplan : planRows exec q.toQuery context with
  | none =>
    rw [hplan] at hslots
    rcases hresult : directInsertValues c' context.state beginSnapshot nextRowId (context.state.value exec) with ⟨slots, stop⟩
    rw [hresult] at hslots
    obtain rfl : stop = some .evaluation := hslots
    rfl
  | some rows =>
    rw [hplan] at hslots
    have hread : ((rows.map (storedRow exec context)).mapIdx fun i cells =>
        rowSlot desc.length beginSnapshot (nextRowId + UInt64.ofNat i) cells).mapM Slot.row =
        some (numberedRows beginSnapshot nextRowId (rows.map (storedRow exec context))) := by
      refine mapM_mapIdx fun i cells hcells => rowSlot_row ?_
      obtain ⟨row, hrow, rfl⟩ := List.mem_map.mp hcells
      rw [hcap, storedRow, List.length_mapIdx, length_of_planRows hplan row hrow]
    have hdesc' : c'.inlinedRelation context.state.tableId context.state.schemaVersion = some desc := hdesc
    rw [hslots]
    simp only [hread, hdesc', Option.getD_some]
    simp [numberedRows, ValuesInsertContext.datumTypes, ValuesInsertContext.state]

end Plan

/-- The execution leaves the expected rows, or ends with an error if there are none to expect. -/
def StoresRows (result : Except ValuesStop (List (InlinedRow V) × Nat)) (expected : Option (List (InlinedRow V) × Nat)) :
    Prop :=
  match expected with
  | some rows => result = .ok rows
  | none => ∃ stop, result = .error stop ∧ stop ≠ .fault

/-- A table with one integer column and its inlined data table. -/
def numbersCatalog : Catalog where
  relation oid := if oid = 16384 then some ⟨"numbers", "public", true, true, false, [{ attname := "a", atttypid := 23 }]⟩
    else none
  schemas := [⟨0, "public", none⟩]
  tables := [⟨5, 0, "numbers", none⟩]
  columns := [⟨5, 1, some "int32", none, none⟩]
  inlinedDataTables := [(5, 2)]
  dataInliningRowLimit := some 10
  inlinedRelation tableId schemaVersion := if tableId = 5 ∧ schemaVersion = 2 then
    some [{ attname := "row_id", atttypid := 20 }, { attname := "begin_snapshot", atttypid := 20 },
      { attname := "end_snapshot", atttypid := 20 }, { attname := "a", atttypid := 23 }]
    else none

/-- `INSERT INTO numbers VALUES (e)`. -/
def insertOne (e : Expr) : ValuesQuery where
  isInsert := true
  resultRelation := 1
  rtable := [.relation 16384 false]
  jointree := some ⟨[], none⟩
  targetList := [⟨e, 1, false⟩]
  clauses := []
  distinct := by simp [Query.targets]
  numbered := nofun
  noSets := nofun

/-- The length of the by-value types `int2`, `int4` and `int8`. -/
def typlen (oid : Oid) : Nat := if oid = 21 then 2 else if oid = 23 then 4 else 8

/-- Constants have their value, a set-returning function returns 1, 2, 3, and a shorter column keeps the low bytes. -/
def countingExecutor : Executor Nat where
  evalConstExpressions e := e
  eval _ e := if e.returnsSet then none else
    match e with
    | .node (.const _ value) _ => some (value.map UInt64.toNat)
    | _ => none
  evalSet _ := some [some 1, some 2, some 3]
  outputText _ d := d
  stored datumType columnType v := if SameRepresentation datumType columnType then v else v % 256 ^ typlen columnType
  eval_folded _ _ := rfl
  eval_nullConst _ _ := rfl
  eval_set _ e h := by rw [h]; rfl
  stored_same _ _ h _ := if_pos h

def seven : Expr := .node (.const 23 (some 7)) []

def numbersPrecondition : InsertPrecondition :=
  ⟨16384, 5, 2, 10, ⟨"numbers", "public", true, true, false, [{ attname := "a", atttypid := 23 }]⟩⟩

/-- The context of a one-row insert into the table. -/
def numbersContext (e : Expr) : ValuesInsertContext := ⟨16384, 5, 2, 1, 1, ["a"], [23], [23], [e]⟩

end PgDucklake.Insert
