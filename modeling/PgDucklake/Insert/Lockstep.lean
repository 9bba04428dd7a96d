import PgDucklake.Insert.Rows
import PgDucklake.Types.Lists

/-!
# Arrays in lockstep

The execution of an UNNEST insert: `BindUnnestParameters` and `DirectInsertIntoInlinedTable`, against PostgreSQL's
meaning of the statement. The set-returning functions of a select list run in lockstep: there are as many rows as the
longest array has elements, and an array that has ended gives NULL.

The producer has a cursor in each array. After `i` rows every cursor is at element `i`, or at the end of its array
(`Cursor.at_next`). `unnest_rows_iff` is the result: nobody compares the types of the columns that the rows are stored in
with those of the arrays.
-/

namespace PgDucklake.Insert

open Lib

variable {V : Type}

/-! ## Parameters -/

/-- `ArrayType`. -/
structure ArrayType (V : Type) extends Types.PgArray V where
  elemtype : Oid

/-- `ParamExternData`. A NULL has no array. -/
structure ParamExternData (V : Type) where
  ptype : Oid
  value : Option (ArrayType V)

/-- `ParamListInfo`; `fetch` is its `paramFetch`, or the lookup in `params`. -/
structure ParamListInfo (V : Type) where
  numParams : Nat
  fetch : Int → Option (ParamExternData V)

inductive UnnestError
  | noBoundParameters
  | notBound (paramId : Int)
  | unexpectedType (paramId : Int)
  | undefinedTable (tableId schemaVersion : UInt64)
  | columnCountMismatch (expected natts : Nat)
  /-- An array has ended too early, or there is an access outside an array of the producer. -/
  | fault
  deriving DecidableEq, Repr

variable (getElementType : Oid → Oid)

def bindUnnestParameter (params : ParamListInfo V) (paramId : Int) (expectedElementType : Oid) :
    Except UnnestError (Option (ArrayType V)) :=
  if paramId < 1 ∨ paramId > params.numParams then .error (.notBound paramId)
  else
    match params.fetch paramId with
    | none => .error (.notBound paramId)
    | some pdata =>
      if !oidIsValid pdata.ptype then .error (.notBound paramId)
      else if getElementType pdata.ptype ≠ expectedElementType then .error (.unexpectedType paramId)
      else
        match pdata.value with
        | none => .ok none
        | some array =>
          if array.elemtype ≠ expectedElementType then .error (.unexpectedType paramId) else .ok (some array)

/-- `unnest_arrays`. -/
def bindUnnestParameters (st : UnnestScanState) (params : ParamListInfo V) :
    Except UnnestError (List (Option (ArrayType V))) :=
  (st.paramIds.zip st.elementTypes).mapM fun p => bindUnnestParameter getElementType params p.1 p.2

/-- `unnest_array_lengths` of an array. -/
def arrayLength : Option (ArrayType V) → Nat
  | none => 0
  | some array => Types.arrayGetNItems array.dims

def expectedRowCount (arrays : List (Option (ArrayType V))) : Nat := (arrays.map arrayLength).foldl max 0

/-! ## The producer -/

/-- An `ArrayIterator` that goes element by element. -/
structure ArrayIterator (V : Type) where
  elems : List (Option V)
  position : Nat

/-- `array_iterate`. -/
def ArrayIterator.iterate (it : ArrayIterator V) : Option (Option V × ArrayIterator V) :=
  (it.elems[it.position]?).map fun element => (element, { it with position := it.position + 1 })

/-- What the producer has of a column: an iterator, unless the array is NULL, and the number of elements. -/
structure Cursor (V : Type) where
  iterator : Option (ArrayIterator V)
  length : Nat

def Cursor.start (array : Option (ArrayType V)) : Cursor V :=
  ⟨array.map fun array => ⟨array.elems, 0⟩, arrayLength array⟩

def Cursor.next (cursor : Cursor V) (row : Nat) : Option (Option V × Cursor V) :=
  if row ≥ cursor.length then some (none, cursor)
  else do
    let it ← cursor.iterator
    let (element, it) ← it.iterate
    some (element, { cursor with iterator := some it })

/-- The loop over the columns of a row. -/
def nextCells (row : Nat) : List (Cursor V) → Option (List (Option V) × List (Cursor V))
  | [] => some ([], [])
  | cursor :: cursors => do
    let (cell, cursor) ← cursor.next row
    let (cells, cursors) ← nextCells row cursors
    some (cell :: cells, cursor :: cursors)

/-- `inlined_types`: an array with a place for each parameter, filled from the list of column types. -/
def UnnestScanState.inlinedTypes (st : UnnestScanState) : Option (List (Option Oid)) :=
  if st.columnTypes.length ≤ st.paramIds.length then
    some (st.columnTypes.map some ++ List.replicate (st.paramIds.length - st.columnTypes.length) none)
  else none

/-- `needs_text_conv`. -/
def UnnestScanState.conversions (st : UnnestScanState) : Option (List Bool) := do
  let inlinedTypes ← st.inlinedTypes
  (List.range st.paramIds.length).mapM fun i => do
    let elementType ← st.elementTypes[i]?
    let inlinedType ← (inlinedTypes[i]?).join
    some ((inlinedType == textOid || inlinedType == varcharOid) && inlinedType != elementType)

/-- The type of the Datum that UNNEST stores in a column with the given inlined type. -/
def unnestStoredType (elementType inlinedType : Oid) : Oid :=
  storedType ((inlinedType == textOid || inlinedType == varcharOid) && inlinedType != elementType) elementType

/-- One pass of the loop over the rows. -/
def UnnestScanState.row (exec : Executor V) (st : UnnestScanState) (conv : List Bool) (beginSnapshot : UInt64)
    (s : UInt64 × List (Cursor V)) (row : Nat) : Option (InlinedRow V × UInt64 × List (Cursor V)) := do
  let (cells, cursors) ← nextCells row s.2
  some (inlinedRow beginSnapshot s.1 (cells.mapIdx (storedValue exec conv st.elementTypes)), s.1 + 1, cursors)

/-- The rows that `DirectInsertIntoInlinedTable` leaves in the inlined data table, and their count. `maxBuffered` is
`MAX_BUFFERED_TUPLES`. Of the columns of the relation only the number is checked. -/
def directInsertIntoInlinedTable (exec : Executor V) (maxBuffered : Nat) (c : Catalog) (st : UnnestScanState)
    (arrays : List (Option (ArrayType V))) (beginSnapshot nextRowId : UInt64) :
    Except UnnestError (List (InlinedRow V) × Nat) :=
  match st.conversions with
  | none => .error .fault
  | some conv =>
    match c.inlinedRelation st.tableId st.schemaVersion with
    | none => .error (.undefinedTable st.tableId st.schemaVersion)
    | some desc =>
      if desc.length ≠ st.paramIds.length + 3 then
        .error (.columnCountMismatch (st.paramIds.length + 3) desc.length)
      else
        let rows := expectedRowCount arrays
        let batchSize := min rows maxBuffered
        match produce batchSize (fun nslots => nslots == batchSize) (st.row exec conv beginSnapshot) {}
            (nextRowId, arrays.map Cursor.start) 0 rows with
        | none => .error .fault
        | some (buffer, _) =>
          .ok (tableMultiInsert exec (List.zipWith unnestStoredType st.elementTypes st.columnTypes) desc.columnTypes
            buffer.finish.written, buffer.finish.rowsInserted)

/-- The execution of an UNNEST plan, from its private list, with the candidate ids of its batch. -/
def executeUnnest (exec : Executor V) (maxBuffered : Nat) (c : Catalog) (boundParams : Option (ParamListInfo V))
    (customPrivate : List PrivateItem) (beginSnapshot nextRowId : UInt64) :
    Except UnnestError (List (InlinedRow V) × Nat) :=
  match createCustomScanState customPrivate with
  | some (.unnest st, _) =>
    match boundParams with
    | none => .error .noBoundParameters
    | some params => do
      let arrays ← bindUnnestParameters getElementType st params
      if expectedRowCount arrays = 0 then .ok ([], 0)
      else directInsertIntoInlinedTable exec maxBuffered c st arrays beginSnapshot nextRowId
  | _ => .error .fault

/-! ## The meaning of the statement -/

/-- The array that is bound to a parameter. -/
def ParamListInfo.array (params : ParamListInfo V) (paramId : Int) : Option (ArrayType V) :=
  (params.fetch paramId).bind (·.value)

/-- Its elements in row-major order. -/
def ParamListInfo.elements (params : ParamListInfo V) (paramId : Int) : List (Option V) :=
  (params.array paramId).elim [] (·.elems)

/-- PostgreSQL's evaluation of set-returning expressions under bound parameters. -/
structure SetExecutor (params : ParamListInfo V) where
  evalSet : Expr → List (Option V)
  /-- `unnest` returns the elements of its array, and nothing for NULL. -/
  evalSet_unnest : ∀ funcretset funcresulttype paramid paramtype args,
    evalSet (.node (.funcExpr unnestAnyarray funcretset funcresulttype) [.node (.param .paramExtern paramid paramtype) args]) =
      params.elements paramid

/-- An `INSERT .. SELECT` as parse analysis leaves it: the columns of the select list are all assigned. -/
structure SelectQuery extends Query where
  assigned : ∀ rtindex query, toQuery.unnestSource = .ok (rtindex, query) → ∀ source ∈ query.targetList,
    ∃ tle ∈ toQuery.targets, tle.source rtindex query = some source

section Meaning

variable {params : ParamListInfo V}

/-- The number of rows of a select list: the functions run until the last of them has ended. -/
def SourceQuery.rowCount (ev : SetExecutor params) (query : SourceQuery) : Nat :=
  (query.targetList.map fun source => (ev.evalSet source.expr).length).foldl max 0

/-- The value of a live column in a row; a column without a target entry is NULL. -/
def unnestCell (ev : SetExecutor params) (rtindex : Nat) (query : SourceQuery) (row : Nat) (target : Option TargetEntry) :
    Option V :=
  ((target.bind fun tle => tle.source rtindex query).bind fun source => (ev.evalSet source.expr)[row]?).join

/-- The rows that the statement inserts, as far as the live columns of the table go. -/
def postgresUnnestRows (ev : SetExecutor params) (parse : Query) (desc : TupleDesc) : List (List (Option V)) :=
  match parse.unnestSource with
  | .ok (rtindex, query) =>
    (List.range (query.rowCount ev)).map fun row => (parse.liveTargets desc).map (unnestCell ev rtindex query row)
  | .error _ => []

end Meaning

/-! ## Cursors -/

/-- The value of a column in a row. -/
def elementAt (array : Option (ArrayType V)) (row : Nat) : Option V := (array.bind fun array => array.elems[row]?).join

/-- The cursor before a row. -/
def Cursor.at (array : Option (ArrayType V)) (row : Nat) : Cursor V :=
  ⟨array.map fun array => ⟨array.elems, min row array.elems.length⟩, arrayLength array⟩

theorem arrayLength_eq (array : Option (ArrayType V)) : arrayLength array = (array.elim [] (·.elems)).length := by
  cases array with
  | none => rfl
  | some array => exact array.nelems.symm

theorem Cursor.at_next (array : Option (ArrayType V)) (row : Nat) :
    (Cursor.at array row).next row = some (elementAt array row, Cursor.at array (row + 1)) := by
  cases array with
  | none => rfl
  | some array =>
    have hlength : (Cursor.at (some array) row).length = array.elems.length := arrayLength_eq (some array)
    by_cases hend : row ≥ array.elems.length
    · -- an array that has ended stays where it is
      have hnow : min row array.elems.length = array.elems.length := by omega
      have hthen : min (row + 1) array.elems.length = array.elems.length := by omega
      rw [Cursor.next, if_pos (hlength ▸ hend)]
      simp [elementAt, Cursor.at, hnow, hthen, List.getElem?_eq_none hend]
    · have hlt : row < array.elems.length := by omega
      have hnow : min row array.elems.length = row := by omega
      rw [Cursor.next, if_neg (hlength ▸ hend)]
      simp [elementAt, Cursor.at, ArrayIterator.iterate, hnow, hlt, Nat.succ_le_of_lt hlt]

theorem nextCells_at (arrays : List (Option (ArrayType V))) (row : Nat) :
    nextCells row (arrays.map (Cursor.at · row)) =
      some (arrays.map (elementAt · row), arrays.map (Cursor.at · (row + 1))) := by
  induction arrays with
  | nil => rfl
  | cons array arrays ih => simp [nextCells, Cursor.at_next, ih]

theorem map_start (arrays : List (Option (ArrayType V))) : arrays.map Cursor.start = arrays.map (Cursor.at · 0) := by
  refine List.map_congr_left fun array _ => ?_
  cases array <;> simp [Cursor.start, Cursor.at]

section Producer

variable (exec : Executor V) (st : UnnestScanState) (conv : List Bool) (beginSnapshot nextRowId : UInt64)
  (arrays : List (Option (ArrayType V)))

/-- The row with a number. -/
def UnnestScanState.rowAt (row : Nat) : InlinedRow V :=
  inlinedRow beginSnapshot (nextRowId + UInt64.ofNat row)
    ((arrays.map (elementAt · row)).mapIdx (storedValue exec conv st.elementTypes))

theorem UnnestScanState.row_at (row : Nat) :
    st.row exec conv beginSnapshot (nextRowId + UInt64.ofNat row, arrays.map (Cursor.at · row)) row =
      some (st.rowAt exec conv beginSnapshot nextRowId arrays row,
        nextRowId + UInt64.ofNat (row + 1), arrays.map (Cursor.at · (row + 1))) := by
  have hid : nextRowId + UInt64.ofNat row + 1 = nextRowId + UInt64.ofNat (row + 1) := by
    rw [UInt64.ofNat_add, UInt64.add_assoc]
    rfl
  simp only [UnnestScanState.row, nextCells_at, UnnestScanState.rowAt, ← hid]
  rfl

/-- **The rows of the producer**, whatever the size of its batches. -/
theorem produce_unnest (maxBuffered : Nat) (hbuffered : 0 < maxBuffered) (hrows : 0 < expectedRowCount arrays) :
    (produce (min (expectedRowCount arrays) maxBuffered) (fun nslots => nslots == min (expectedRowCount arrays) maxBuffered)
      (st.row exec conv beginSnapshot) {} (nextRowId, arrays.map Cursor.start) 0 (expectedRowCount arrays)).map
        (fun p => (p.1.finish.written, p.1.finish.rowsInserted)) =
      some ((List.range (expectedRowCount arrays)).map (st.rowAt exec conv beginSnapshot nextRowId arrays),
        expectedRowCount arrays) := by
  have hsize : 0 < min (expectedRowCount arrays) maxBuffered := by omega
  have hproduce := produce_finish (fun nslots => nslots == min (expectedRowCount arrays) maxBuffered)
    (st.row exec conv beginSnapshot) (beq_self_eq_true _) hsize (nextRowId, arrays.map Cursor.start)
    (expectedRowCount arrays)
  have hpath := collect_path (st.row_at exec conv beginSnapshot nextRowId arrays) 0 (expectedRowCount arrays)
  have hstart : (nextRowId, arrays.map Cursor.start) = (nextRowId + UInt64.ofNat 0, arrays.map (Cursor.at · 0)) := by
    rw [map_start, show UInt64.ofNat 0 = 0 from rfl, UInt64.add_zero]
  rw [hproduce, hstart, hpath]
  simp [List.range_eq_range']

end Producer

/-! ## Binding -/

/-- A parameter as the executor binds it: to a value of its declared type. -/
structure ParamInfo.Bound (pinfo : ParamInfo) (params : ParamListInfo V) : Prop where
  range : 1 ≤ pinfo.paramId ∧ pinfo.paramId ≤ params.numParams
  data : ∃ pdata, params.fetch pinfo.paramId = some pdata ∧ pdata.ptype = pinfo.paramType ∧
    oidIsValid pdata.ptype = true ∧ ∀ array, pdata.value = some array → array.elemtype = getElementType pdata.ptype

section Binding

variable {getElementType} {params : ParamListInfo V} {fromRtindex : Nat} {query : SourceQuery} {tle : TargetEntry}
  {pinfo : ParamInfo}

theorem bindUnnestParameter_eq (h : pinfo.Bound getElementType params)
    (helement : pinfo.elementType = getElementType pinfo.paramType) :
    bindUnnestParameter getElementType params pinfo.paramId pinfo.elementType = .ok (params.array pinfo.paramId) := by
  obtain ⟨hfirst, hlast⟩ := h.range
  obtain ⟨pdata, hfetch, hptype, hvalid, helemtype⟩ := h.data
  rw [bindUnnestParameter, if_neg (by omega), hfetch]
  simp only [hvalid, helement, ← hptype, ParamListInfo.array, hfetch, Option.bind_some]
  cases hvalue : pdata.value with
  | none => simp
  | some array => simp [helemtype array hvalue]

theorem isUnnestOfParam_eq {e : Expr} {paramId : Int} {paramType : Oid}
    (h : isUnnestOfParam getElementType e = some (paramId, paramType)) :
    ∃ funcretset funcresulttype args, e = .node (.funcExpr unnestAnyarray funcretset funcresulttype)
      [.node (.param .paramExtern paramId paramType) args] := by
  unfold isUnnestOfParam at h
  split at h
  · rename_i funcid funcretset funcresulttype paramkind paramid paramtype args
    split at h
    · rename_i hcond
      cases h
      simp only [isBuiltinUnnest, Bool.and_eq_true, beq_iff_eq] at hcond
      obtain ⟨⟨⟨⟨hfuncid, -⟩, -⟩, -⟩, hkind⟩ := hcond
      exact ⟨funcretset, funcresulttype, args, by rw [hfuncid, hkind]⟩
    · cases h
  · cases h

theorem TargetEntry.source_mem {source : TargetEntry} (h : tle.source fromRtindex query = some source) :
    source ∈ query.targetList := by
  unfold TargetEntry.source at h
  split at h
  · split at h
    · cases h
    · exact List.mem_of_find?_eq_some h
  · cases h

theorem TargetEntry.paramInfo_eq (params : ParamListInfo V)
    (h : tle.paramInfo getElementType fromRtindex query = some pinfo) :
    pinfo.elementType = getElementType pinfo.paramType ∧
    ∃ source ∈ query.targetList, tle.source fromRtindex query = some source ∧
      ∀ ev : SetExecutor params, ev.evalSet source.expr = params.elements pinfo.paramId := by
  obtain ⟨source, hsource, h⟩ := Option.bind_eq_some_iff.mp h
  obtain ⟨⟨paramId, paramType⟩, hparam, h⟩ := Option.bind_eq_some_iff.mp h
  simp only at h
  split at h
  · cases h
    obtain ⟨funcretset, funcresulttype, args, hexpr⟩ := isUnnestOfParam_eq hparam
    refine ⟨rfl, source, TargetEntry.source_mem hsource, hsource, fun ev => ?_⟩
    rw [hexpr, ev.evalSet_unnest]
  · cases h

end Binding

/-! ## Accepted statements -/

section Accepted

variable {getElementType} {precond : InsertPrecondition} {q : SelectQuery} {context : DirectInsertContext}
  {fromRtindex : Nat} {query : SourceQuery} {params : ParamListInfo V} {ev : SetExecutor params}

/-- The arrays of the live columns. -/
def DirectInsertContext.arrays (context : DirectInsertContext) (params : ParamListInfo V) :
    List (Option (ArrayType V)) :=
  context.paramInfos.map fun pinfo => params.array pinfo.paramId

theorem UnnestAccepted.target (h : UnnestAccepted getElementType precond q.toQuery context fromRtindex query)
    {pinfo : ParamInfo} (hpinfo : pinfo ∈ context.paramInfos) :
    ∃ tle, some tle ∈ q.liveTargets precond.targetRel.descr ∧
      tle.paramInfo getElementType fromRtindex query = some pinfo := by
  have hmem : some pinfo ∈ context.paramInfos.map some := List.mem_map_of_mem hpinfo
  rw [← h.columns, List.mem_map] at hmem
  obtain ⟨target, htarget, heq⟩ := hmem
  obtain ⟨tle, rfl, hparam⟩ := Option.bind_eq_some_iff.mp heq
  exact ⟨tle, htarget, hparam⟩

theorem UnnestAccepted.bind (h : UnnestAccepted getElementType precond q.toQuery context fromRtindex query)
    (hbound : ∀ pinfo ∈ context.paramInfos, pinfo.Bound getElementType params) :
    bindUnnestParameters getElementType context.state params = .ok (context.arrays params) := by
  have hall : ∀ pinfos : List ParamInfo, (∀ pinfo ∈ pinfos, pinfo ∈ context.paramInfos) →
      (pinfos.map fun pinfo => (pinfo.paramId, pinfo.elementType)).mapM
        (fun p => bindUnnestParameter getElementType params p.1 p.2) =
      .ok (pinfos.map fun pinfo => params.array pinfo.paramId) := by
    intro pinfos hsub
    induction pinfos with
    | nil => rfl
    | cons pinfo pinfos ih =>
      obtain ⟨hpinfo, hrest⟩ := List.forall_mem_cons.mp hsub
      obtain ⟨tle, -, hparam⟩ := h.target hpinfo
      have hone := bindUnnestParameter_eq (hbound pinfo hpinfo) (TargetEntry.paramInfo_eq params hparam).1
      simp only [List.map_cons, List.mapM_cons, hone, ih hrest]
      rfl
  rw [bindUnnestParameters, DirectInsertContext.state, List.zip_map']
  exact hall _ fun _ h => h

theorem UnnestAccepted.rowCount (h : UnnestAccepted getElementType precond q.toQuery context fromRtindex query) :
    query.rowCount ev = expectedRowCount (context.arrays params) := by
  have hlength : ∀ {tle : TargetEntry} {pinfo : ParamInfo} {source : TargetEntry},
      tle.paramInfo getElementType fromRtindex query = some pinfo → tle.source fromRtindex query = some source →
      (ev.evalSet source.expr).length = arrayLength (params.array pinfo.paramId) := by
    intro tle pinfo source hparam hsource
    obtain ⟨-, source', -, hsource', helements⟩ := TargetEntry.paramInfo_eq params hparam
    rw [hsource] at hsource'
    cases hsource'
    rw [helements ev, arrayLength_eq]
    rfl
  apply Nat.le_antisymm
  · refine foldl_max_le_iff.mpr ⟨Nat.zero_le _, ?_⟩
    rintro _ hmem
    obtain ⟨source, hsource, rfl⟩ := List.mem_map.mp hmem
    obtain ⟨tle, htle, hcopied⟩ := q.assigned fromRtindex query h.source source hsource
    obtain ⟨pinfo, hpinfo, hparam⟩ := h.targets tle htle
    rw [hlength hparam hcopied]
    rw [expectedRowCount, DirectInsertContext.arrays, List.map_map]
    apply le_foldl_max
    exact List.mem_map.mpr ⟨pinfo, hpinfo, rfl⟩
  · refine foldl_max_le_iff.mpr ⟨Nat.zero_le _, ?_⟩
    rintro _ hmem
    rw [DirectInsertContext.arrays, List.map_map] at hmem
    obtain ⟨pinfo, hpinfo, rfl⟩ := List.mem_map.mp hmem
    obtain ⟨tle, -, hparam⟩ := h.target hpinfo
    obtain ⟨-, source, hsource, hcopied, -⟩ := TargetEntry.paramInfo_eq params hparam
    rw [Function.comp_apply, ← hlength hparam hcopied, SourceQuery.rowCount]
    apply le_foldl_max
    exact List.mem_map.mpr ⟨source, hsource, rfl⟩

theorem UnnestAccepted.row (h : UnnestAccepted getElementType precond q.toQuery context fromRtindex query) (row : Nat) :
    (q.liveTargets precond.targetRel.descr).map (unnestCell ev fromRtindex query row) =
      (context.arrays params).map (elementAt · row) := by
  have hcell : ∀ target ∈ q.liveTargets precond.targetRel.descr, unnestCell ev fromRtindex query row target =
      (target.bind fun tle => tle.paramInfo getElementType fromRtindex query).elim none
        fun pinfo => elementAt (params.array pinfo.paramId) row := by
    intro target htarget
    have hmem : (target.bind fun tle => tle.paramInfo getElementType fromRtindex query) ∈ context.paramInfos.map some := by
      rw [← h.columns]
      exact List.mem_map_of_mem htarget
    obtain ⟨pinfo, -, heq⟩ := List.mem_map.mp hmem
    obtain ⟨tle, rfl, hparam⟩ := Option.bind_eq_some_iff.mp heq.symm
    obtain ⟨-, source, -, hcopied, helements⟩ := TargetEntry.paramInfo_eq params hparam
    rw [← heq, Option.elim_some, unnestCell, Option.bind_some, hcopied, Option.bind_some, helements ev,
      ParamListInfo.elements, elementAt]
    cases params.array pinfo.paramId <;> rfl
  calc (q.liveTargets precond.targetRel.descr).map (unnestCell ev fromRtindex query row)
    _ = ((q.liveTargets precond.targetRel.descr).map fun target => target.bind fun tle =>
          tle.paramInfo getElementType fromRtindex query).map fun pinfo =>
            pinfo.elim none fun pinfo => elementAt (params.array pinfo.paramId) row := by
        rw [List.map_congr_left hcell, List.map_map]
        rfl
    _ = (context.paramInfos.map some).map fun pinfo =>
          pinfo.elim none fun pinfo => elementAt (params.array pinfo.paramId) row := by rw [h.columns]
    _ = (context.arrays params).map (elementAt · row) := by
        rw [DirectInsertContext.arrays, List.map_map, List.map_map]
        rfl

end Accepted

/-! ## Storage -/

/-- The entry of a table and its schema version has a type for each column. The schema version is part of the key so that
no entry outlives a change of the columns. -/
def Caches.Current (caches : Caches) (tableId schemaVersion : UInt64) (columns : Nat) : Prop :=
  ∀ colTypes, caches.inlinedColTypes tableId schemaVersion = some colTypes → colTypes.length = columns

theorem length_inlinedOids {rows : List ColumnRow} {elementTypes oids : List Oid}
    (hlength : rows.length = elementTypes.length) (h : inlinedOids rows elementTypes = some oids) :
    oids.length = elementTypes.length := by
  induction rows generalizing elementTypes oids with
  | nil =>
    cases h
    exact hlength
  | cons row rows ih =>
    cases elementTypes with
    | nil => cases hlength
    | cons elementType elementTypes =>
      rw [inlinedOids] at h
      split at h
      · cases h
      simp only at h
      split at h
      · cases h
      obtain ⟨oids', hoids', rfl⟩ := Option.map_eq_some_iff.mp h
      rw [List.length_cons, List.length_cons, ih (Nat.succ.inj hlength) hoids']

theorem length_getCachedInlinedColumnTypes {c : Catalog} {caches : Caches} {tableId schemaVersion : UInt64}
    {elementTypes colTypes : List Oid} (hcaches : caches.Current tableId schemaVersion elementTypes.length)
    (h : getCachedInlinedColumnTypes c caches tableId schemaVersion elementTypes = some colTypes) :
    colTypes.length = elementTypes.length := by
  unfold getCachedInlinedColumnTypes at h
  cases hentry : caches.inlinedColTypes tableId schemaVersion with
  | some entry =>
    rw [hentry] at h
    cases h
    exact hcaches colTypes hentry
  | none =>
    simp only [hentry, getInlinedColumnTypes] at h
    split at h
    · cases h
    · rename_i hlength
      exact length_inlinedOids (not_not.mp hlength) h

theorem needsTextConv_eq (elementType inlinedType : Oid) :
    ((inlinedType == textOid || inlinedType == varcharOid) && inlinedType != elementType) =
      needsTextConv elementType inlinedType := by
  rw [needsTextConv, Bool.or_comm]
  by_cases hsame : elementType = inlinedType
  · simp [hsame]
  · have hne : inlinedType ≠ elementType := fun h => hsame h.symm
    simp [hsame, hne]

/-- With a type for each parameter, all places of `inlined_types` are filled. -/
theorem UnnestScanState.conversions_eq {st : UnnestScanState} (helements : st.elementTypes.length = st.paramIds.length)
    (hcolumns : st.columnTypes.length = st.paramIds.length) :
    st.conversions = some (List.zipWith needsTextConv st.elementTypes st.columnTypes) := by
  have htypes : st.inlinedTypes = some (st.columnTypes.map some) := by
    rw [inlinedTypes, if_pos (Nat.le_of_eq hcolumns), hcolumns, Nat.sub_self, List.replicate_zero, List.append_nil]
  have hlength : (List.zipWith needsTextConv st.elementTypes st.columnTypes).length = st.paramIds.length := by
    rw [List.length_zipWith]
    omega
  rw [← mapM_getElem? (List.zipWith needsTextConv st.elementTypes st.columnTypes), hlength, conversions, htypes]
  refine mapM_congr fun i _ => ?_
  rw [List.getElem?_zipWith, List.getElem?_map]
  cases st.elementTypes[i]? with
  | none => rfl
  | some elementType =>
    cases st.columnTypes[i]? with
    | none => rfl
    | some inlinedType => exact congrArg some (needsTextConv_eq elementType inlinedType)

/-- A row as it is put into a slot. -/
def storedUnnestRow (exec : Executor V) (context : DirectInsertContext) (row : List (Option V)) : List (Option V) :=
  let elementTypes := context.paramInfos.map (·.elementType)
  row.mapIdx (storedValue exec (List.zipWith needsTextConv elementTypes context.targetColTypes) elementTypes)

/-- Stored rows, numbered from a row id on, with their count. -/
def storedUnnestRows (exec : Executor V) (context : DirectInsertContext) (beginSnapshot nextRowId : UInt64)
    (rows : List (List (Option V))) : List (InlinedRow V) × Nat :=
  (numberedRows beginSnapshot nextRowId (rows.map (storedUnnestRow exec context)), rows.length)

/-- The types of the Datums of a row. -/
def DirectInsertContext.datumTypes (context : DirectInsertContext) : List Oid :=
  List.zipWith unnestStoredType (context.paramInfos.map (·.elementType)) context.targetColTypes

/-! ## The rows of an UNNEST insert -/

section Execution

variable {getElementType} {c : Catalog} {caches : Caches} {precond : InsertPrecondition} {q : SelectQuery}
  {context : DirectInsertContext} {fromRtindex : Nat} {query : SourceQuery} {params : ParamListInfo V}
  {ev : SetExecutor params}

theorem tryMatchUnnest_types {parse : Query} (h : tryMatchUnnest getElementType c caches precond parse = .ok context) :
    getCachedInlinedColumnTypes c caches precond.tableId precond.schemaVersion
      (context.paramInfos.map (·.elementType)) = some context.targetColTypes := by
  rw [tryMatchUnnest] at h
  cases hsource : parse.unnestSource with
  | error reason => simp [hsource, bind, Except.bind] at h
  | ok source =>
    simp only [hsource, bind, Except.bind] at h
    split at h
    · cases h
    split at h
    · cases h
    split at h
    · cases h
    · rename_i hcached
      cases h
      exact hcached

variable (h : UnnestAccepted getElementType precond q.toQuery context fromRtindex query)

include h in
theorem UnnestAccepted.length :
    context.paramInfos.length = precond.targetRel.descr.live.length := by
  have hlength := congrArg List.length h.columns
  rw [List.length_map, List.length_map, Query.liveTargets, List.length_map, length_keptFrom] at hlength
  exact hlength.symm

include h in
theorem UnnestAccepted.postgresRows :
    postgresUnnestRows ev q.toQuery precond.targetRel.descr =
      (List.range (expectedRowCount (context.arrays params))).map fun row =>
        (context.arrays params).map (elementAt · row) := by
  simp only [postgresUnnestRows, h.source, h.rowCount]
  exact List.map_congr_left fun row _ => h.row row

include h in
theorem UnnestAccepted.produced (exec : Executor V) (beginSnapshot nextRowId : UInt64) :
    ((List.range (expectedRowCount (context.arrays params))).map (context.state.rowAt exec
      (List.zipWith needsTextConv context.state.elementTypes context.state.columnTypes) beginSnapshot nextRowId
      (context.arrays params)), expectedRowCount (context.arrays params)) =
      storedUnnestRows exec context beginSnapshot nextRowId
        (postgresUnnestRows ev q.toQuery precond.targetRel.descr) := by
  rw [h.postgresRows, storedUnnestRows, List.length_map, List.length_range]
  refine Prod.ext (List.ext_getElem? fun i => ?_) rfl
  rw [numberedRows, List.getElem?_map, List.getElem?_mapIdx, List.getElem?_map, List.getElem?_map]
  cases hrow : (List.range (expectedRowCount (context.arrays params)))[i]? with
  | none => rfl
  | some row =>
    obtain ⟨hlt, rfl⟩ := List.getElem?_eq_some_iff.mp hrow
    simp [UnnestScanState.rowAt, DirectInsertContext.state, storedUnnestRow]

theorem executeUnnest_eq (h : tryMatchUnnest getElementType c caches precond q.toQuery = .ok context)
    (hcaches : caches.Current precond.tableId precond.schemaVersion precond.targetRel.descr.live.length)
    (hbound : ∀ pinfo ∈ context.paramInfos, pinfo.Bound getElementType params) (ev : SetExecutor params)
    (exec : Executor V) {maxBuffered : Nat} (hbuffered : 0 < maxBuffered) (c' : Catalog)
    (beginSnapshot nextRowId : UInt64) :
    executeUnnest getElementType exec maxBuffered c' (some params) (createDirectInsertPlan q.toQuery context)
        beginSnapshot nextRowId =
      let rows := postgresUnnestRows ev q.toQuery precond.targetRel.descr
      if rows.length = 0 then .ok ([], 0)
      else
        match c'.inlinedRelation context.tableId context.schemaVersion with
        | none => .error (.undefinedTable context.tableId context.schemaVersion)
        | some desc =>
          if desc.length ≠ precond.targetRel.descr.live.length + 3 then
            .error (.columnCountMismatch (precond.targetRel.descr.live.length + 3) desc.length)
          else .ok (tableMultiInsert exec context.datumTypes desc.columnTypes
            (storedUnnestRows exec context beginSnapshot nextRowId rows).1, rows.length) := by
  obtain ⟨fromRtindex, query, haccepted⟩ := tryMatchUnnest_spec getElementType h
  have hparamIds : context.state.paramIds.length = precond.targetRel.descr.live.length := by
    rw [← haccepted.length]
    exact List.length_map _
  have hconv : context.state.conversions =
      some (List.zipWith needsTextConv context.state.elementTypes context.state.columnTypes) := by
    apply UnnestScanState.conversions_eq
    · simp [DirectInsertContext.state]
    · rw [hparamIds]
      have hcurrent : caches.Current precond.tableId precond.schemaVersion
          (context.paramInfos.map (·.elementType)).length := by rwa [List.length_map, haccepted.length]
      have hlength := length_getCachedInlinedColumnTypes hcurrent (tryMatchUnnest_types h)
      rw [List.length_map, haccepted.length] at hlength
      exact hlength
  have hcount : (postgresUnnestRows ev q.toQuery precond.targetRel.descr).length =
      expectedRowCount (context.arrays params) := by simp [haccepted.postgresRows]
  simp only [executeUnnest, createCustomScanState_unnest, haccepted.bind hbound, hcount]
  by_cases hnone : expectedRowCount (context.arrays params) = 0
  · rw [if_pos hnone]
    exact if_pos hnone
  rw [if_neg hnone]
  refine (if_neg hnone).trans ?_
  rw [directInsertIntoInlinedTable, hconv]
  show (match c'.inlinedRelation context.tableId context.schemaVersion with
    | none => _
    | some desc => _) = _
  cases c'.inlinedRelation context.tableId context.schemaVersion with
  | none => rfl
  | some desc =>
    simp only [hparamIds]
    by_cases hnatts : desc.length ≠ precond.targetRel.descr.live.length + 3
    · rw [if_pos hnatts, if_pos hnatts]
    · have hproduce := produce_unnest exec context.state
        (List.zipWith needsTextConv context.state.elementTypes context.state.columnTypes) beginSnapshot nextRowId
        (context.arrays params) maxBuffered hbuffered (Nat.pos_of_ne_zero hnone)
      obtain ⟨⟨buffer, s⟩, hrun, hrows⟩ := Option.map_eq_some_iff.mp hproduce
      have hstored : (buffer.finish.written, buffer.finish.rowsInserted) = storedUnnestRows exec context beginSnapshot
          nextRowId (postgresUnnestRows ev q.toQuery precond.targetRel.descr) :=
        hrows.trans (haccepted.produced exec beginSnapshot nextRowId)
      obtain ⟨hwritten, hinserted⟩ := Prod.ext_iff.mp hstored
      rw [if_neg hnatts, if_neg hnatts, hrun]
      exact congrArg Except.ok (Prod.ext (congrArg (tableMultiInsert exec context.datumTypes desc.columnTypes) hwritten)
        (hinserted.trans hcount))

include h in
theorem length_postgresUnnestRows :
    ∀ row ∈ postgresUnnestRows ev q.toQuery precond.targetRel.descr, row.length = context.paramInfos.length := by
  intro row hrow
  rw [h.postgresRows] at hrow
  obtain ⟨i, -, rfl⟩ := List.mem_map.mp hrow
  rw [List.length_map, DirectInsertContext.arrays, List.length_map]

end Execution

/-- The element type of the one array type there is. -/
def elementTypeOf (arrayType elementType oid : Oid) : Oid := if oid = arrayType then elementType else invalidOid

/-- `SELECT unnest($1)`. -/
def selectUnnest (arrayType elementType : Oid) : SourceQuery where
  isSelect := true
  hasTargetSRFs := true
  clauses := []
  targetList :=
    [⟨.node (.funcExpr unnestAnyarray true elementType) [.node (.param .paramExtern 1 arrayType) []], 1, false⟩]

/-- `INSERT INTO numbers SELECT unnest($1)`. -/
def insertUnnest (arrayType elementType : Oid) : SelectQuery where
  isInsert := true
  resultRelation := 1
  rtable := [.relation 16384 false, .subquery (selectUnnest arrayType elementType)]
  jointree := some ⟨[.rangeTblRef 2], none⟩
  targetList := [⟨.node (.var 2 1) [], 1, false⟩]
  clauses := []
  assigned := by
    rintro _ _ h source hsource
    cases h
    rw [List.mem_singleton.mp hsource]
    exact ⟨_, List.mem_singleton.mpr rfl, rfl⟩

/-- `$1` bound to an array. -/
def bindArray (arrayType : Oid) (array : ArrayType Nat) : ParamListInfo Nat := ⟨1, fun _ => some ⟨arrayType, some array⟩⟩

/-- Every set-returning expression is the `unnest` of its parameter. -/
def unnestExecutor (arrayType : Oid) (array : ArrayType Nat) : SetExecutor (bindArray arrayType array) :=
  ⟨fun _ => (bindArray arrayType array).elements 1, fun _ _ _ _ _ => rfl⟩

/-- `ARRAY[[1, NULL], [3, 4]]`. -/
def squareArray : ArrayType Nat where
  dims := [2, 2]
  elems := [some 1, none, some 3, some 4]
  positive := Types.pairs.positive
  nelems := rfl
  elemtype := 23

def bigintRelation : Relation := ⟨"numbers", "public", true, true, false, [{ attname := "a", atttypid := 20 }]⟩

/-- The catalog after `ALTER TABLE numbers ALTER COLUMN a TYPE bigint`, with the inlined data table of before. -/
def bigintCatalog : Catalog where
  relation oid := if oid = 16384 then some bigintRelation else none
  schemas := numbersCatalog.schemas
  tables := numbersCatalog.tables
  columns := [⟨5, 1, some "int64", none, none⟩]
  inlinedDataTables := numbersCatalog.inlinedDataTables
  dataInliningRowLimit := numbersCatalog.dataInliningRowLimit
  inlinedRelation := numbersCatalog.inlinedRelation

/-- `ARRAY[4294967303]`. -/
def bigintArray : ArrayType Nat where
  dims := [1]
  elems := [some 4294967303]
  positive := by decide
  nelems := rfl
  elemtype := 20

def bigintContext : DirectInsertContext := ⟨16384, 5, 2, [⟨1, 1016, 20⟩], ["a"], [20]⟩

end PgDucklake.Insert
