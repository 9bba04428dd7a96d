import PgDucklake.Insert.Lockstep

/-!
# The shape of the rows of a VALUES insert

The node prepares the candidates and validates the binding before it inserts. The relation of an accepted plan may have
changed since: `values_fit_iff` says for which catalogs the plan is safe, whatever its cells evaluate to.
-/

namespace PgDucklake.Insert

open Lib

variable {V : Type}

/-! ## Execution -/

/-- What an execution meets: the candidates, if the transaction could be prepared, and the values of the cells. -/
structure ValuesEnv (V : Type) where
  candidates : Option (UInt64 × UInt64)
  value : Nat → Nat → Option (Option V)

/-- `ExecDuckLakeValuesInsert` up to the publication: the slots that are written, and how it ends. -/
def writeValues (c : Catalog) (st : ValuesScanState) (env : ValuesEnv V) : List (Slot V) × Option ValuesStop :=
  if !c.isBound st.tableId st.schemaVersion then ([], some .targetTableChanged)
  else
    match env.candidates with
    | none => ([], some .notPrepared)
    | some (beginSnapshot, nextRowId) => directInsertValues c st beginSnapshot nextRowId env.value

def writeValuesPlan (c : Catalog) (customPrivate : List PrivateItem) (env : ValuesEnv V) :
    List (Slot V) × Option ValuesStop :=
  match createCustomScanState customPrivate with
  | some (.values st, _) => writeValues c st env
  | _ => ([], some .fault)

/-! ## Safety -/

/-- A slot that may be written: one of a relation with the right columns, with all its places stored to. -/
structure Writable (c : Catalog) (context : ValuesInsertContext) (slot : Slot V) : Prop where
  columns : ∃ desc, c.inlinedRelation context.tableId context.schemaVersion = some desc ∧
    slot.cap = desc.length ∧ HasColumns c context desc
  stored : ∀ k < slot.cap, slot.cell k ≠ none

/-- No access outside an array, and nothing but writable slots is written. -/
structure Safe (c : Catalog) (context : ValuesInsertContext) (result : List (Slot V) × Option ValuesStop) : Prop where
  noFault : result.2 ≠ some .fault
  written : ∀ slot ∈ result.1, Writable c context slot

section Plan

variable {exec : Executor V} {cat : Functions} {c₁ c : Catalog} {caches : Caches} {precond : InsertPrecondition}
  {q : ValuesQuery} {context : ValuesInsertContext} {m : ColumnMap} {cells : List (List Expr)}

theorem rowSlot_stored {natts : Nat} {beginSnapshot rowId : UInt64} {cells : List (Option V)}
    (h : natts = cells.length + 3) : ∀ k < natts, (rowSlot natts beginSnapshot rowId cells).cell k ≠ none := by
  intro k hk
  match k with
  | 0 | 1 | 2 => simp [rowSlot]
  | k + 3 =>
    have hk' : k < cells.length := by omega
    simp [rowSlot, List.getElem?_eq_getElem hk']

theorem Accepted.safe (h : Accepted cat exec.evalConstExpressions c₁ caches precond q.toQuery context m cells)
    (hagree : ColumnsAgree c context) (env : ValuesEnv V) : Safe c context (writeValues c context.state env) := by
  rw [writeValues]
  split
  · exact ⟨by simp, by simp⟩
  rename_i hbound
  rw [Bool.not_eq_true, Bool.not_eq_false'] at hbound
  split
  · exact ⟨by simp, by simp⟩
  rename_i beginSnapshot nextRowId _
  rw [directInsertValues]
  split
  · exact ⟨by simp, by simp⟩
  rename_i desc hdesc
  obtain ⟨hcolumns, htypes⟩ := hagree hbound desc hdesc
  rw [h.conversions, if_pos htypes]
  have hrow : ∀ row, storeRow desc.length context.numCols beginSnapshot (nextRowId + UInt64.ofNat row) (env.value row) ≠
      .error .fault ∧ ∀ slot, storeRow desc.length context.numCols beginSnapshot (nextRowId + UInt64.ofNat row)
        (env.value row) = .ok slot → Writable c context slot := by
    intro row
    rw [storeRow_eq _ _ _ (Nat.le_of_eq hcolumns.1.symm)]
    cases hcells : (List.range context.numCols).mapM (env.value row) with
    | none => exact ⟨by simp, by simp⟩
    | some cells =>
      have hlen : cells.length = context.numCols := by rw [length_of_mapM hcells, List.length_range]
      refine ⟨by simp, fun slot hslot => ?_⟩
      cases hslot
      have hnatts : desc.length = cells.length + 3 := hcolumns.1.trans (by rw [hlen])
      exact ⟨⟨desc, hdesc, rfl, hcolumns⟩, rowSlot_stored hnatts⟩
  obtain ⟨hfault, hwritten⟩ := storeRows_invariant (i := 0) (n := context.state.numRows) hrow
    (Buffer.holds_empty (context.state.batchSize_pos h.rows_pos)) (by simp)
  exact ⟨hfault, hwritten⟩

theorem Accepted.agree (h : Accepted cat exec.evalConstExpressions c₁ caches precond q.toQuery context m cells)
    (hsafe : Safe c context (writeValues c context.state (⟨some (0, 0), fun _ _ => some none⟩ : ValuesEnv V))) :
    ColumnsAgree c context := by
  intro hbound desc hdesc
  have hwrite : writeValues c context.state (⟨some (0, 0), fun _ _ => some none⟩ : ValuesEnv V) =
      if context.numCols ≤ context.inlinedColTypes.length then
        storeRows context.state.batchSize
          (fun row => storeRow desc.length context.numCols 0 (0 + UInt64.ofNat row) fun _ => some none) {} 0 context.numRows
      else ([], some .fault) := by
    have hbound' : c.isBound context.state.tableId context.state.schemaVersion = true := hbound
    have hdesc' : c.inlinedRelation context.state.tableId context.state.schemaVersion = some desc := hdesc
    simp only [writeValues, directInsertValues, hbound', hdesc', h.conversions, Bool.not_true, Bool.false_eq_true, if_false]
    by_cases htypes : context.numCols ≤ context.inlinedColTypes.length
    · rw [if_pos htypes, if_pos htypes]
      rfl
    · rw [if_neg htypes, if_neg htypes]
  rw [hwrite] at hsafe
  by_cases htypes : context.numCols ≤ context.inlinedColTypes.length
  · rw [if_pos htypes] at hsafe
    refine ⟨?_, htypes⟩
    obtain ⟨n, hn⟩ := Nat.exists_eq_succ_of_ne_zero (Nat.ne_of_gt h.rows_pos)
    rw [hn] at hsafe
    by_cases hfits : context.numCols + 3 ≤ desc.length
    · -- the first row is written, so that its slot is a writable one
      let slotAt (row : Nat) : Slot V :=
        rowSlot desc.length 0 (0 + UInt64.ofNat row) ((List.range context.numCols).map fun _ => none)
      have hcells : (List.range context.numCols).mapM (fun _ => some (none : Option V)) =
          some ((List.range context.numCols).map fun _ => none) := List.mapM_pure
      have hrow : ∀ row, storeRow desc.length context.numCols 0 (0 + UInt64.ofNat row)
          (fun _ => some (none : Option V)) = .ok (slotAt row) := by
        intro row
        rw [storeRow_eq _ _ _ hfits, hcells]
        rfl
      have hslots : (List.range' 0 (n + 1)).mapM (fun row => some (slotAt row)) =
          some ((List.range' 0 (n + 1)).map slotAt) := List.mapM_pure
      have hall := @storeRows_eq V context.state.batchSize 0 (n + 1) _ {} [] (fun row => some (slotAt row)) hrow
        (Buffer.holds_empty (context.state.batchSize_pos h.rows_pos))
      rw [hslots] at hall
      simp only at hall
      rw [hall] at hsafe
      obtain ⟨desc', hdesc', -, hcolumns⟩ := (hsafe.written (slotAt 0) (by simp [List.range'_succ])).columns
      rw [hdesc] at hdesc'
      cases hdesc'
      exact hcolumns
    · refine absurd ?_ hsafe.noFault
      rw [Nat.succ_eq_add_one, storeRows, storeRow_exceeds (Nat.lt_of_not_le hfits)]
  · rw [if_neg htypes] at hsafe
    exact absurd rfl hsafe.noFault

end Plan

/-- **The row shape of a VALUES insert.** For every accepted statement and every catalog in which its plan is executed, no
access leaves an array and all written rows fill the columns of the table, whatever the cells are, exactly if the plan is
no longer bound to the table's inlined data table, or that relation is gone, or it has the columns of the table and the
plan's number of them and the plan has a type for each. -/
theorem values_fit_iff (exec : Executor V) (cat : Functions) (c₁ : Catalog) (caches : Caches)
    (precond : InsertPrecondition) (q : ValuesQuery) (context : ValuesInsertContext)
    (h : tryMatchValues cat exec.evalConstExpressions c₁ caches precond q.toQuery = .ok context) (c : Catalog) :
    (∀ env : ValuesEnv V, Safe c context (writeValuesPlan c (createValuesInsertPlan q.toQuery context) env)) ↔
      ColumnsAgree c context := by
  obtain ⟨m, cells, haccepted⟩ := tryMatchValues_spec h
  have hplan : ∀ env : ValuesEnv V, writeValuesPlan c (createValuesInsertPlan q.toQuery context) env =
      writeValues c context.state env := by
    intro env
    rw [writeValuesPlan, createCustomScanState_values _ haccepted.exprs_length]
  simp only [hplan]
  exact ⟨fun hsafe => haccepted.agree (hsafe _), haccepted.safe⟩

theorem values_fit_iff_seven :
    Safe numbersCatalog (numbersContext seven) (writeValuesPlan numbersCatalog
      (createValuesInsertPlan (insertOne seven).toQuery (numbersContext seven)) ⟨some (4, 100), fun _ _ => some (some 7)⟩) := by
  refine (values_fit_iff countingExecutor oneVolatile numbersCatalog Caches.empty numbersPrecondition (insertOne seven)
    (numbersContext seven) rfl numbersCatalog).mpr ?_ _
  rintro - desc hdesc
  cases hdesc
  exact ⟨⟨rfl, rfl⟩, by decide⟩

/-! ## A column added -/

/-- The table of the numbers with a second column. -/
def pairsRelation : Relation :=
  ⟨"numbers", "public", true, true, false, [{ attname := "a", atttypid := 23 }, { attname := "b", atttypid := 23 }]⟩

/-- The catalog after `ALTER TABLE numbers ADD COLUMN b int`, with the inlined data table of before. -/
def widenedCatalog : Catalog where
  relation oid := if oid = 16384 then some pairsRelation else none
  schemas := numbersCatalog.schemas
  tables := numbersCatalog.tables
  columns := [⟨5, 1, some "int32", none, none⟩, ⟨5, 2, some "int32", none, none⟩]
  inlinedDataTables := numbersCatalog.inlinedDataTables
  dataInliningRowLimit := numbersCatalog.dataInliningRowLimit
  inlinedRelation := numbersCatalog.inlinedRelation

/-- `INSERT INTO numbers VALUES (7, 7)`. -/
def insertPair : ValuesQuery where
  isInsert := true
  resultRelation := 1
  rtable := [.relation 16384 false]
  jointree := some ⟨[], none⟩
  targetList := [⟨seven, 1, false⟩, ⟨seven, 2, false⟩]
  clauses := []
  distinct := by simp [Query.targets]
  numbered := nofun
  noSets := nofun

def pairsContext : ValuesInsertContext := ⟨16384, 5, 2, 1, 2, ["a", "b"], [23, 23], [23, 23], [seven, seven]⟩

/-- The second column of the row is stored behind the slot. The UNNEST producer refuses the same relation. -/
theorem added_column_overruns :
    checkInsertPreconditions widenedCatalog Caches.empty false insertPair.toQuery = .ok ⟨16384, 5, 2, 10, pairsRelation⟩ ∧
    tryMatchValues oneVolatile countingExecutor.evalConstExpressions widenedCatalog Caches.empty
      ⟨16384, 5, 2, 10, pairsRelation⟩ insertPair.toQuery = .ok pairsContext ∧
    (writeValuesPlan widenedCatalog (createValuesInsertPlan insertPair.toQuery pairsContext)
      (⟨some (4, 100), fun _ _ => some (some 7)⟩ : ValuesEnv Nat)).2 = some .fault ∧
    directInsertIntoInlinedTable countingExecutor maxBufferedTuples widenedCatalog
      ⟨16384, 5, 2, [1, 1], [23, 23], ["a", "b"], [23, 23]⟩ [some squareArray, some squareArray] 4 100 =
        .error (.columnCountMismatch 5 4) :=
  ⟨rfl, rfl, rfl, rfl⟩

end PgDucklake.Insert
