import PgDucklake.Insert.Private
import PgDucklake.Lib.Batches
import PgDucklake.Lib.Options
import PgDucklake.Lib.Regions
import Mathlib.Data.UInt

/-!
# The slots of a VALUES insert

`DirectInsertValuesIntoInlinedTable` down to its slots. A slot has as many places as the relation that is opened at
execution has attributes, while the number of columns comes with the plan. Each row stores its system columns at the
places 0, 1 and 2 and column `col` at `3 + col`; a store past the last place is a fault.

`storeRow_eq` says what a row leaves in a slot with enough places, `storeRow_exceeds` that a row faults in one with fewer.
-/

namespace PgDucklake.Insert

open Lib

variable {V : Type}

/-! ## Representations -/

def jsonOid : Oid := 114
def xmlOid : Oid := 142
def bpcharOid : Oid := 1042

/-- The types whose values are a length and bytes. -/
def isByteString (oid : Oid) : Bool := [byteaOid, textOid, jsonOid, xmlOid, bpcharOid, varcharOid].contains oid

/-- A Datum of one type is a Datum of the other. -/
def SameRepresentation (datumType columnType : Oid) : Prop :=
  datumType = columnType ∨ (isByteString datumType = true ∧ isByteString columnType = true)

instance (datumType columnType : Oid) : Decidable (SameRepresentation datumType columnType) :=
  inferInstanceAs (Decidable (_ ∨ _))

/-- The type of the Datum that is stored for a value. -/
def storedType (textConv : Bool) (userType : Oid) : Oid := if textConv then textOid else userType

/-- `needs_text_conv` of a column. -/
def needsTextConv (srcType inlType : Oid) : Bool :=
  if srcType = inlType then false else inlType == varcharOid || inlType == textOid

/-- The type of the Datum that VALUES stores in a column with the given inlined type. -/
def valuesStoredType (userType inlinedType : Oid) : Oid := storedType (needsTextConv userType inlinedType) userType

/-! ## Execution -/

/-- `MAX_BUFFERED_TUPLES`. -/
def maxBufferedTuples : Nat := 1000

/-- The conversions of the columns; the lists of types are read up to the number of columns. -/
def ValuesScanState.conversions (st : ValuesScanState) : Option (List Bool) :=
  (List.range st.numCols).mapM fun col => do
    let srcType ← st.srcTypes[col]?
    let inlType ← st.columnTypes[col]?
    some (needsTextConv srcType inlType)

/-- `batch_size`. -/
def ValuesScanState.batchSize (st : ValuesScanState) : Nat :=
  if st.numRows < maxBufferedTuples then st.numRows else maxBufferedTuples

/-- How an execution ends early. All but a fault are errors of the statement. -/
inductive ValuesStop
  | targetTableChanged
  | notPrepared
  | undefinedTable
  | evaluation
  | fault
  deriving DecidableEq, Repr

/-- `ValidateBinding` on what `ReadPublicationState` finds. -/
def Catalog.isBound (c : Catalog) (tableId schemaVersion : UInt64) : Bool :=
  (c.tables.any fun dt => dt.tableId == tableId && dt.endSnapshot.isNone) &&
    (c.maxSchemaVersion tableId).getD (2 ^ 64 - 1) == schemaVersion

inductive SlotValue (V : Type)
  | int64 (n : Int64)
  | datum (d : Option V)

/-- `tts_values` and `tts_isnull`; a place that was not stored to holds nothing. -/
abbrev Slot (V : Type) := Region (Option (SlotValue V))

/-- A slot after `ExecClearTuple`. -/
def clearedSlot (natts : Nat) : Slot V := ⟨natts, fun _ => none⟩

def Slot.store (slot : Slot V) (i : Nat) (v : SlotValue V) : Except ValuesStop (Slot V) :=
  match slot.put slot.cap i fun _ => some v with
  | some slot => .ok slot
  | none => .error .fault

/-- The user columns of a row, from `col` on. A cell is evaluated and converted before it is stored. -/
def storeColumns (value : Nat → Option (Option V)) : Slot V → Nat → Nat → Except ValuesStop (Slot V)
  | slot, _, 0 => .ok slot
  | slot, col, n + 1 =>
    match value col with
    | none => .error .evaluation
    | some d => do
      let slot ← slot.store (3 + col) (.datum d)
      storeColumns value slot (col + 1) n

def storeRow (natts numCols : Nat) (beginSnapshot rowId : UInt64) (value : Nat → Option (Option V)) :
    Except ValuesStop (Slot V) := do
  let slot ← (clearedSlot natts).store 0 (.int64 rowId.toInt64)
  let slot ← slot.store 1 (.int64 beginSnapshot.toInt64)
  let slot ← slot.store 2 (.datum none)
  storeColumns value slot 0 numCols

/-- The loop over the rows `i`, `i + 1`, … of which there are `n`. What is in the buffer when it stops is lost. -/
def storeRows (batchSize : Nat) (row : Nat → Except ValuesStop (Slot V)) :
    Buffer (Slot V) → Nat → Nat → List (Slot V) × Option ValuesStop
  | b, _, 0 => (b.finish.written, none)
  | b, i, n + 1 =>
    match row i with
    | .error stop => (b.written, some stop)
    | .ok slot =>
      match b.add batchSize (fun nslots => decide (nslots ≥ batchSize)) slot with
      | none => (b.written, some .fault)
      | some b => storeRows batchSize row b (i + 1) n

/-- `DirectInsertValuesIntoInlinedTable`: the slots that are written to the inlined data table, and how it ends. `value`
are the cells, evaluated and converted. -/
def directInsertValues (c : Catalog) (st : ValuesScanState) (beginSnapshot nextRowId : UInt64)
    (value : Nat → Nat → Option (Option V)) : List (Slot V) × Option ValuesStop :=
  match c.inlinedRelation st.tableId st.schemaVersion with
  | none => ([], some .undefinedTable)
  | some desc =>
    match st.conversions with
    | none => ([], some .fault)
    | some _ => storeRows st.batchSize
        (fun row => storeRow desc.length st.numCols beginSnapshot (nextRowId + UInt64.ofNat row) (value row))
        {} 0 st.numRows

/-- The inlined data table has the columns of the table behind its system columns. -/
def HasColumns (c : Catalog) (context : ValuesInsertContext) (desc : TupleDesc) : Prop :=
  desc.length = context.numCols + 3 ∧
    (c.relation context.targetTableOid).map (fun rel => rel.descr.live.map (·.attname)) =
      some ((desc.drop 3).map (·.attname))

/-- The relation of a plan that is still bound to it has the columns, and the plan has a type for each of them. -/
def ColumnsAgree (c : Catalog) (context : ValuesInsertContext) : Prop :=
  c.isBound context.tableId context.schemaVersion = true → ∀ desc,
    c.inlinedRelation context.tableId context.schemaVersion = some desc →
      HasColumns c context desc ∧ context.numCols ≤ context.inlinedColTypes.length

/-! ## Slots -/

section Slots

variable {slot : Slot V} {i col n natts numCols : Nat} {v : SlotValue V} {value : Nat → Option (Option V)}
  {beginSnapshot rowId : UInt64}

/-- The slot after a store. -/
def Slot.with (slot : Slot V) (i : Nat) (v : SlotValue V) : Slot V :=
  { slot with cell := Function.update slot.cell i (some v) }

theorem Slot.store_inside (h : i < slot.cap) : slot.store i v = .ok (slot.with i v) := by
  rw [Slot.store, Region.put, if_pos ⟨h, h⟩]
  rfl

theorem Slot.store_outside (h : slot.cap ≤ i) : slot.store i v = .error .fault := by
  rw [Slot.store, Region.put, if_neg (by omega)]

/-- A slot with its system columns and the given user columns. -/
def rowSlot (natts : Nat) (beginSnapshot rowId : UInt64) (cells : List (Option V)) : Slot V where
  cap := natts
  cell
    | 0 => some (.int64 rowId.toInt64)
    | 1 => some (.int64 beginSnapshot.toInt64)
    | 2 => some (.datum none)
    | k + 3 => (cells[k]?).map .datum

theorem rowSlot_with (cells : List (Option V)) (d : Option V) :
    (rowSlot natts beginSnapshot rowId cells).with (3 + cells.length) (.datum d) =
      rowSlot natts beginSnapshot rowId (cells ++ [d]) := by
  rw [Slot.with, rowSlot]
  congr 1
  funext k
  by_cases hk : k = 3 + cells.length
  · subst hk
    rw [Function.update_self, Nat.add_comm]
    simp
  · rw [Function.update_of_ne hk]
    match k with
    | 0 | 1 | 2 => rfl
    | k + 3 =>
      have hne : k ≠ cells.length := by omega
      simp only [List.getElem?_append]
      split
      · rfl
      · rw [List.getElem?_eq_none (by omega), List.getElem?_eq_none (by simp; omega)]

/-- The columns from the end of `cells` on, one after the other. -/
theorem storeColumns_eq (cells : List (Option V)) (hcap : 3 + cells.length + n ≤ natts) :
    storeColumns value (rowSlot natts beginSnapshot rowId cells) cells.length n =
      match (List.range' cells.length n).mapM value with
      | none => .error .evaluation
      | some more => .ok (rowSlot natts beginSnapshot rowId (cells ++ more)) := by
  induction n generalizing cells with
  | zero => simp [storeColumns]
  | succ n ih =>
    rw [storeColumns, List.range'_succ, List.mapM_cons]
    cases value cells.length with
    | none => rfl
    | some d =>
      have hrest := ih (cells ++ [d]) (by simp; omega)
      rw [List.length_append, List.length_singleton] at hrest
      have hstore : (rowSlot natts beginSnapshot rowId cells).store (3 + cells.length) (.datum d) =
          .ok (rowSlot natts beginSnapshot rowId (cells ++ [d])) := by
        rw [Slot.store_inside (by simp only [rowSlot]; omega), rowSlot_with]
      simp only [hstore]
      show storeColumns value (rowSlot natts beginSnapshot rowId (cells ++ [d])) (cells.length + 1) n = _
      rw [hrest]
      cases (List.range' (cells.length + 1) n).mapM value with
      | none => rfl
      | some more => simp

theorem storeColumns_exceeds (hcol : 3 + col ≤ slot.cap) (hcap : slot.cap < 3 + col + n) :
    storeColumns (fun _ => some none) slot col n = .error .fault := by
  induction n generalizing slot col with
  | zero => omega
  | succ n ih =>
    simp only [storeColumns]
    by_cases hlast : slot.cap = 3 + col
    · rw [Slot.store_outside (Nat.le_of_eq hlast)]
      rfl
    · rw [Slot.store_inside (show 3 + col < slot.cap by omega)]
      exact ih (by simp only [Slot.with]; omega) (by simp only [Slot.with]; omega)

theorem storeRow_system (h : 3 ≤ natts) :
    storeRow natts numCols beginSnapshot rowId value =
      storeColumns value (rowSlot natts beginSnapshot rowId []) 0 numCols := by
  rw [storeRow, Slot.store_inside (show 0 < natts by omega)]
  show (do let slot ← Slot.store _ 1 _; _) = _
  rw [Slot.store_inside (show 1 < natts by omega)]
  show (do let slot ← Slot.store _ 2 _; _) = _
  rw [Slot.store_inside (show 2 < natts by omega)]
  have hslot : (((clearedSlot natts : Slot V).with 0 (.int64 rowId.toInt64)).with 1 (.int64 beginSnapshot.toInt64)).with 2
      (.datum none) = rowSlot natts beginSnapshot rowId [] := by
    simp only [Slot.with, rowSlot, clearedSlot]
    congr 1
    funext k
    match k with
    | 0 | 1 | 2 => rfl
    | k + 3 => simp [Function.update]
  exact congrArg (storeColumns value · 0 numCols) hslot

theorem storeRow_eq (beginSnapshot rowId : UInt64) (value : Nat → Option (Option V)) (h : numCols + 3 ≤ natts) :
    storeRow natts numCols beginSnapshot rowId value =
      (((List.range numCols).mapM value).map (rowSlot natts beginSnapshot rowId)).elim (.error .evaluation) .ok := by
  rw [storeRow_system (by omega), List.range_eq_range']
  refine (storeColumns_eq [] (by simp; omega)).trans ?_
  rw [List.length_nil]
  cases (List.range' 0 numCols).mapM value <;> rfl

theorem storeRow_exceeds (h : natts < numCols + 3) :
    storeRow natts numCols beginSnapshot rowId (fun _ => some none : Nat → Option (Option V)) = .error .fault := by
  by_cases hsystem : 3 ≤ natts
  · rw [storeRow_system hsystem]
    exact storeColumns_exceeds hsystem (by simp only [rowSlot]; omega)
  · -- a relation without the system columns
    obtain rfl | rfl | rfl : natts = 0 ∨ natts = 1 ∨ natts = 2 := by omega
    all_goals rfl

end Slots

/-! ## Rows -/

section Rows

variable {batchSize i n : Nat} {row : Nat → Except ValuesStop (Slot V)} {b : Buffer (Slot V)} {rows : List (Slot V)}

theorem add_slot (h : b.Holds batchSize rows) (slot : Slot V) :
    ∃ b', b.add batchSize (fun nslots => decide (nslots ≥ batchSize)) slot = some b' ∧ b'.Holds batchSize (rows ++ [slot]) :=
  h.add (decide_eq_true (Nat.le_refl batchSize)) slot

theorem storeRows_invariant {P : Slot V → Prop} (hrow : ∀ i, row i ≠ .error .fault ∧ ∀ slot, row i = .ok slot → P slot)
    (h : b.Holds batchSize rows) (hrows : ∀ slot ∈ rows, P slot) :
    (storeRows batchSize row b i n).2 ≠ some .fault ∧ ∀ slot ∈ (storeRows batchSize row b i n).1, P slot := by
  induction n generalizing b rows i with
  | zero =>
    refine ⟨nofun, ?_⟩
    rw [storeRows, h.finish.1]
    exact hrows
  | succ n ih =>
    have hwritten : ∀ slot ∈ b.written, P slot := fun slot hslot =>
      hrows slot (h.rows_eq ▸ List.mem_append_left _ hslot)
    rw [storeRows]
    cases hone : row i with
    | error stop => exact ⟨fun heq => (hrow i).1 (hone.trans (congrArg _ (Option.some.inj heq))), hwritten⟩
    | ok slot =>
      obtain ⟨b', hadd, hb'⟩ := add_slot h slot
      simp only [hadd]
      refine ih hb' fun slot' hslot' => ?_
      rcases List.mem_append.mp hslot' with hslot' | hslot'
      · exact hrows slot' hslot'
      · rw [List.mem_singleton.mp hslot']
        exact (hrow i).2 slot hone

theorem storeRows_eq {content : Nat → Option (Slot V)}
    (hrow : ∀ i, row i = (content i).elim (.error .evaluation) .ok)
    (h : b.Holds batchSize rows) :
    match (List.range' i n).mapM content with
    | none => (storeRows batchSize row b i n).2 = some .evaluation
    | some slots => storeRows batchSize row b i n = (rows ++ slots, none) := by
  induction n generalizing b rows i with
  | zero => simp [storeRows, h.finish.1]
  | succ n ih =>
    rw [storeRows, List.range'_succ, List.mapM_cons, hrow]
    cases content i with
    | none => rfl
    | some slot =>
      obtain ⟨b', hadd, hb'⟩ := add_slot h slot
      have hrest := ih (i := i + 1) hb'
      simp only [Option.elim_some, hadd]
      cases hmore : (List.range' (i + 1) n).mapM content with
      | none =>
        rw [hmore] at hrest
        exact hrest
      | some slots =>
        rw [hmore] at hrest
        simpa using hrest

end Rows

end PgDucklake.Insert
