import PgDucklake.Insert.Storage

/-!
# The COPY producer

`DucklakeCopyFromStdin` walks over the attributes of the table and fills the columns of the inlined data table behind the
system columns, past the dropped attributes; full buffers are written out on the way. `copy_rows` says what is left of
this in a relation whose columns have the representation of what is stored in them: the rows of the file in their order
with consecutive row ids, each value in the column of its attribute, as text where the column is one of text. A line that
cannot be read stores nothing. A column of another type is not noticed (`copy_truncates`).
-/

namespace PgDucklake.Insert

open Lib

variable {V : Type}

/-- The user columns of one row, for the values that `NextCopyFrom` gives of it. -/
def copyCells (exec : Executor V) : TupleDesc → List Bool → List (Option V) → Option (List (Option V))
  | [], _, _ => some []
  | att :: desc, conv :: convs, value :: values =>
    if att.attisdropped then copyCells exec desc convs values
    else
      (copyCells exec desc convs values).map
        ((value.map fun v => if conv then exec.outputText att.atttypid v else v) :: ·)
  | _, _, _ => none

/-- One pass of the loop: `next` gives the values of a line, `none` for one that cannot be read. -/
def copyRow (exec : Executor V) (user : TupleDesc) (conv : List Bool) (beginSnapshot : UInt64)
    (next : Nat → Option (List (Option V))) (rowId : UInt64) (line : Nat) : Option (InlinedRow V × UInt64) := do
  let cells ← (next line).bind (copyCells exec user conv)
  some (inlinedRow beginSnapshot rowId cells, rowId + 1)

/-- `DucklakeCopyFromStdin` behind its checks of the table, for a file of `lines` lines: the rows and their count. -/
def ducklakeCopyFromStdin (exec : Executor V) (user inlined : TupleDesc) (beginSnapshot nextRowId : UInt64)
    (next : Nat → Option (List (Option V))) (lines : Nat) : Option (List (InlinedRow V) × Nat) :=
  if inlined.length ≠ user.live.length + 3 then none
  else do
    let conv ← buildColumnConvInfo user (inlined.drop 3)
    let (buffer, _) ← produce maxBufferedTuples (fun nslots => decide (nslots ≥ maxBufferedTuples))
      (copyRow exec user conv beginSnapshot next) {} nextRowId 0 lines
    some (tableMultiInsert exec (copyStoredTypes user conv) inlined.columnTypes buffer.finish.written,
      buffer.finish.rowsInserted)

/-- A value of the attribute as it is stored in the column. -/
def copiedValue (exec : Executor V) (value : Attribute × Option V) (column : Attribute) : Option V :=
  value.2.map fun v => if needsTextConv value.1.atttypid column.atttypid then exec.outputText value.1.atttypid v else v

/-- The cells of a row: the values of the live attributes, one for each column. -/
def copiedCells (exec : Executor V) (user columns : TupleDesc) (values : List (Option V)) : List (Option V) :=
  List.zipWith (copiedValue exec) ((user.zip values).filter (·.1.isLive)) columns

variable {exec : Executor V}

theorem copyCells_eq {user columns : TupleDesc} (h : columns.length = user.live.length) :
    ∃ conv, buildColumnConvInfo user columns = some conv ∧ ∀ values : List (Option V), values.length = user.length →
      copyCells exec user conv values = some (copiedCells exec user columns values) := by
  induction user generalizing columns with
  | nil => exact ⟨[], rfl, fun _ _ => rfl⟩
  | cons att user ih =>
    cases hdropped : att.attisdropped with
    | true =>
      have hlive : TupleDesc.live (att :: user) = TupleDesc.live user := by
        simp [TupleDesc.live, Attribute.isLive, hdropped]
      obtain ⟨conv, hconv, hcells⟩ := ih (hlive ▸ h)
      refine ⟨false :: conv, by simp [buildColumnConvInfo, hdropped, hconv], fun values hvalues => ?_⟩
      obtain ⟨value, values, rfl⟩ := List.exists_cons_of_length_eq_add_one hvalues
      simpa [copyCells, copiedCells, Attribute.isLive, hdropped] using hcells values (Nat.succ.inj hvalues)
    | false =>
      have hlive : TupleDesc.live (att :: user) = att :: TupleDesc.live user := by
        simp [TupleDesc.live, Attribute.isLive, hdropped]
      rw [hlive] at h
      obtain ⟨column, columns, rfl⟩ := List.exists_cons_of_length_eq_add_one h
      obtain ⟨conv, hconv, hcells⟩ := ih (Nat.succ.inj h)
      refine ⟨_, by simp only [buildColumnConvInfo, hdropped, hconv]; rfl, fun values hvalues => ?_⟩
      obtain ⟨value, values, rfl⟩ := List.exists_cons_of_length_eq_add_one hvalues
      simp [copyCells, copiedCells, copiedValue, Attribute.isLive, hdropped, hcells values (Nat.succ.inj hvalues)]

theorem length_copiedCells {user columns : TupleDesc} (values : List (Option V)) :
    (copiedCells exec user columns values).length ≤ columns.length := by
  rw [copiedCells, List.length_zipWith]
  exact Nat.min_le_right _ _

theorem number_inlinedRow (beginSnapshot nextRowId : UInt64) (rows : List (List (Option V))) :
    number (inlinedRow beginSnapshot) (· + 1) nextRowId rows = numberedRows beginSnapshot nextRowId rows := by
  induction rows generalizing nextRowId with
  | nil => rfl
  | cons row rows ih =>
    have hid : ∀ i, nextRowId + 1 + UInt64.ofNat i = nextRowId + UInt64.ofNat (i + 1) := by
      intro i
      rw [UInt64.ofNat_add, UInt64.add_assoc, UInt64.add_comm 1]
      rfl
    have hfirst : nextRowId + UInt64.ofNat 0 = nextRowId := UInt64.add_zero _
    simp only [number, ih, numberedRows, List.mapIdx_cons, hid, hfirst]

/-- The types of the Datums that COPY stores in columns of the given types. -/
def copyDatumTypes (user inlined : TupleDesc) : List Oid :=
  List.zipWith valuesStoredType (user.live.map (·.atttypid)) inlined.columnTypes

/-- What COPY stores of a file whose lines have a value for each attribute, in columns with the representation of the
values. -/
theorem copy_rows (exec : Executor V) {user inlined : TupleDesc} (hcolumns : inlined.length = user.live.length + 3)
    (htypes : List.Forall₂ SameRepresentation (copyDatumTypes user inlined) inlined.columnTypes)
    (beginSnapshot nextRowId : UInt64) {next : Nat → Option (List (Option V))}
    (hnext : ∀ i values, next i = some values → values.length = user.length) (lines : Nat) :
    ducklakeCopyFromStdin exec user inlined beginSnapshot nextRowId next lines =
      ((List.range lines).mapM next).map fun rows =>
        (numberedRows beginSnapshot nextRowId (rows.map (copiedCells exec user (inlined.drop 3))), rows.length) := by
  have hdrop : (inlined.drop 3).length = user.live.length := by simp [hcolumns]
  obtain ⟨conv, hconv, hcells⟩ := @copyCells_eq _ exec _ _ hdrop
  obtain ⟨conv', hconv', hstored⟩ := copyStoredTypes_eq hdrop
  rw [hconv] at hconv'
  cases hconv'
  have hrow : (fun i => (next i).bind (copyCells exec user conv)) =
      fun i => (next i).map (copiedCells exec user (inlined.drop 3)) := by
    funext i
    cases hi : next i with
    | none => rfl
    | some values => exact hcells values (hnext i values hi)
  have hproduce := produce_finish (fun nslots => decide (nslots ≥ maxBufferedTuples))
    (copyRow exec user conv beginSnapshot next) (by decide) (by decide : 0 < maxBufferedTuples) nextRowId lines
  have hcollect : (collect (copyRow exec user conv beginSnapshot next) nextRowId 0 lines).map (·.1) = _ :=
    collect_number (inlinedRow beginSnapshot) (· + 1) (fun i => (next i).bind (copyCells exec user conv)) nextRowId 0 lines
  rw [← List.range_eq_range', hrow, mapM_map] at hcollect
  have hkept : ∀ rows : List (List (Option V)), tableMultiInsert exec (copyStoredTypes user conv) inlined.columnTypes
      (numberedRows beginSnapshot nextRowId (rows.map (copiedCells exec user (inlined.drop 3)))) =
        numberedRows beginSnapshot nextRowId (rows.map (copiedCells exec user (inlined.drop 3))) := by
    intro rows
    refine tableMultiInsert_eq_iff.mpr (List.forall_mem_map.mpr fun values _ => ?_)
    refine kept_of_sameRepresentation (hstored ▸ htypes) (Nat.le_trans (length_copiedCells values) ?_)
    rw [hstored, List.length_zipWith, List.length_map, List.length_map, hdrop, Nat.min_self]
  calc _ = ((produce maxBufferedTuples (fun nslots => decide (nslots ≥ maxBufferedTuples))
        (copyRow exec user conv beginSnapshot next) {} nextRowId 0 lines).map
          fun p => (p.1.finish.written, p.1.finish.rowsInserted)).map fun p =>
            (tableMultiInsert exec (copyStoredTypes user conv) inlined.columnTypes p.1, p.2) := by
        rw [ducklakeCopyFromStdin, if_neg (by simp [hcolumns]), hconv, Option.map_map]
        exact (Option.map_eq_bind ..).symm
    _ = ((collect (copyRow exec user conv beginSnapshot next) nextRowId 0 lines).map (·.1)).map
          fun rows => (tableMultiInsert exec (copyStoredTypes user conv) inlined.columnTypes rows, rows.length) := by
        rw [hproduce, Option.map_map, Option.map_map]
        rfl
    _ = _ := by
        rw [hcollect, Option.map_map, Option.map_map]
        refine congrArg (Option.map · _) (funext fun rows => ?_)
        simp only [Function.comp_apply, number_inlinedRow, hkept]
        simp [numberedRows]

/-- A table with an integer, a dropped column and a date, which is stored as text. -/
theorem copy_rows_date :
    ducklakeCopyFromStdin { countingExecutor with outputText := fun _ v => v + 1000 }
      [⟨"a", 23, false, false, false⟩, ⟨"x", 0, true, false, false⟩, ⟨"d", 1082, false, false, false⟩]
      ([20, 20, 20, 23, varcharOid].map fun oid => ⟨"", oid, false, false, false⟩) 4 100
      (fun line => some [some line, none, some 5]) 2 =
      some ([⟨100, 4, none, [some 0, some 1005]⟩, ⟨101, 4, none, [some 1, some 1005]⟩], 2) :=
  (copy_rows _ rfl (by decide) 4 100 (fun _ _ hline => by cases hline; rfl) 2).trans rfl

/-- A bigint in the `int4` column of before. -/
theorem copy_truncates :
    ducklakeCopyFromStdin countingExecutor bigintRelation.descr
      ([20, 20, 20, 23].map fun oid => ⟨"", oid, false, false, false⟩) 4 100
      (fun _ => some [some 4294967303]) 1 = some ([⟨100, 4, none, [some 7]⟩], 1) := rfl

end PgDucklake.Insert
