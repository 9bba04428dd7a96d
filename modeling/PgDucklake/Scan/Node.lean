import Mathlib.Data.List.TakeWhile

/-!
# The executor node

PostgreSQL asks the custom scan for one tuple at a time; DuckDB delivers its result in chunks. `node_rows` is the outcome of
every scan: the rows of the chunks up to the first empty one, each once and in order, or the first conversion that fails.
A statement that is not a query has no rows, and the count that DuckDB returns becomes `es_processed`.
-/

namespace PgDucklake.Node

abbrev Row (V : Type) := List (Option V)

/-- The statement of a scan: the chunks of its result, or `none` if DuckDB fails, and how a value is read as a number. -/
structure Statement (V : Type) where
  isSelect : Bool
  chunks : Option (List (List (Row V)))
  toCount : V → Option Nat

inductive NodeError
  | execution
  | conversion
  /-- A read without a chunk or behind its rows. -/
  | noRow
  deriving DecidableEq, Repr

/-- `DuckdbScanState`, with the chunks that `Fetch` has not returned yet and the executor's `es_processed`. -/
structure DuckdbScanState (V : Type) where
  isExecuted : Bool := false
  fetchNext : Bool := true
  currentDataChunk : Option (List (Row V)) := none
  currentRow : Nat := 0
  queryResults : List (List (Row V)) := []
  esProcessed : Nat := 0

variable {V D : Type} (q : Statement V) (convert : Nat → V → Option D)

/-- The count of a DML statement: 0 unless the first chunk has one. -/
def processed (chunk : Option (List (Row V))) : Nat :=
  ((chunk.bind List.head?).bind List.head?).join.bind q.toCount |>.getD 0

/-- The loop over the columns that fills the slot. -/
def fillSlot (row : Row V) : Option (List (Option D)) :=
  row.zipIdx.mapM fun (value, col) => match value with
    | none => some none
    | some v => (convert col v).map some

/-- The row at the cursor; behind the last one of a chunk the next call fetches again. -/
def currentTuple (s : DuckdbScanState V) : Except NodeError (Option (List (Option D)) × DuckdbScanState V) :=
  match s.currentDataChunk with
  | none => .error .noRow
  | some chunk =>
    match chunk[s.currentRow]? with
    | none => .error .noRow
    | some row =>
      match fillSlot convert row with
      | none => .error .conversion
      | some tuple =>
        let s := { s with currentRow := s.currentRow + 1 }
        .ok (some tuple, if s.currentRow ≥ chunk.length then { s with currentDataChunk := none, fetchNext := true } else s)

/-- The part of `Duckdb_ExecCustomScan` for a statement that has been executed. -/
def fetchTuple (s : DuckdbScanState V) : Except NodeError (Option (List (Option D)) × DuckdbScanState V) :=
  if s.fetchNext then
    let s := { s with currentDataChunk := s.queryResults.head?, queryResults := s.queryResults.tail, currentRow := 0,
                      fetchNext := false }
    if (s.currentDataChunk.getD []).isEmpty then .ok (none, s) else currentTuple convert s
  else currentTuple convert s

/-- `Duckdb_ExecCustomScan`; an empty slot is `none`. -/
def execCustomScan (s : DuckdbScanState V) : Except NodeError (Option (List (Option D)) × DuckdbScanState V) :=
  if s.isExecuted then fetchTuple convert s
  else match q.chunks with
    | none => .error .execution
    | some chunks =>
      let s := { s with isExecuted := true, queryResults := chunks }
      if q.isSelect then fetchTuple convert s
      else .ok (none, { s with queryResults := chunks.tail, esProcessed := processed q chunks.head? })

/-- PostgreSQL's loop: calls until the slot is empty, at most `fuel` of them; the tuples and `es_processed`. -/
def executePlan : Nat → DuckdbScanState V → Option (Except NodeError (List (List (Option D)) × Nat))
  | 0, _ => none
  | fuel + 1, s => match execCustomScan q convert s with
    | .error e => some (.error e)
    | .ok (none, s) => some (.ok ([], s.esProcessed))
    | .ok (some tuple, s) => (executePlan fuel s).map (·.map fun p => (tuple :: p.1, p.2))

/-! ## What a call returns -/

/-- The rows of a result, which ends at its first empty chunk. -/
def rowsOf (chunks : List (List (Row V))) : List (Row V) := (chunks.takeWhile (!·.isEmpty)).flatten

/-- A query between two calls that still has to return `rows`. -/
structure Due (s : DuckdbScanState V) (rows : List (Row V)) : Prop where
  executed : s.isExecuted = true
  notCounted : s.esProcessed = 0
  rows_eq : if s.fetchNext then rows = rowsOf s.queryResults else ∃ chunk, s.currentDataChunk = some chunk ∧
    s.currentRow < chunk.length ∧ rows = chunk.drop s.currentRow ++ rowsOf s.queryResults

/-- What a call may return while `rows` are due. -/
inductive Returns : List (Row V) → Except NodeError (Option (List (Option D)) × DuckdbScanState V) → Prop
  | last {s} (hcount : s.esProcessed = 0) : Returns [] (.ok (none, s))
  | failed {row rows} (hslot : fillSlot convert row = none) : Returns (row :: rows) (.error .conversion)
  | tuple {row rows t s} (hslot : fillSlot convert row = some t) (hdue : Due s rows) : Returns (row :: rows) (.ok (some t, s))

variable {q convert} {s : DuckdbScanState V} {rows : List (Row V)}

theorem Due.currentTuple (hs : Due s rows) (hfetch : s.fetchNext = false) : Returns convert rows (currentTuple convert s) := by
  have hcursor := hs.rows_eq
  simp only [hfetch, Bool.false_eq_true, if_false] at hcursor
  obtain ⟨chunk, hchunk, hrow, rfl⟩ := hcursor
  rw [List.drop_eq_getElem_cons hrow, List.cons_append]
  simp only [Node.currentTuple, hchunk, List.getElem?_eq_getElem hrow]
  cases hslot : fillSlot convert chunk[s.currentRow] with
  | none => exact .failed hslot
  | some t =>
    refine .tuple hslot ?_
    split
    · -- the chunk is used up
      rename_i hend
      exact ⟨hs.executed, hs.notCounted, by rw [if_pos rfl, List.drop_eq_nil_of_le hend, List.nil_append]⟩
    · rename_i hmore
      exact ⟨hs.executed, hs.notCounted, by simpa [hfetch, hchunk] using Nat.lt_of_not_le hmore⟩

theorem Due.fetchTuple (hs : Due s rows) : Returns convert rows (fetchTuple convert s) := by
  cases hfetch : s.fetchNext with
  | false =>
    rw [Node.fetchTuple, hfetch]
    exact hs.currentTuple hfetch
  | true =>
    have hrows := hs.rows_eq
    rw [if_pos hfetch] at hrows
    subst hrows
    simp only [Node.fetchTuple, hfetch, if_true]
    match hresults : s.queryResults with
    | [] => exact .last hs.notCounted
    | [] :: _ => exact .last hs.notCounted
    | (row :: chunk) :: rest =>
      have hnext : Due { s with currentDataChunk := some (row :: chunk), queryResults := rest, currentRow := 0,
                                fetchNext := false } (rowsOf ((row :: chunk) :: rest)) :=
        ⟨hs.executed, hs.notCounted, by simp [rowsOf]⟩
      exact hnext.currentTuple rfl

theorem Due.executePlan {fuel : Nat} (hs : Due s rows) (hfuel : rows.length < fuel) : executePlan q convert fuel s =
    some (((rows.mapM (fillSlot convert)).elim (.error .conversion)) fun ts => .ok (ts, 0)) := by
  induction fuel generalizing s rows with
  | zero => simp at hfuel
  | succ fuel ih =>
    have hcall : Returns convert rows (execCustomScan q convert s) := by
      rw [execCustomScan, if_pos hs.executed]
      exact hs.fetchTuple
    rw [Node.executePlan]
    generalize execCustomScan q convert s = result at hcall
    cases hcall with
    | last hcount => simp [hcount]
    | failed hslot => simp [hslot]
    | @tuple row rows t s' hslot hdue =>
      simp only [ih hdue (by simpa using hfuel), List.mapM_cons, hslot]
      cases rows.mapM (fillSlot convert) <;> rfl

/-- What a scan of the statement is to return. -/
def outcome (q : Statement V) (convert : Nat → V → Option D) : Except NodeError (List (List (Option D)) × Nat) :=
  match q.chunks with
  | none => .error .execution
  | some chunks =>
    if q.isSelect then ((rowsOf chunks).mapM (fillSlot convert)).elim (.error .conversion) fun ts => .ok (ts, 0)
    else .ok ([], processed q chunks.head?)

/-- **A scan returns DuckDB's result.** Every row once and in order wherever the chunks end, and never a read outside of a
chunk; one call more than there are rows suffices. -/
theorem node_rows (q : Statement V) (convert : Nat → V → Option D) {fuel : Nat}
    (hfuel : (rowsOf (q.chunks.getD [])).length < fuel) : executePlan q convert fuel {} = some (outcome q convert) := by
  obtain ⟨fuel, rfl⟩ : ∃ n, fuel = n + 1 := ⟨fuel - 1, by omega⟩
  rw [outcome]
  cases hchunks : q.chunks with
  | none => simp [executePlan, execCustomScan, hchunks]
  | some chunks =>
    cases hselect : q.isSelect with
    | false => simp [executePlan, execCustomScan, hchunks, hselect]
    | true =>
      -- the first call executes the statement and goes on like any other
      let started : DuckdbScanState V := { isExecuted := true, queryResults := chunks }
      have hdue : Due started (rowsOf chunks) := ⟨rfl, rfl, rfl⟩
      have hfirst : executePlan q convert (fuel + 1) {} = executePlan q convert (fuel + 1) started := by
        simp [executePlan, execCustomScan, hchunks, hselect, started]
      rw [hchunks, Option.getD_some] at hfuel
      rw [hfirst, hdue.executePlan hfuel]
      rfl

theorem node_rows_two_chunks : (rowsOf [[[some 1], [none]], [[some 2]]]).length < 4 ∧
    executePlan ⟨true, some [[[some 1], [none]], [[some 2]]], some⟩ (fun _ v => some (10 * v)) 4 {} =
      some (.ok ([[some 10], [none], [some 20]], 0)) :=
  ⟨by decide, node_rows ⟨true, some [[[some 1], [none]], [[some 2]]], some⟩ _ (by decide)⟩

end PgDucklake.Node
