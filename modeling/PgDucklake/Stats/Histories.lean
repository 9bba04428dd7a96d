import PgDucklake.Stats.Bounds
import PgDucklake.Lib.Runs
import Mathlib.Algebra.Order.Ring.Int

/-!
# Histories of batches

Native batches committed one after another to one table. After every history the stored rows are the merges of the
previous rows with the batches' contributions, what they do not know they never learn again, and they cover every
committed cell as long as the bounds' texts were read back (`statistics_cover`). A session with `extra_float_digits` at
zero writes the text of a float with six digits, and the bound excludes the value (`rounded_bound`).
-/

namespace PgDucklake.Stats

open Lib Std

section Histories

variable {Datum Text : Type} [Ord Text] [DecidableEq Text]

/-- The stored statistics of a table (`none` before the first batch) and its committed rows. -/
structure State (Datum Text : Type) where
  stored : Option (List (ColumnStatRow Text))
  committed : List (Row Datum)

def State.empty : State Datum Text := ⟨none, []⟩

/-- The publication of a batch. -/
def publishBatch (tbl : Table Datum Text) (s : State Datum Text) (b : Batch Datum) : Option (State Datum Text) :=
  (publishColumnStats tbl s.stored (tbl.contribution b)).map fun rows => ⟨some rows, s.committed ++ b.rows⟩

/-! ## The properties -/

/-- A stored row excludes no cell of its column. -/
structure RowCovers (c : Column Datum Text) (cs : List (Option Datum)) (row : ColumnStatRow Text) : Prop where
  min : ∀ m, row.min = some m → ∃ b, c.type.cast m = some b ∧ ∀ v ∈ plain c cs, (c.type.cmp b v).isLE
  max : ∀ m, row.max = some m → ∃ b, c.type.cast m = some b ∧ ∀ v ∈ plain c cs, (c.type.cmp v b).isLE
  null : row.containsNull = some false → none ∉ cs
  nan : row.containsNan = some false → ∀ v ∈ present cs, c.type.isNan v = false

/-- **The stored statistics exclude no committed cell**; of a nested column they know nothing. -/
def Covers (tbl : Table Datum Text) (s : State Datum Text) : Prop :=
  ∀ rows, s.stored = some rows → ∀ row ∈ rows, ∀ i c, (ordered tbl.columns)[i]? = some c →
    row.columnId = c.columnId →
      (i < tbl.numCols → RowCovers c (cells s.committed i) row) ∧
      (tbl.numCols ≤ i → row = emptyRow Text c.columnId)

/-- The row `r'` knows nothing that `r` does not know. -/
structure NoNews (r r' : ColumnStatRow Text) : Prop where
  columnId : r'.columnId = r.columnId
  min : r.min = none → r'.min = none
  max : r.max = none → r'.max = none
  containsNull : r.containsNull = none → r'.containsNull = none
  containsNan : r.containsNan = none → r'.containsNan = none

omit [Ord Text] [DecidableEq Text] in
theorem NoNews.trans {r₁ r₂ r₃ : ColumnStatRow Text} (h : NoNews r₁ r₂) (h' : NoNews r₂ r₃) : NoNews r₁ r₃ :=
  ⟨h'.columnId.trans h.columnId, h'.min ∘ h.min, h'.max ∘ h.max, h'.containsNull ∘ h.containsNull,
    h'.containsNan ∘ h.containsNan⟩

/-- The bounds' texts of a batch are read back as the values they were written from. -/
def BatchReadsBack (tbl : Table Datum Text) (b : Batch Datum) : Prop :=
  ∀ i c, (ordered tbl.columns)[i]? = some c → i < tbl.numCols → tracked c = true →
    ∀ v ∈ plain c (cells b.rows i), ReadsBack c b.session v

/-! ## One batch -/

variable {tbl : Table Datum Text} {s s' : State Datum Text} {b : Batch Datum}

@[simp] theorem mergedRow_columnId (stats : List (NativeInlineColumnStat Datum Text)) (init : Bool)
    (row : ColumnStatRow Text) : (mergedRow tbl stats init row).columnId = row.columnId :=
  prepareColumn_columnId tbl _ row init

theorem mergedRow_noNews (stats : List (NativeInlineColumnStat Datum Text)) (row : ColumnStatRow Text) :
    NoNews row (mergedRow tbl stats false row) := by
  have hflags : ∀ stat : NativeInlineColumnStat Datum Text, NoNews row (mergeFlags stat row false).toRow := by
    intro stat
    refine ⟨rfl, fun _ => rfl, fun _ => rfl, fun h => ?_, fun h => ?_⟩ <;>
      simp [mergeFlags, MergedColumnStat.toRow, h]
  have hmerge : ∀ stat : NativeInlineColumnStat Datum Text,
      NoNews row (mergeColumnStat tbl stat row false).toRow := by
    intro stat
    unfold mergeColumnStat
    split
    · exact ⟨rfl, fun _ => rfl, fun _ => rfl, fun _ => rfl, fun _ => rfl⟩
    · split
      · exact hflags stat
      · split
        · exact hflags stat
        · refine ⟨rfl, fun h => ?_, fun h => ?_, (hflags stat).containsNull, (hflags stat).containsNan⟩ <;>
            simp [MergedColumnStat.toRow, h]
  unfold mergedRow prepareColumn
  cases findIncomingColumnStat stats row.columnId with
  | none => exact ⟨rfl, fun _ => rfl, fun _ => rfl, fun _ => rfl, fun _ => rfl⟩
  | some stat => exact hmerge stat

/-- The stored rows are those of the live columns. -/
def HasRows (tbl : Table Datum Text) (s : State Datum Text) : Prop :=
  (storedRows tbl s.stored).map (·.columnId) = tbl.columns.map (·.columnId)

omit [DecidableEq Text] in
theorem HasRows.empty (tbl : Table Datum Text) : HasRows tbl State.empty := by
  simp [HasRows, storedRows, State.empty, emptyRow, Function.comp_def]

variable [TransOrd Text]

/-- **The publication of a batch** succeeds and stores the merged rows. -/
theorem publishBatch_eq (h : HasRows tbl s) (b : Batch Datum) : publishBatch tbl s b =
    some ⟨some ((storedRows tbl s.stored).map (mergedRow tbl (tbl.contribution b) s.stored.isNone)),
      s.committed ++ b.rows⟩ := by
  have hnd : ((storedRows tbl s.stored).map (·.columnId)).Nodup := h ▸ tbl.ids_nodup
  rw [publishBatch, publish_eq hnd contribution_nodup contribution_subset]
  rfl

theorem HasRows.publish (h : HasRows tbl s) (hs : publishBatch tbl s b = some s') : HasRows tbl s' := by
  rw [publishBatch_eq h b] at hs
  cases hs
  unfold HasRows at h ⊢
  rw [← h]
  simp [storedRows, Function.comp_def]

/-! ## The invariant of a history -/

/-- The stored rows are true of the committed cells. -/
structure StateInv (tbl : Table Datum Text) (s : State Datum Text) : Prop where
  fresh : s.stored = none → s.committed = []
  rows : ∀ row ∈ storedRows tbl s.stored, ∀ i c, (ordered tbl.columns)[i]? = some c → row.columnId = c.columnId →
    (i < tbl.numCols → RowInv c (cells s.committed i) row) ∧ (tbl.numCols ≤ i → row = emptyRow Text c.columnId)

theorem RowInv.merged {row : ColumnStatRow Text} {i : Nat} {c : Column Datum Text} {init : Bool}
    {old : List (Row Datum)} (hc : (ordered tbl.columns)[i]? = some c) (hi : i < tbl.numCols)
    (hid : row.columnId = c.columnId) (hinit : init = true → old = []) (hrow : RowInv c (cells old i) row)
    (hread : BatchReadsBack tbl b) :
    RowInv c (cells (old ++ b.rows) i) (mergedRow tbl (tbl.contribution b) init row) := by
  have hcells : cells (old ++ b.rows) i = cells old i ++ cells b.rows i := List.map_append
  rw [hcells, mergedRow, hid]
  rcases contribution_find (b := b) hc with hfind | hfind <;> rw [hfind]
  · have hobs := observed_cells b.session c (cells b.rows i)
    have hentry : observedEntry tbl b i c = (cells b.rows i).foldl (observeCell b.session) (freshEntry c) :=
      if_pos hi
    rw [hentry]
    exact RowInv.merge hi hobs (fun h => by rw [hinit h]; rfl) hrow (hread i c hc hi)
  · exact RowInv.empty c _ row.columnId

theorem mergedRow_nested {row : ColumnStatRow Text} {i : Nat} {c : Column Datum Text} {init : Bool}
    (hc : (ordered tbl.columns)[i]? = some c) (hi : tbl.numCols ≤ i) (hid : row.columnId = c.columnId) :
    mergedRow tbl (tbl.contribution b) init row = emptyRow Text c.columnId := by
  rw [mergedRow, hid]
  rcases contribution_find (b := b) hc with hfind | hfind <;> rw [hfind]
  · simp [prepareColumn, mergeColumnStat, finalizeEntry, hi, MergedColumnStat.unknown, MergedColumnStat.toRow, emptyRow,
      hid]
  · simp [prepareColumn, MergedColumnStat.unknown, MergedColumnStat.toRow, emptyRow, hid]

/-- **A batch whose texts are read back** keeps the stored rows true. -/
theorem StateInv.publish (h : StateInv tbl s) (hids : HasRows tbl s) (hread : BatchReadsBack tbl b)
    (hs : publishBatch tbl s b = some s') : StateInv tbl s' := by
  rw [publishBatch_eq hids b] at hs
  cases hs
  refine ⟨fun hn => (by cases hn), fun row' hrow' i c hc hid => ?_⟩
  obtain ⟨row, hrow, rfl⟩ := List.mem_map.mp hrow'
  rw [mergedRow_columnId] at hid
  refine ⟨fun hi => ?_, fun hi => mergedRow_nested hc hi hid⟩
  exact RowInv.merged hc hi hid (fun hn => h.fresh (by simpa using hn)) ((h.rows row hrow i c hc hid).1 hi) hread

omit [DecidableEq Text] [TransOrd Text] in
theorem StateInv.empty (tbl : Table Datum Text) : StateInv tbl State.empty := by
  refine ⟨fun _ => rfl, fun row hrow i c _ hid => ?_⟩
  obtain ⟨c', -, rfl⟩ := List.mem_map.mp hrow
  exact ⟨fun _ => RowInv.empty c _ _, fun _ => congrArg (emptyRow Text) hid⟩

omit [DecidableEq Text] [TransOrd Text] in
theorem RowInv.covers {c : Column Datum Text} {cs : List (Option Datum)} {row : ColumnStatRow Text}
    (h : RowInv c cs row) : RowCovers c cs row := by
  have := c.type.trans
  refine ⟨fun m hm => ?_, fun m hm => ?_, h.null, h.nan⟩
  · obtain ⟨b, hb, -, hall⟩ := h.min m hm
    exact ⟨b, hb, fun v hv => isLE_of_not_lt (hall v hv)⟩
  · obtain ⟨b, hb, -, hall⟩ := h.max m hm
    exact ⟨b, hb, fun v hv => isLE_of_not_gt (hall v hv)⟩

omit [DecidableEq Text] [TransOrd Text] in
theorem StateInv.covers (h : StateInv tbl s) : Covers tbl s := by
  intro rows hrows row hrow i c hc hid
  obtain ⟨htop, hnested⟩ := h.rows row (by rw [hrows]; exact hrow) i c hc hid
  exact ⟨fun hi => (htop hi).covers, hnested⟩

/-! ## Histories -/

/-- The state after the batches `bs`. -/
def history (tbl : Table Datum Text) (s : State Datum Text) (bs : List (Batch Datum)) : Option (State Datum Text) :=
  trace (publishBatch tbl) s bs

theorem history_some (h : HasRows tbl s) (bs : List (Batch Datum)) :
    ∃ s', history tbl s bs = some s' ∧ HasRows tbl s' := by
  induction bs generalizing s with
  | nil => exact ⟨s, rfl, h⟩
  | cons b bs ih =>
    have hs := publishBatch_eq h b
    obtain ⟨s', hs', h'⟩ := ih (h.publish hs)
    exact ⟨s', by simpa [history, trace, hs] using hs', h'⟩

theorem history_noNews {rows : List (ColumnStatRow Text)} (h : HasRows tbl s) (hrows : s.stored = some rows)
    {bs : List (Batch Datum)} (hs : history tbl s bs = some s') :
    ∃ f, s'.stored = some (rows.map f) ∧ ∀ r, NoNews r (f r) := by
  induction bs generalizing s rows with
  | nil =>
    cases hs
    exact ⟨id, by simpa using hrows, fun r => ⟨rfl, id, id, id, id⟩⟩
  | cons b bs ih =>
    obtain ⟨t, ht, hs⟩ := Option.bind_eq_some_iff.mp hs
    have hmid := h.publish ht
    rw [publishBatch_eq h b, hrows] at ht
    cases ht
    obtain ⟨f, hf, hnews⟩ := ih hmid rfl hs
    exact ⟨f ∘ mergedRow tbl (tbl.contribution b) false, by simpa [storedRows] using hf,
      fun r => (mergedRow_noNews _ r).trans (hnews _)⟩

theorem history_inv (h : StateInv tbl s) (hids : HasRows tbl s) {bs : List (Batch Datum)}
    (hread : ∀ b ∈ bs, BatchReadsBack tbl b) (hs : history tbl s bs = some s') : StateInv tbl s' := by
  induction bs generalizing s with
  | nil => cases hs; exact h
  | cons b bs ih =>
    obtain ⟨t, ht, hs⟩ := Option.bind_eq_some_iff.mp hs
    exact ih (h.publish hids (hread b (by simp)) ht) (hids.publish ht) (fun b' hb' => hread b' (by simp [hb'])) hs

/-- **Histories of batches.** After any batches `hist`, the batch `b` is published and the stored rows are the merges of
the rows before it with its contribution; after any further batches `more` they know nothing that they did not know after
`b`; and if the texts of all batches up to `b` were read back, they exclude no committed cell. -/
theorem statistics_cover (tbl : Table Datum Text) (hist : List (Batch Datum)) (b : Batch Datum)
    (more : List (Batch Datum)) :
    ∃ s₀ s₁ s₂ rows f, history tbl State.empty hist = some s₀ ∧ publishBatch tbl s₀ b = some s₁ ∧
      history tbl s₁ more = some s₂ ∧ s₁.stored = some rows ∧
      rows = (storedRows tbl s₀.stored).map (mergedRow tbl (tbl.contribution b) s₀.stored.isNone) ∧
      s₂.stored = some (rows.map f) ∧ (∀ r, NoNews r (f r)) ∧
      ((∀ b' ∈ hist ++ [b], BatchReadsBack tbl b') → Covers tbl s₁) := by
  obtain ⟨s₀, hs₀, h₀⟩ := history_some (HasRows.empty tbl) hist
  have hs₁ := publishBatch_eq h₀ b
  have h₁ := h₀.publish hs₁
  obtain ⟨s₂, hs₂, -⟩ := history_some h₁ more
  obtain ⟨f, hf, hnews⟩ := history_noNews h₁ rfl hs₂
  refine ⟨s₀, _, s₂, _, f, hs₀, hs₁, hs₂, rfl, rfl, hf, hnews, fun hread => ?_⟩
  have hinv := history_inv (StateInv.empty tbl) (HasRows.empty tbl) (fun b' hb' => hread b' (by simp [hb'])) hs₀
  exact (hinv.publish h₀ (hread b (by simp)) hs₁).covers

end Histories

/-! ## A float column -/

section Floats

/-- The power of ten that leaves a number below `limit`. -/
def decimalScale (limit : Nat) : Nat → Nat → Nat
  | 0, _ => 1
  | fuel + 1, n => if n < limit then 1 else 10 * decimalScale limit fuel (n / 10)

/-- A whole number rounded to significant decimal digits, ties to even. -/
def roundDigits (digits : Nat) (v : Int) : Int :=
  let n := v.natAbs
  let scale := decimalScale (10 ^ digits) n n
  let q := n / scale
  let r := n % scale
  v.sign * ((if scale < 2 * r ∨ (scale = 2 * r ∧ q % 2 = 1) then q + 1 else q) * scale : Nat)

/-- The type `real` on whole numbers that a `real` holds exactly; the text of a number is written as the number that it
denotes. `float4out` prints the shortest text that is read back, or six digits and `extra_float_digits` more when that
setting is not positive. -/
def real : ColumnType Int Int where
  id := some .float
  requiresValueComparison := true
  isNan _ := false
  cmp := compare
  output s v := if 0 < s.extraFloatDigits then v else roundDigits (6 + s.extraFloatDigits).toNat v
  cast m := some m
  toText v := v
  trans := inferInstance
  cast_toText _ := rfl
  output_order h := by cases h
  toText_order h := by cases h
  nan_floating h := by cases h

def realTable : Table Int Int where
  columns := [⟨1, real, true, .float4, true, fun _ => ⟨Or.inl rfl, rfl⟩⟩]
  numCols := 1
  anyValid r := r.min.isSome || r.max.isSome
  anyValid_bound h := by simpa using h
  ids_nodup := by decide

/-- A batch of one row. -/
def oneReal (extraFloatDigits v : Int) : Batch Int := ⟨⟨.iso, .mdy, extraFloatDigits⟩, [fun _ => some v]⟩

/-- **A bound excludes a committed value**: in a session with `extra_float_digits = 0` the batch with the single value
1234567 stores the minimum 1.23457e+06. -/
theorem rounded_bound :
    ∃ s, history realTable State.empty [oneReal 0 1234567] = some s ∧
      s.stored = some [⟨1, some 1234570, some 1234570, some false, none, none⟩] ∧ ¬Covers realTable s := by
  refine ⟨_, rfl, rfl, fun h => ?_⟩
  obtain ⟨hrow, -⟩ := h _ rfl _ (List.mem_singleton.mpr rfl) 0 _ rfl rfl
  obtain ⟨b, hb, hall⟩ := (hrow (by decide)).min 1234570 rfl
  cases hb
  have := hall 1234567 (by decide)
  revert this
  decide

/-- Two batches whose floats are written in full. -/
theorem statistics_cover_reals : ∃ s, history realTable State.empty [oneReal 1 1234567, oneReal 3 (-16777216)] = some s ∧
    s.stored = some [⟨1, some (-16777216), some 1234567, some false, none, none⟩] ∧ Covers realTable s := by
  obtain ⟨s₀, s₁, s₂, rows, f, hs₀, hs₁, -, -, -, -, -, hcov⟩ :=
    statistics_cover realTable [oneReal 1 1234567] (oneReal 3 (-16777216)) []
  refine ⟨_, rfl, rfl, ?_⟩
  cases hs₀
  cases hs₁
  refine hcov fun b hb i c hc hi _ v _ => Or.inr ?_
  have hdigits : 0 < b.session.extraFloatDigits := by
    rcases List.mem_cons.mp hb with rfl | hb
    · decide
    · rw [List.mem_singleton.mp hb]; decide
  obtain rfl : i = 0 := Nat.lt_one_iff.mp hi
  cases hc
  change some (if 0 < b.session.extraFloatDigits then v else _) = some v
  rw [if_pos hdigits]

end Floats

end PgDucklake.Stats
