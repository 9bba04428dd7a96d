import PgDucklake.Stats.Observe
import PgDucklake.Lib.Keys
import Mathlib.Data.List.Perm.Basic

/-!
# Merging a batch into the stored statistics

`mergeColumnStat` follows DuckLake's merge of two column statistics; `publishColumnStats` is what one publication does to
the stored rows: create them when the table has none, merge, and update the rows that changed. `publish_eq` says that
the stored rows afterwards are the merged ones, also where the update is skipped.
-/

namespace PgDucklake.Stats

open Lib Std

/-! ## Stored rows -/

/-- A row of `ducklake_table_column_stats`; `none` is SQL NULL. -/
structure ColumnStatRow (Text : Type) where
  columnId : Nat
  min : Option Text
  max : Option Text
  containsNull : Option Bool
  containsNan : Option Bool
  extraStats : Option Text
  deriving DecidableEq, Repr

/-- The row that initialisation inserts. -/
def emptyRow (Text : Type) (columnId : Nat) : ColumnStatRow Text := ⟨columnId, none, none, none, none, none⟩

/-! ## The update -/

section Update

variable {Text : Type}

/-- `MergedColumnStat`, with the flags `has_*` as `none`. -/
structure MergedColumnStat (Text : Type) where
  columnId : Nat
  min : Option Text
  max : Option Text
  containsNull : Option Bool
  containsNan : Option Bool
  changed : Bool

def MergedColumnStat.unknown (Text : Type) (columnId : Nat) : MergedColumnStat Text :=
  ⟨columnId, none, none, none, none, false⟩

/-- The row that an update writes. -/
def MergedColumnStat.toRow (m : MergedColumnStat Text) : ColumnStatRow Text :=
  ⟨m.columnId, m.min, m.max, m.containsNull, m.containsNan, none⟩

/-- `ApplyMergedColumnStats`: one UPDATE of the changed rows; `none` is the error that their number is another. -/
def applyMergedColumnStats (rows : List (ColumnStatRow Text)) (prepared : List (MergedColumnStat Text)) :
    Option (List (ColumnStatRow Text)) :=
  let changed := prepared.filter (·.changed)
  if rows.countP (fun r => changed.any (·.columnId == r.columnId)) = changed.length then
    some (rows.map fun r => ((changed.find? (·.columnId == r.columnId)).map (·.toRow)).getD r)
  else none

variable {prepared : List (MergedColumnStat Text)}

theorem find?_changed (hnd : (prepared.map (·.columnId)).Nodup) {m : MergedColumnStat Text} (hm : m ∈ prepared) :
    (prepared.filter (·.changed)).find? (·.columnId == m.columnId) = if m.changed then some m else none := by
  split
  next hc =>
    exact (find?_key (hnd.sublist (List.Sublist.map _ List.filter_sublist))).mpr ⟨List.mem_filter.mpr ⟨hm, hc⟩, rfl⟩
  next hc =>
    rw [List.find?_eq_none]
    intro m' hm' he
    obtain ⟨hin, hch⟩ := List.mem_filter.mp hm'
    rw [List.inj_on_of_nodup_map hnd hin hm (by simpa using he)] at hch
    exact hc hch

variable {rows : List (ColumnStatRow Text)}

theorem countP_changed {changed : List (MergedColumnStat Text)} (hrows : (rows.map (·.columnId)).Nodup)
    (hnd : (changed.map (·.columnId)).Nodup) (hsub : ∀ m ∈ changed, m.columnId ∈ rows.map (·.columnId)) :
    rows.countP (fun r => changed.any (·.columnId == r.columnId)) = changed.length := by
  have hperm : ((rows.map (·.columnId)).filter fun i => changed.any (·.columnId == i)).Perm
      (changed.map (·.columnId)) := by
    rw [List.perm_ext_iff_of_nodup (hrows.filter _) hnd]
    intro i
    rw [List.mem_filter, List.any_eq_true]
    constructor
    · rintro ⟨-, m, hm, he⟩
      exact List.mem_map.mpr ⟨m, hm, by simpa using he⟩
    · intro hi
      obtain ⟨m, hm, rfl⟩ := List.mem_map.mp hi
      exact ⟨hsub m hm, m, hm, by simp⟩
  have hlen := hperm.length_eq
  rw [List.length_map, ← List.countP_eq_length_filter, List.countP_map] at hlen
  exact hlen

/-- **An update of prepared entries.** The rows afterwards are those that the entries stand for. -/
theorem apply_eq {f : ColumnStatRow Text → ColumnStatRow Text} (hrows : (rows.map (·.columnId)).Nodup)
    (hnd : (prepared.map (·.columnId)).Nodup) (hsub : ∀ m ∈ prepared, m.columnId ∈ rows.map (·.columnId))
    (hentry : ∀ r ∈ rows, ∀ m ∈ prepared, m.columnId = r.columnId → f r = if m.changed then m.toRow else r)
    (hnone : ∀ r ∈ rows, r.columnId ∉ prepared.map (·.columnId) → f r = r) :
    applyMergedColumnStats rows prepared = some (rows.map f) := by
  have hcount : rows.countP (fun r => (prepared.filter (·.changed)).any (·.columnId == r.columnId)) =
      (prepared.filter (·.changed)).length :=
    countP_changed hrows (hnd.sublist (List.Sublist.map _ List.filter_sublist))
      fun m hm => hsub m (List.mem_filter.mp hm).1
  rw [applyMergedColumnStats, if_pos hcount, Option.some.injEq]
  refine List.map_congr_left fun r hr => ?_
  by_cases hin : r.columnId ∈ prepared.map (·.columnId)
  · obtain ⟨m, hm, he⟩ := List.mem_map.mp hin
    rw [hentry r hr m hm he, ← he, find?_changed hnd hm]
    split <;> simp
  · have hno : (prepared.filter (·.changed)).find? (·.columnId == r.columnId) = none := by
      rw [List.find?_eq_none]
      intro m hm he
      exact hin (List.mem_map.mpr ⟨m, (List.mem_filter.mp hm).1, by simpa using he⟩)
    rw [hnone r hr hin, hno]
    rfl

end Update

/-- A table with its live columns, as many of them top-level as the source has. -/
structure Table (Datum Text : Type) [Ord Text] where
  columns : List (Column Datum Text)
  /-- The number of columns that the source provides. -/
  numCols : Nat
  /-- `AnyValid()` of the statistics that `FromGlobalStats` makes of a stored row. -/
  anyValid : ColumnStatRow Text → Bool
  anyValid_bound : ∀ {r}, r.min.isSome = true ∨ r.max.isSome = true → anyValid r = true
  ids_nodup : (columns.map (·.columnId)).Nodup

section Merge

variable {Datum Text : Type} [Ord Text]

/-! ## `DuckLakeColumnStats::MergeStats` -/

/-- The part of `DuckLakeColumnStats` that bounds are computed from. -/
structure DuckLakeColumnStats (Text : Type) where
  anyValid : Bool
  min : Option Text
  max : Option Text

/-- One side of the merge: the new bound wins when it compares as `wins` to the current one. `none`: a cast throws. -/
def mergeSide (t : ColumnType Datum Text) (wins : Ordering) : Option Text → Option Text → Option (Option Text)
  | _, none => some none
  | none, some _ => some none
  | some current, some new =>
    if t.requiresValueComparison then do
      let currentValue ← t.cast current
      let newValue ← t.cast new
      some (some (if t.cmp newValue currentValue = wins then new else current))
    else some (some (if compare new current = wins then new else current))

/-- `MergeStats` of statistics of one type. -/
def mergeStats (t : ColumnType Datum Text) (current new : DuckLakeColumnStats Text) :
    Option (DuckLakeColumnStats Text) :=
  if !new.anyValid then some current
  else if !current.anyValid then some ⟨true, new.min, new.max⟩
  else do
    let min ← mergeSide t .lt current.min new.min
    let max ← mergeSide t .gt current.max new.max
    some { current with min, max }

/-! ## `MergeColumnStat` -/

/-- A bound of the batch as DuckDB writes it; `none` when the cast throws. -/
def castBound (t : ColumnType Datum Text) : Option Text → Option (Option Text)
  | none => some none
  | some m => (t.cast m).map fun v => some (t.toText v)

/-- The merged bounds; `none` when a cast throws. -/
def mergeBounds (tbl : Table Datum Text) (incoming : NativeInlineColumnStat Datum Text) (row : ColumnStatRow Text) :
    Option (DuckLakeColumnStats Text) := do
  let min ← castBound incoming.type incoming.min
  let max ← castBound incoming.type incoming.max
  mergeStats incoming.type ⟨tbl.anyValid row, row.min, row.max⟩ ⟨min.isSome || max.isSome, min, max⟩

/-- The merged flags: NULL knowledge starts with the first batch, NaN knowledge only continues. -/
def mergeFlags (incoming : NativeInlineColumnStat Datum Text) (row : ColumnStatRow Text) (initializing : Bool) :
    MergedColumnStat Text :=
  { MergedColumnStat.unknown Text row.columnId with
    containsNull := if initializing || row.containsNull.isSome then
      some (row.containsNull.getD false || incoming.observedNull) else none
    containsNan := row.containsNan.map (· || (incoming.nanKnown && incoming.observedNan)) }

/-- `MergeColumnStat`. A side that is missing from a stored row is unknown; only the first write can seed it. -/
def mergeColumnStat (tbl : Table Datum Text) (incoming : NativeInlineColumnStat Datum Text) (row : ColumnStatRow Text)
    (initializing : Bool) : MergedColumnStat Text :=
  if incoming.invalidateAll then .unknown Text row.columnId
  else if !incoming.boundsSafe then mergeFlags incoming row initializing
  else match mergeBounds tbl incoming row with
    | none => mergeFlags incoming row initializing
    | some merged =>
      { mergeFlags incoming row initializing with
        min := if initializing || row.min.isSome then merged.min else none
        max := if initializing || row.max.isSome then merged.max else none }

/-! ## Preparing and applying -/

def findIncomingColumnStat (stats : List (NativeInlineColumnStat Datum Text)) (columnId : Nat) :
    Option (NativeInlineColumnStat Datum Text) := stats.find? (·.columnId == columnId)

variable {stats : List (NativeInlineColumnStat Datum Text)}

theorem findIncomingColumnStat_of_mem (hnd : (stats.map (·.columnId)).Nodup)
    {stat : NativeInlineColumnStat Datum Text} (h : stat ∈ stats) :
    findIncomingColumnStat stats stat.columnId = some stat := (find?_key hnd).mpr ⟨h, rfl⟩

@[simp] theorem mergeColumnStat_columnId (tbl : Table Datum Text) (stat : NativeInlineColumnStat Datum Text)
    (row : ColumnStatRow Text) (initializing : Bool) :
    (mergeColumnStat tbl stat row initializing).columnId = row.columnId := by
  unfold mergeColumnStat
  split
  · rfl
  · split
    · rfl
    · split <;> rfl

variable [DecidableEq Text]

def columnStatsChanged (m : MergedColumnStat Text) (row : ColumnStatRow Text) : Bool :=
  m.min != row.min || m.max != row.max || m.containsNull != row.containsNull || m.containsNan != row.containsNan ||
    row.extraStats.isSome

/-- One iteration of the loop of `PrepareMergedColumnStats`. -/
def prepareColumn (tbl : Table Datum Text) (incoming : Option (NativeInlineColumnStat Datum Text))
    (row : ColumnStatRow Text) (initializing : Bool) : MergedColumnStat Text :=
  let merged := match incoming with
    | none => MergedColumnStat.unknown Text row.columnId
    | some stat => mergeColumnStat tbl stat row initializing
  { merged with changed := columnStatsChanged merged row }

/-- `PrepareMergedColumnStats`: over the contribution when the table has no statistics, else over the stored rows. -/
def prepareMergedColumnStats (tbl : Table Datum Text) (stats : List (NativeInlineColumnStat Datum Text)) :
    Option (List (ColumnStatRow Text)) → List (MergedColumnStat Text)
  | none => stats.map fun stat => prepareColumn tbl (some stat) (emptyRow Text stat.columnId) true
  | some rows => rows.map fun row => prepareColumn tbl (findIncomingColumnStat stats row.columnId) row false

/-- The rows that an UPDATE of a publication finds. -/
def storedRows (tbl : Table Datum Text) : Option (List (ColumnStatRow Text)) → List (ColumnStatRow Text)
  | none => tbl.columns.map fun c => emptyRow Text c.columnId
  | some rows => rows

/-- The column statistics of one publication: `stored` is `none` before the table has a statistics row. -/
def publishColumnStats (tbl : Table Datum Text) (stored : Option (List (ColumnStatRow Text)))
    (stats : List (NativeInlineColumnStat Datum Text)) : Option (List (ColumnStatRow Text)) :=
  applyMergedColumnStats (storedRows tbl stored) (prepareMergedColumnStats tbl stats stored)

/-- The merge of a stored row with the batch's contribution. -/
def mergedRow (tbl : Table Datum Text) (stats : List (NativeInlineColumnStat Datum Text)) (initializing : Bool)
    (row : ColumnStatRow Text) : ColumnStatRow Text :=
  (prepareColumn tbl (findIncomingColumnStat stats row.columnId) row initializing).toRow

/-! ## The stored rows are the merged rows -/

@[simp] theorem prepareColumn_columnId (tbl : Table Datum Text) (incoming : Option (NativeInlineColumnStat Datum Text))
    (row : ColumnStatRow Text) (initializing : Bool) :
    (prepareColumn tbl incoming row initializing).columnId = row.columnId := by
  cases incoming with
  | none => rfl
  | some stat => exact mergeColumnStat_columnId tbl stat row initializing

variable {tbl : Table Datum Text}

theorem prepareColumn_unchanged {incoming : Option (NativeInlineColumnStat Datum Text)} {row : ColumnStatRow Text}
    {initializing : Bool} (h : (prepareColumn tbl incoming row initializing).changed = false) :
    (prepareColumn tbl incoming row initializing).toRow = row := by
  have hid := prepareColumn_columnId tbl incoming row initializing
  generalize hm : prepareColumn tbl incoming row initializing = m at h hid ⊢
  have hc : columnStatsChanged m row = false := by rw [← h, ← hm]; rfl
  simp only [columnStatsChanged, Bool.or_eq_false_iff, bne_eq_false_iff_eq, Option.isSome_eq_false_iff,
    Option.isNone_iff_eq_none] at hc
  obtain ⟨⟨⟨⟨hmin, hmax⟩, hnull⟩, hnan⟩, hextra⟩ := hc
  simp only [MergedColumnStat.toRow, hid, hmin, hmax, hnull, hnan, ← hextra]

/-- **The stored rows after a publication are the merged rows**, whether or not the update touched them. -/
theorem publish_eq {stored : Option (List (ColumnStatRow Text))}
    (hrows : ((storedRows tbl stored).map (·.columnId)).Nodup) (hnd : (stats.map (·.columnId)).Nodup)
    (hsub : ∀ stat ∈ stats, stat.columnId ∈ tbl.columns.map (·.columnId)) :
    publishColumnStats tbl stored stats =
      some ((storedRows tbl stored).map (mergedRow tbl stats stored.isNone)) := by
  have hentry : ∀ (incoming : Option (NativeInlineColumnStat Datum Text)) (row : ColumnStatRow Text) (init : Bool),
      (prepareColumn tbl incoming row init).toRow = if (prepareColumn tbl incoming row init).changed then
        (prepareColumn tbl incoming row init).toRow else row := by
    intro incoming row init
    split
    next => rfl
    next hc => exact prepareColumn_unchanged (by simpa using hc)
  cases stored with
  | none =>
    refine apply_eq hrows (by simpa [prepareMergedColumnStats, Function.comp_def, emptyRow] using hnd) ?_ ?_ ?_
    · intro m hm
      obtain ⟨stat, hstat, rfl⟩ := List.mem_map.mp hm
      simpa [storedRows, emptyRow] using hsub stat hstat
    · intro r hr m hm he
      obtain ⟨c, -, rfl⟩ := List.mem_map.mp hr
      obtain ⟨stat, hstat, rfl⟩ := List.mem_map.mp hm
      have hid : stat.columnId = c.columnId := by simpa [emptyRow] using he
      simp only [mergedRow, emptyRow, ← hid, findIncomingColumnStat_of_mem hnd hstat]
      exact hentry _ _ _
    · intro r hr hno
      obtain ⟨c, -, rfl⟩ := List.mem_map.mp hr
      have hfind : findIncomingColumnStat stats c.columnId = none := by
        refine List.find?_eq_none.mpr fun stat hstat he => hno ?_
        refine List.mem_map.mpr ⟨_, List.mem_map_of_mem hstat, ?_⟩
        simpa [emptyRow] using he
      simp only [mergedRow, emptyRow, hfind]
      rfl
  | some rows =>
    have hids : (prepareMergedColumnStats tbl stats (some rows)).map (·.columnId) = rows.map (·.columnId) := by
      simp [prepareMergedColumnStats, Function.comp_def]
    refine apply_eq hrows (hids ▸ hrows) (fun m hm => hids ▸ List.mem_map_of_mem hm) ?_ ?_
    · intro r hr m hm he
      obtain ⟨r', hr', rfl⟩ := List.mem_map.mp hm
      obtain rfl : r' = r := List.inj_on_of_nodup_map hrows hr' hr (by simpa using he)
      exact hentry _ _ _
    · intro r hr hno
      exact absurd (hids ▸ List.mem_map_of_mem hr) hno

end Merge

end PgDucklake.Stats
