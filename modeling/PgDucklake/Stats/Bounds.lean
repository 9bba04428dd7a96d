import PgDucklake.Stats.Merge

/-!
# Bounds of one column

What a batch contributes to a column (`contribution_find`), and that merging it keeps a stored row true of the column's
cells (`RowInv.merge`): a stored bound is the text of a value that no cell beats, and the flags `false` are true. A
batch may only contribute texts that DuckDB reads back as the values they were written from (`ReadsBack`), or refuses.
-/

namespace PgDucklake.Stats

open Lib Std

variable {Datum Text : Type} [Ord Text]

/-! ## Stored rows that are true -/

/-- The text `m` is a bound of the values `vs`: DuckDB's text of a value over which none of them wins. -/
def Bounds (t : ColumnType Datum Text) (wins : Ordering) (vs : List Datum) (m : Text) : Prop :=
  ∃ b, t.cast m = some b ∧ t.toText b = m ∧ ∀ v ∈ vs, t.cmp v b ≠ wins

/-- A stored row is true of the cells `cs` of its column. -/
structure RowInv (c : Column Datum Text) (cs : List (Option Datum)) (row : ColumnStatRow Text) : Prop where
  min : ∀ m, row.min = some m → Bounds c.type .lt (plain c cs) m
  max : ∀ m, row.max = some m → Bounds c.type .gt (plain c cs) m
  null : row.containsNull = some false → none ∉ cs
  nan : row.containsNan = some false → ∀ v ∈ present cs, c.type.isNan v = false

theorem RowInv.empty (c : Column Datum Text) (cs : List (Option Datum)) (id : Nat) : RowInv c cs (emptyRow Text id) := by
  constructor <;> intros <;> contradiction

variable {t : ColumnType Datum Text} {w : Ordering} {vs vs' : List Datum} {m' : Text}

/-- **The better of two bounds** bounds what both bound. -/
theorem mergeSide_bounds (hw : w = .lt ∨ w = .gt) {m : Text} (h : Bounds t w vs m) (h' : Bounds t w vs' m') :
    ∃ r, mergeSide t w (some m) (some m') = some (some r) ∧ Bounds t w (vs ++ vs') r := by
  have := t.trans
  obtain ⟨b, hb, hbm, hall⟩ := h
  obtain ⟨b', hb', hbm', hall'⟩ := h'
  -- both comparisons of `MergeStats` decide by the values
  have hmerge : mergeSide t w (some m) (some m') = some (some (if t.cmp b' b = w then m' else m)) := by
    cases hv : t.requiresValueComparison with
    | true => simp [mergeSide, hv, hb, hb']
    | false =>
      have hord := t.toText_order hv hb' hb
      rw [hbm, hbm'] at hord
      simp [mergeSide, hv, hord]
  refine ⟨_, hmerge, ?_⟩
  split
  next hwin =>
    refine ⟨b', hb', hbm', fun v hv => ?_⟩
    rcases List.mem_append.mp hv with hv | hv
    · exact not_wins_winner hw hwin (hall v hv)
    · exact hall' v hv
  next hlose =>
    refine ⟨b, hb, hbm, fun v hv => ?_⟩
    rcases List.mem_append.mp hv with hv | hv
    · exact hall v hv
    · exact not_wins_trans hw hlose (hall' v hv)

/-! ## The contribution of a batch -/

/-- The text in which a value would become a bound. -/
def boundText (c : Column Datum Text) (s : Session) (v : Datum) : Text :=
  if c.properties.valueCmp then c.type.output s.isoDates v else c.type.output s v

/-- DuckDB reads the text of a value back as that value, or refuses it. -/
def ReadsBack (c : Column Datum Text) (s : Session) (v : Datum) : Prop :=
  c.type.cast (boundText c s v) = none ∨ c.type.cast (boundText c s v) = some v

theorem castBound_bounds {c : Column Datum Text} {s : Session} {v : Datum} (hr : ReadsBack c s v)
    (hall : ∀ u ∈ vs, c.type.cmp u v ≠ w) : castBound c.type (some (boundText c s v)) = none ∨
      ∃ m, castBound c.type (some (boundText c s v)) = some (some m) ∧ Bounds c.type w vs m := by
  rcases hr with hr | hr
  · exact Or.inl (by simp [castBound, hr])
  · exact Or.inr ⟨c.type.toText v, by simp [castBound, hr], v, c.type.cast_toText hr, rfl, hall⟩

/-- One side of the bounds that `MergeColumnStat` writes: a bound of the old cells and the new. -/
theorem side_bounds (hw : w = .lt ∨ w = .gt) {old : Option Text} (hold : ∀ m, old = some m → Bounds t w vs m)
    (hnew : Bounds t w vs' m') :
    ∃ r, mergeSide t w old (some m') = some r ∧ ∀ m, r = some m → old.isSome = true ∧ Bounds t w (vs ++ vs') m := by
  cases old with
  | none => exact ⟨none, rfl, fun m hm => by cases hm⟩
  | some m =>
    obtain ⟨r, hr, hb⟩ := mergeSide_bounds hw (hold m rfl) hnew
    exact ⟨some r, hr, fun m hm => by cases hm; exact ⟨rfl, hb⟩⟩

section Contribution

variable {s : Session} {c : Column Datum Text} {cs : List (Option Datum)} {e : InlineColStatsEntry Datum Text}

variable {row : ColumnStatRow Text} {old : List (Option Datum)} {init : Bool}
  {stat : NativeInlineColumnStat Datum Text}

theorem RowInv.mergeFlags (hnull : stat.observedNull = e.observedNull) (hnan : stat.observedNan = e.observedNan)
    (hknown : stat.nanKnown = (e.floating && e.ready)) (h : Observed s c cs e) (hinit : init = true → old = [])
    (hrow : RowInv c old row) :
    RowInv c (old ++ cs) (Stats.mergeFlags stat row init).toRow where
  min m hm := by cases hm
  max m hm := by cases hm
  null hn := by
    simp only [MergedColumnStat.toRow, Stats.mergeFlags, Option.ite_none_right_eq_some, Option.some.injEq,
      Bool.or_eq_false_iff, Bool.or_eq_true] at hn
    obtain ⟨hk, hold, hnew⟩ := hn
    have hcs : none ∉ cs := by
      rw [hnull, h.null] at hnew
      intro hin
      exact absurd (List.any_eq_false.mp hnew none hin) (by simp)
    have hold : none ∉ old := by
      rcases hk with hk | hk
      · simp [hinit hk]
      · obtain ⟨b, hb⟩ := Option.isSome_iff_exists.mp hk
        rw [hb, Option.getD_some] at hold
        exact hrow.null (hold ▸ hb)
    exact fun hin => (List.mem_append.mp hin).elim hold hcs
  nan hn v hv := by
    simp only [MergedColumnStat.toRow, Stats.mergeFlags, Option.map_eq_some_iff, Bool.or_eq_false_iff] at hn
    obtain ⟨b, hb, rfl, hnew⟩ := hn
    rw [present_append] at hv
    rcases List.mem_append.mp hv with hv | hv
    · exact hrow.nan hb v hv
    · cases hvn : c.type.isNan v with
      | false => rfl
      | true =>
        -- a column with a NaN is a floating one, whose entry is ready
        have hfloat := c.floating_of_nan hvn
        have ht := tracked_of_floating hfloat
        have hready : (freshEntry c).ready = true := (Bool.and_eq_true_iff.mp ht).2
        rw [hknown, hnan, h.floating, h.ready, hfloat, hready, h.nan ht, Bool.true_and, Bool.true_and] at hnew
        exact absurd hvn (List.any_eq_false.mp hnew v hv)

variable [TransOrd Text]

theorem Observed.finalBounds (h : Observed s c cs e) (ht : tracked c = true) :
    (plain c cs = [] ∧ finalBounds s e = none) ∨
      ∃ lo ∈ plain c cs, ∃ hi ∈ plain c cs, finalBounds s e = some ⟨boundText c s lo, boundText c s hi⟩ ∧
        ∀ v ∈ plain c cs, c.type.cmp v lo ≠ .lt ∧ c.type.cmp v hi ≠ .gt := by
  have := c.type.trans
  cases hv : c.properties.valueCmp with
  | true =>
    have hspan : Spans c.type.cmp (plain c cs) _ := spans_extremes _
    have hfinal : Stats.finalBounds s e = (extremes c.type.cmp (plain c cs)).map fun b =>
        ⟨boundText c s b.lo, boundText c s b.hi⟩ := by
      simp [Stats.finalBounds, h.valueCmp, hv, h.values ht hv, h.column, boundText]
    cases hx : extremes c.type.cmp (plain c cs) with
    | none => exact Or.inl ⟨by rwa [hx] at hspan, by rw [hfinal, hx]; rfl⟩
    | some b =>
      rw [hx] at hspan
      obtain ⟨hlo, hhi, hall⟩ := hspan
      refine Or.inr ⟨b.lo, hlo, b.hi, hhi, by rw [hfinal, hx]; rfl, fun v hv => ?_⟩
      exact ⟨not_lt_of_isLE (hall v hv).1, not_gt_of_isLE (hall v hv).2⟩
  | false =>
    have hspan : Spans compare ((plain c cs).map (c.type.output s)) _ := spans_extremes _
    have hrvc : c.type.requiresValueComparison = false := (valueCmp_of_tracked ht).symm.trans hv
    have hfinal : Stats.finalBounds s e = extremes compare ((plain c cs).map (c.type.output s)) := by
      simp [Stats.finalBounds, h.valueCmp, hv, h.texts ht hv]
    cases hx : extremes compare ((plain c cs).map (c.type.output s)) with
    | none =>
      rw [hx] at hspan
      exact Or.inl ⟨List.map_eq_nil_iff.mp hspan, by rw [hfinal, hx]⟩
    | some b =>
      rw [hx] at hspan
      obtain ⟨hlo, hhi, hall⟩ := hspan
      obtain ⟨lo, hlo, hlo'⟩ := List.mem_map.mp hlo
      obtain ⟨hi, hhi, hhi'⟩ := List.mem_map.mp hhi
      refine Or.inr ⟨lo, hlo, hi, hhi, ?_, fun v hv => ?_⟩
      · rw [hfinal, hx]
        simp [boundText, hv, hlo', hhi']
      · have hb := hall _ (List.mem_map_of_mem hv)
        rw [← hlo', ← hhi', c.type.output_order hrvc, c.type.output_order hrvc] at hb
        exact ⟨not_lt_of_isLE hb.1, not_gt_of_isLE hb.2⟩

variable {tbl : Table Datum Text}

/-- **The merged bounds** are bounds of the old cells and the new, where they are kept. -/
theorem mergeBounds_bounds {merged : DuckLakeColumnStats Text} (htype : stat.type = c.type)
    (hmin : stat.min = (finalBounds s e).map (·.lo)) (hmax : stat.max = (finalBounds s e).map (·.hi))
    (h : Observed s c cs e) (ht : tracked c = true) (hinit : init = true → old = []) (hrow : RowInv c old row)
    (hread : ∀ v ∈ plain c cs, ReadsBack c s v) (hm : mergeBounds tbl stat row = some merged) :
    (∀ m, merged.min = some m → init = true ∨ row.min.isSome = true → Bounds c.type .lt (plain c (old ++ cs)) m) ∧
      ∀ m, merged.max = some m → init = true ∨ row.max.isSome = true → Bounds c.type .gt (plain c (old ++ cs)) m := by
  have hplain : plain c (old ++ cs) = plain c old ++ plain c cs := by
    simp [plain, present_append]
  rw [hplain]
  rcases h.finalBounds ht with ⟨hnil, hfb⟩ | ⟨lo, hlo, hi, hhi, hfb, hall⟩
  · -- no value in the batch: the stored bounds stay
    simp only [mergeBounds, hmin, hmax, hfb, Option.map_none, castBound, Option.bind_eq_bind, Option.bind_some,
      Option.isSome_none, Bool.or_self, mergeStats, Bool.not_false, ↓reduceIte, Option.some.injEq] at hm
    rw [← hm, hnil, List.append_nil]
    exact ⟨fun m hm _ => hrow.min m hm, fun m hm _ => hrow.max m hm⟩
  · rcases castBound_bounds (hread lo hlo) (fun v hv => (hall v hv).1) with hcl | ⟨ml, hcl, hbl⟩
    · simp [mergeBounds, hmin, hfb, htype, hcl] at hm
    rcases castBound_bounds (hread hi hhi) (fun v hv => (hall v hv).2) with hch | ⟨mh, hch, hbh⟩
    · simp [mergeBounds, hmin, hmax, hfb, htype, hcl, hch] at hm
    simp only [mergeBounds, hmin, hmax, hfb, htype, Option.map_some, hcl, hch, Option.bind_eq_bind, Option.bind_some,
      Option.isSome_some, Bool.or_self, mergeStats, Bool.not_true, Bool.false_eq_true, ↓reduceIte] at hm
    split at hm
    next hinvalid =>
      -- no stored bound: only the first batch can seed one
      have hnone : ¬(row.min.isSome = true ∨ row.max.isSome = true) := fun hsome => by
        simp [tbl.anyValid_bound hsome] at hinvalid
      cases hm
      refine ⟨fun m hm hk => ?_, fun m hm hk => ?_⟩ <;> cases hm
      · rw [hinit (hk.resolve_right fun hs => hnone (Or.inl hs))]
        exact hbl
      · rw [hinit (hk.resolve_right fun hs => hnone (Or.inr hs))]
        exact hbh
    next =>
      obtain ⟨rl, hrl, hl⟩ := side_bounds (Or.inl rfl) hrow.min hbl
      obtain ⟨rh, hrh, hh⟩ := side_bounds (Or.inr rfl) hrow.max hbh
      simp only [hrl, hrh, Option.bind_some, Option.some.injEq] at hm
      rw [← hm]
      exact ⟨fun m hm _ => (hl m hm).2, fun m hm _ => (hh m hm).2⟩

/-- **Merging a batch** keeps a row true. -/
theorem RowInv.merge {n i : Nat} (hi : i < n) (h : Observed s c cs e) (hinit : init = true → old = [])
    (hrow : RowInv c old row) (hread : tracked c = true → ∀ v ∈ plain c cs, ReadsBack c s v) :
    RowInv c (old ++ cs) (mergeColumnStat tbl (finalizeEntry s n i e) row init).toRow := by
  have hflags : RowInv c (old ++ cs) (Stats.mergeFlags (finalizeEntry s n i e) row init).toRow :=
    .mergeFlags rfl rfl rfl h hinit hrow
  have hsafe : (finalizeEntry s n i e).boundsSafe = tracked c := by
    simp only [finalizeEntry, h.boundsSafe, h.ready, tracked]
  have hvalid : (finalizeEntry s n i e).invalidateAll = false := by simp [finalizeEntry, hi]
  unfold mergeColumnStat
  simp only [hvalid, hsafe, Bool.false_eq_true, ↓reduceIte]
  split
  next => exact hflags
  next ht =>
    split
    next => exact hflags
    next merged hm =>
      have ht : tracked c = true := by simpa using ht
      have htype : (finalizeEntry s n i e).type = c.type := congrArg Column.type h.column
      obtain ⟨hmin, hmax⟩ := mergeBounds_bounds htype rfl rfl h ht hinit hrow (hread ht) hm
      refine ⟨fun m hm => ?_, fun m hm => ?_, hflags.null, hflags.nan⟩
      · simp only [MergedColumnStat.toRow, Option.ite_none_right_eq_some, Bool.or_eq_true] at hm
        exact hmin m hm.2 hm.1
      · simp only [MergedColumnStat.toRow, Option.ite_none_right_eq_some, Bool.or_eq_true] at hm
        exact hmax m hm.2 hm.1

end Contribution

/-! ## The batch of a table -/

/-- A batch and the session that writes it. -/
structure Batch (Datum : Type) where
  session : Session
  rows : List (Row Datum)

def Table.contribution (tbl : Table Datum Text) (b : Batch Datum) : List (NativeInlineColumnStat Datum Text) :=
  Stats.contribution b.session tbl.columns tbl.numCols b.rows

section Columns

variable {tbl : Table Datum Text} {b : Batch Datum}

/-- The entry of a column after the batch: nested columns are never observed. -/
def observedEntry (tbl : Table Datum Text) (b : Batch Datum) (i : Nat) (c : Column Datum Text) :
    InlineColStatsEntry Datum Text :=
  if i < tbl.numCols then (cells b.rows i).foldl (observeCell b.session) (freshEntry c) else createEntry c

theorem contribution_eq (h : tbl.columns.countP (·.topLevel) = tbl.numCols) :
    tbl.contribution b = (ordered tbl.columns).mapIdx fun i c =>
      finalizeEntry b.session tbl.numCols i (observedEntry tbl b i c) := by
  have hsetup : setupColumns (createInlineColStats tbl.columns tbl.numCols) =
      ⟨tbl.numCols, (ordered tbl.columns).mapIdx fun i c =>
        if i < tbl.numCols then freshEntry c else createEntry c⟩ := by
    simp only [createInlineColStats, h, ↓reduceIte]
    rw [setupColumns, foldl_atColumn _ (fun _ => setupEntry) (Nat.le_refl _)]
    congr 1
    refine List.ext_getElem? fun i => ?_
    simp [Function.comp_def, freshEntry]
  simp only [Table.contribution, contribution, hsetup, observeRows_eq, finalizeInlineColStats, List.mapIdx_mapIdx]
  congr 1
  funext i c
  by_cases hi : i < tbl.numCols <;> simp [hi, observedEntry]

theorem contribution_nil (h : tbl.columns.countP (·.topLevel) ≠ tbl.numCols) : tbl.contribution b = [] := by
  simp [Table.contribution, contribution, createInlineColStats, h, setupColumns, foldl_atColumn _ _ (Nat.le_refl _),
    observeRows_eq, finalizeInlineColStats]

theorem ordered_perm (columns : List (Column Datum Text)) : (ordered columns).Perm columns :=
  List.filter_append_perm _ _

variable [TransOrd Text]

theorem observedEntry_column (i : Nat) (c : Column Datum Text) : (observedEntry tbl b i c).column = c := by
  unfold observedEntry
  split
  · exact (observed_cells b.session c _).column
  · rfl

theorem contribution_ids : (tbl.contribution b).map (·.columnId) = (ordered tbl.columns).map (·.columnId) ∨
    tbl.contribution b = [] := by
  by_cases h : tbl.columns.countP (·.topLevel) = tbl.numCols
  · refine Or.inl ?_
    rw [contribution_eq h]
    refine List.ext_getElem? fun i => ?_
    simp [Function.comp_def, finalizeEntry, observedEntry_column]
  · exact Or.inr (contribution_nil h)

theorem contribution_nodup : ((tbl.contribution b).map (·.columnId)).Nodup := by
  rcases (contribution_ids : _ ∨ tbl.contribution b = []) with h | h
  · rw [h]
    exact ((ordered_perm tbl.columns).map _).nodup_iff.mpr tbl.ids_nodup
  · simp [h]

theorem contribution_subset : ∀ stat ∈ tbl.contribution b, stat.columnId ∈ tbl.columns.map (·.columnId) := by
  intro stat hstat
  rcases (contribution_ids : _ ∨ tbl.contribution b = []) with h | h
  · have hin : stat.columnId ∈ (tbl.contribution b).map (·.columnId) := List.mem_map_of_mem hstat
    rw [h] at hin
    exact ((ordered_perm tbl.columns).map _).mem_iff.mp hin
  · simp [h] at hstat

theorem contribution_find {i : Nat} {c : Column Datum Text} (hc : (ordered tbl.columns)[i]? = some c) :
    findIncomingColumnStat (tbl.contribution b) c.columnId =
        some (finalizeEntry b.session tbl.numCols i (observedEntry tbl b i c)) ∨
      findIncomingColumnStat (tbl.contribution b) c.columnId = none := by
  by_cases h : tbl.columns.countP (·.topLevel) = tbl.numCols
  · refine Or.inl ?_
    have hmem : finalizeEntry b.session tbl.numCols i (observedEntry tbl b i c) ∈ tbl.contribution b := by
      refine List.mem_of_getElem? (i := i) ?_
      rw [contribution_eq h, List.getElem?_mapIdx, hc]
      rfl
    have hid : (finalizeEntry b.session tbl.numCols i (observedEntry tbl b i c)).columnId = c.columnId :=
      congrArg Column.columnId (observedEntry_column i c)
    exact hid ▸ findIncomingColumnStat_of_mem contribution_nodup hmem
  · exact Or.inr (by rw [contribution_nil h]; rfl)

end Columns

end PgDucklake.Stats
