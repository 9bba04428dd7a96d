import PgDucklake.Lib.Extremes
import PgDucklake.Types
import Mathlib.Data.List.ReduceOption
import Mathlib.Tactic.Common

/-!
# Observing a batch

The accumulator of one native batch: an entry for every live column of the table, folded over the cells of the batch and
finalised to the batch's contribution. `observeRows_eq` says what the loops over rows and columns compute, and
`observed_cells` what one entry holds after its cells: whether a NULL or a NaN was among them, and the extremes of the
rest.
-/

namespace PgDucklake.Stats

open Lib Std

/-! ## Column types -/

inductive DateStyle where
  | postgres | iso | sql | german
  deriving DecidableEq, Repr

inductive DateOrder where
  | ymd | dmy | mdy
  deriving DecidableEq, Repr

/-- The settings of a session that output functions read. -/
structure Session where
  dateStyle : DateStyle
  dateOrder : DateOrder
  extraFloatDigits : Int
  deriving DecidableEq, Repr

/-- What `FinalizeInlineColStats` sets before it calls an output function. -/
def Session.isoDates (s : Session) : Session := { s with dateStyle := .iso, dateOrder := .ymd }

/-- What PostgreSQL, DuckDB and DuckLake know of a column's type. The laws are their documented behaviour: the comparison
is a total preorder, DuckDB reads its own text of a value back as that value, and a type that DuckLake compares as text
is ordered as its texts are. -/
structure ColumnType (Datum Text : Type) [Ord Text] where
  /-- `DuckLakeTypes::FromString` of the type's name; `none` when it throws. -/
  id : Option LogicalTypeId
  /-- `RequiresValueComparison`. -/
  requiresValueComparison : Bool
  isNan : Datum → Bool
  cmp : Datum → Datum → Ordering
  /-- PostgreSQL's output function. -/
  output : Session → Datum → Text
  /-- `Value(text).DefaultCastAs(type)`; `none` when it throws. -/
  cast : Text → Option Datum
  /-- `Value::ToString`. -/
  toText : Datum → Text
  trans : TransCmp cmp
  cast_toText : ∀ {m v}, cast m = some v → cast (toText v) = some v
  output_order : requiresValueComparison = false → ∀ s a b, compare (output s a) (output s b) = cmp a b
  toText_order : requiresValueComparison = false → ∀ {m m' a b}, cast m = some a → cast m' = some b →
    compare (toText a) (toText b) = cmp a b
  nan_floating : ∀ {v}, isNan v = true → id = some .float ∨ id = some .double

structure TypeProperties where
  boundsSafe : Bool
  valueCmp : Bool
  floating : Bool
  deriving DecidableEq, Repr

/-- `GetTypeProperties`: a name that DuckLake does not know leaves every property off. -/
def getTypeProperties (id : Option LogicalTypeId) (requiresValueComparison : Bool) : TypeProperties :=
  match id with
  | none => ⟨false, false, false⟩
  | some .float => ⟨true, requiresValueComparison, true⟩
  | some .double => ⟨true, requiresValueComparison, true⟩
  | some .timeTz => ⟨false, requiresValueComparison, false⟩
  | some .interval => ⟨false, requiresValueComparison, false⟩
  | some .blob => ⟨false, requiresValueComparison, false⟩
  | some .variant => ⟨false, requiresValueComparison, false⟩
  | some .other => ⟨false, requiresValueComparison, false⟩
  | some _ => ⟨true, requiresValueComparison, false⟩

/-- The PostgreSQL type a column's values come in, as far as `IsNaN` looks at it. -/
inductive SourceType where
  | float4 | float8 | other
  deriving DecidableEq, Repr

/-- A live column of the table, and the PostgreSQL type its values come in. -/
structure Column (Datum Text : Type) [Ord Text] where
  columnId : Nat
  type : ColumnType Datum Text
  /-- `parent_column IS NULL`. -/
  topLevel : Bool
  sourceType : SourceType
  /-- The source type has a btree comparison function. -/
  hasCompare : Bool
  /-- Values of a floating column come as floats, which have a comparison: the target list coerces them. -/
  float_source : (getTypeProperties type.id type.requiresValueComparison).floating = true →
    (sourceType = .float4 ∨ sourceType = .float8) ∧ hasCompare = true

section Entries

variable {Datum Text : Type} [Ord Text]

def Column.properties (c : Column Datum Text) : TypeProperties :=
  getTypeProperties c.type.id c.type.requiresValueComparison

/-! ## Entries -/

/-- `InlineColStatsEntry`. The source's `has_value` says that one of the two pairs is set: `min_value`, `max_value` of a
type compared by value, `min_text`, `max_text` of one compared by text. -/
structure InlineColStatsEntry (Datum Text : Type) [Ord Text] where
  column : Column Datum Text
  boundsSafe : Bool
  valueCmp : Bool
  floating : Bool
  ready : Bool
  observedNull : Bool
  observedNan : Bool
  values : Option (Extremes Datum)
  texts : Option (Extremes Text)

structure InlineColStats (Datum Text : Type) [Ord Text] where
  sourceCount : Nat
  entries : List (InlineColStatsEntry Datum Text)

/-- An entry as `CreateInlineColStats` leaves it. -/
def createEntry (c : Column Datum Text) : InlineColStatsEntry Datum Text where
  column := c
  boundsSafe := c.properties.boundsSafe
  valueCmp := c.properties.valueCmp
  floating := c.properties.floating
  ready := false
  observedNull := false
  observedNan := false
  values := none
  texts := none

/-- The order of the metadata query: top-level columns first. -/
def ordered (columns : List (Column Datum Text)) : List (Column Datum Text) :=
  columns.filter (·.topLevel) ++ columns.filter (!·.topLevel)

/-- `CreateInlineColStats`: no entries when the source has another number of columns. -/
def createInlineColStats (columns : List (Column Datum Text)) (numCols : Nat) : InlineColStats Datum Text :=
  if columns.countP (·.topLevel) = numCols then ⟨numCols, (ordered columns).map createEntry⟩ else ⟨numCols, []⟩

/-- A change of one entry, under the check that every entry point makes. -/
def InlineColStats.atColumn (stats : InlineColStats Datum Text) (column : Nat)
    (f : InlineColStatsEntry Datum Text → InlineColStatsEntry Datum Text) : InlineColStats Datum Text :=
  if column < stats.sourceCount ∧ column < stats.entries.length then
    { stats with entries := stats.entries.modify column f }
  else stats

/-- `SetupInlineColStatsColumn` on the column's entry. -/
def setupEntry (e : InlineColStatsEntry Datum Text) : InlineColStatsEntry Datum Text :=
  if !e.boundsSafe then e
  else if e.valueCmp && !e.column.hasCompare then { e with boundsSafe := false }
  else { e with ready := true }

def isNaN (e : InlineColStatsEntry Datum Text) (v : Datum) : Bool :=
  e.floating && (e.column.sourceType == .float4 || e.column.sourceType == .float8) && e.column.type.isNan v

/-- `ObserveInlineColStatsDatum` on the column's entry. -/
def observeDatum (s : Session) (e : InlineColStatsEntry Datum Text) (v : Datum) : InlineColStatsEntry Datum Text :=
  if !e.boundsSafe || !e.ready then e
  else if isNaN e v then { e with observedNan := true }
  else if e.valueCmp then { e with values := widen e.column.type.cmp e.values v }
  else { e with texts := widenElse compare e.texts (e.column.type.output s v) }

/-- `ObserveInlineColStatsNull` on the column's entry. -/
def observeNull (e : InlineColStatsEntry Datum Text) : InlineColStatsEntry Datum Text := { e with observedNull := true }

/-! ## The loops -/

/-- A row of the batch: its cell in each source column, `none` for NULL. -/
abbrev Row (Datum : Type) := Nat → Option Datum

def observeCell (s : Session) (e : InlineColStatsEntry Datum Text) : Option Datum → InlineColStatsEntry Datum Text
  | none => observeNull e
  | some v => observeDatum s e v

/-- The loop over the source columns of one row. -/
def observeRow (s : Session) (stats : InlineColStats Datum Text) (row : Row Datum) : InlineColStats Datum Text :=
  (List.range stats.sourceCount).foldl (fun st i => st.atColumn i fun e => observeCell s e (row i)) stats

/-- The loop that sets the columns up. -/
def setupColumns (stats : InlineColStats Datum Text) : InlineColStats Datum Text :=
  (List.range stats.sourceCount).foldl (fun st i => st.atColumn i setupEntry) stats

/-- The loop over the rows. -/
def observeRows (s : Session) (stats : InlineColStats Datum Text) (rows : List (Row Datum)) :
    InlineColStats Datum Text := rows.foldl (observeRow s) stats

/-! ## The contribution -/

/-- `NativeInlineColumnStat`; a bound that is absent is `none`. -/
structure NativeInlineColumnStat (Datum Text : Type) [Ord Text] where
  columnId : Nat
  type : ColumnType Datum Text
  invalidateAll : Bool
  boundsSafe : Bool
  min : Option Text
  max : Option Text
  observedNull : Bool
  nanKnown : Bool
  observedNan : Bool

/-- The texts of an entry's bounds: those of values are written with ISO dates. -/
def finalBounds (s : Session) (e : InlineColStatsEntry Datum Text) : Option (Extremes Text) :=
  if e.valueCmp then
    e.values.map fun b => ⟨e.column.type.output s.isoDates b.lo, e.column.type.output s.isoDates b.hi⟩
  else e.texts

def finalizeEntry (s : Session) (sourceCount : Nat) (i : Nat) (e : InlineColStatsEntry Datum Text) :
    NativeInlineColumnStat Datum Text where
  columnId := e.column.columnId
  type := e.column.type
  invalidateAll := decide (sourceCount ≤ i)
  boundsSafe := e.boundsSafe && e.ready
  min := (finalBounds s e).map (·.lo)
  max := (finalBounds s e).map (·.hi)
  observedNull := e.observedNull
  nanKnown := e.floating && e.ready
  observedNan := e.observedNan

/-- `FinalizeInlineColStats`. -/
def finalizeInlineColStats (s : Session) (stats : InlineColStats Datum Text) :
    List (NativeInlineColumnStat Datum Text) := stats.entries.mapIdx (finalizeEntry s stats.sourceCount)

/-- The contribution of a batch: create, set up, observe, finalise. -/
def contribution (s : Session) (columns : List (Column Datum Text)) (numCols : Nat) (rows : List (Row Datum)) :
    List (NativeInlineColumnStat Datum Text) :=
  finalizeInlineColStats s (observeRows s (setupColumns (createInlineColStats columns numCols)) rows)

/-! ## What the loops compute -/

theorem mapIdx_keep {α : Type} (l : List α) : l.mapIdx (fun _ e => e) = l :=
  List.ext_getElem? fun i => by simp

/-- A loop over the first `k` columns changes each of their entries once. -/
theorem foldl_atColumn (stats : InlineColStats Datum Text)
    (f : Nat → InlineColStatsEntry Datum Text → InlineColStatsEntry Datum Text) {k : Nat} (hk : k ≤ stats.sourceCount) :
    (List.range k).foldl (fun st i => st.atColumn i (f i)) stats =
      { stats with entries := stats.entries.mapIdx fun i e => if i < k then f i e else e } := by
  induction k with
  | zero => simp [mapIdx_keep]
  | succ k ih =>
    rw [List.range_succ, List.foldl_append, ih (by omega)]
    simp only [List.foldl_cons, List.foldl_nil, InlineColStats.atColumn, List.length_mapIdx]
    split
    next =>
      congr 1
      apply List.ext_getElem?
      intro i
      simp only [List.getElem?_modify, List.getElem?_mapIdx, Option.map_eq_map, Option.map_map]
      congr 1
      funext e
      rcases Nat.lt_trichotomy i k with hi | rfl | hi
      · simp [hi, Nat.lt_succ_of_lt hi, (Nat.ne_of_lt hi).symm]
      · simp
      · simp [Nat.not_lt_of_gt hi, Nat.ne_of_lt hi, show ¬i < k + 1 by omega]
    next hlen =>
      congr 1
      apply List.ext_getElem?
      intro i
      simp only [List.getElem?_mapIdx]
      by_cases hi : i < stats.entries.length
      · congr 1
        funext e
        have hik : i ≠ k := by omega
        simp [show i < k + 1 ↔ i < k by omega]
      · simp [List.getElem?_eq_none (Nat.le_of_not_lt hi)]

theorem observeRow_eq (s : Session) (stats : InlineColStats Datum Text) (row : Row Datum) :
    observeRow s stats row = { stats with
      entries := stats.entries.mapIdx fun i e => if i < stats.sourceCount then observeCell s e (row i) else e } :=
  foldl_atColumn stats (fun i e => observeCell s e (row i)) (Nat.le_refl _)

/-- The cells of one source column. -/
def cells (rows : List (Row Datum)) (i : Nat) : List (Option Datum) := rows.map (· i)

/-- **The loops over rows and columns** fold every column's cells into its entry. -/
theorem observeRows_eq (s : Session) (stats : InlineColStats Datum Text) (rows : List (Row Datum)) :
    observeRows s stats rows = { stats with
      entries := stats.entries.mapIdx fun i e =>
        if i < stats.sourceCount then (cells rows i).foldl (observeCell s) e else e } := by
  induction rows generalizing stats with
  | nil => simp [observeRows, cells, mapIdx_keep]
  | cons row rows ih =>
    rw [observeRows, List.foldl_cons, ← observeRows, observeRow_eq, ih]
    congr 1
    simp only [List.mapIdx_mapIdx]
    congr 1
    funext i e
    by_cases hi : i < stats.sourceCount <;> simp [hi, cells]

/-! ## What an entry holds -/

/-- A top-level column's entry after the set-up. -/
def freshEntry (c : Column Datum Text) : InlineColStatsEntry Datum Text := setupEntry (createEntry c)

/-- The values of a column's cells. -/
def present (cs : List (Option Datum)) : List Datum := cs.reduceOption

theorem present_append (cs cs' : List (Option Datum)) : present (cs ++ cs') = present cs ++ present cs' :=
  List.reduceOption_append cs cs'

/-- The values that bounds are about. -/
def plain (c : Column Datum Text) (cs : List (Option Datum)) : List Datum :=
  (present cs).filter fun v => !c.type.isNan v

/-- An entry whose bounds are maintained. -/
def tracked (c : Column Datum Text) : Bool := (freshEntry c).boundsSafe && (freshEntry c).ready

theorem Column.floating_of_nan (c : Column Datum Text) {v : Datum} (h : c.type.isNan v = true) :
    c.properties.floating = true := by
  rcases c.type.nan_floating h with h | h <;> simp [Column.properties, getTypeProperties, h]

theorem tracked_of_floating {c : Column Datum Text} (h : c.properties.floating = true) : tracked c = true := by
  have hsafe : c.properties.boundsSafe = true := by
    unfold Column.properties getTypeProperties at h ⊢
    split at h <;> simp_all
  have hcmp := (c.float_source h).2
  simp [tracked, freshEntry, setupEntry, createEntry, hsafe, hcmp]

theorem valueCmp_of_tracked {c : Column Datum Text} (h : tracked c = true) :
    c.properties.valueCmp = c.type.requiresValueComparison := by
  have hsafe : c.properties.boundsSafe = true := by
    cases hs : c.properties.boundsSafe with
    | true => rfl
    | false => simp [tracked, freshEntry, setupEntry, createEntry, hs] at h
  unfold Column.properties getTypeProperties at hsafe ⊢
  split at hsafe <;> simp_all

theorem isNaN_iff {e : InlineColStatsEntry Datum Text} {c : Column Datum Text} (hc : e.column = c)
    (hf : e.floating = c.properties.floating) (v : Datum) : isNaN e v = c.type.isNan v := by
  cases hn : c.type.isNan v with
  | false => simp [isNaN, hc, hn]
  | true =>
    have hfloat := c.floating_of_nan hn
    have hsource := (c.float_source hfloat).1
    simp [isNaN, hc, hf, hn, hfloat, hsource]

/-- The entry of column `c` after the cells `cs`. -/
structure Observed (s : Session) (c : Column Datum Text) (cs : List (Option Datum))
    (e : InlineColStatsEntry Datum Text) : Prop where
  column : e.column = c
  boundsSafe : e.boundsSafe = (freshEntry c).boundsSafe
  valueCmp : e.valueCmp = c.properties.valueCmp
  floating : e.floating = c.properties.floating
  ready : e.ready = (freshEntry c).ready
  null : e.observedNull = cs.any (·.isNone)
  nan : tracked c = true → e.observedNan = (present cs).any c.type.isNan
  values : tracked c = true → c.properties.valueCmp = true → e.values = extremes c.type.cmp (plain c cs)
  texts : tracked c = true → c.properties.valueCmp = false →
    e.texts = extremes compare ((plain c cs).map (c.type.output s))

theorem Observed.fresh (s : Session) (c : Column Datum Text) : Observed s c [] (freshEntry c) := by
  have hset : ∀ e : InlineColStatsEntry Datum Text, (setupEntry e).column = e.column ∧
      (setupEntry e).valueCmp = e.valueCmp ∧ (setupEntry e).floating = e.floating ∧
      (setupEntry e).observedNull = e.observedNull ∧ (setupEntry e).observedNan = e.observedNan ∧
      (setupEntry e).values = e.values ∧ (setupEntry e).texts = e.texts := by
    intro e
    unfold setupEntry
    split
    · simp
    · split <;> simp
  obtain ⟨h₁, h₂, h₃, h₄, h₅, h₆, h₇⟩ := hset (createEntry c)
  exact ⟨h₁, rfl, h₂, h₃, rfl, h₄, fun _ => h₅, fun _ _ => h₆, fun _ _ => h₇⟩

/-- **One more cell.** -/
theorem Observed.cell [TransOrd Text] {s : Session} {c : Column Datum Text} {cs : List (Option Datum)}
    {e : InlineColStatsEntry Datum Text} (h : Observed s c cs e) (x : Option Datum) :
    Observed s c (cs ++ [x]) (observeCell s e x) := by
  cases x with
  | none =>
    have hp : present (cs ++ [none]) = present cs := by rw [present_append]; exact List.append_nil _
    refine ⟨h.column, h.boundsSafe, h.valueCmp, h.floating, h.ready, by simp [observeCell, observeNull], ?_, ?_, ?_⟩
    · rw [hp]; exact h.nan
    · rw [plain, hp]; exact h.values
    · rw [plain, hp]; exact h.texts
  | some v =>
    have hp : present (cs ++ [some v]) = present cs ++ [v] := present_append cs [some v]
    have htr : (!e.boundsSafe || !e.ready) = !tracked c := by rw [h.boundsSafe, h.ready, tracked, Bool.not_and]
    have hnull : (cs ++ [some v]).any (·.isNone) = e.observedNull := by rw [h.null]; simp
    simp only [observeCell, observeDatum, htr, isNaN_iff h.column h.floating]
    cases ht : tracked c with
    | false =>
      exact ⟨h.column, h.boundsSafe, h.valueCmp, h.floating, h.ready, hnull.symm, fun hf => by simp [ht] at hf,
        fun hf => by simp [ht] at hf, fun hf => by simp [ht] at hf⟩
    | true =>
      cases hn : c.type.isNan v with
      | true =>
        have hpl : plain c (cs ++ [some v]) = plain c cs := by simp [plain, hp, hn]
        refine ⟨h.column, h.boundsSafe, h.valueCmp, h.floating, h.ready, hnull.symm, fun _ => ?_, ?_, ?_⟩
        · simp [hp, hn]
        · rw [hpl]; exact h.values
        · rw [hpl]; exact h.texts
      | false =>
        have hpl : plain c (cs ++ [some v]) = plain c cs ++ [v] := by simp [plain, hp, hn]
        have hnan : (present (cs ++ [some v])).any c.type.isNan = (present cs).any c.type.isNan := by simp [hp, hn]
        have := c.type.trans
        cases hv : c.properties.valueCmp with
        | true =>
          simp only [h.valueCmp, hv, Bool.not_true, Bool.false_eq_true, ↓reduceIte]
          refine ⟨h.column, h.boundsSafe, hv.symm, h.floating, h.ready, hnull.symm, fun _ => ?_, fun _ _ => ?_,
            fun _ hf => by simp [hv] at hf⟩
          · rw [hnan]; exact h.nan ht
          · rw [hpl, extremes_concat, ← h.values ht hv, ← h.column]
        | false =>
          simp only [h.valueCmp, hv, Bool.not_true, Bool.false_eq_true, ↓reduceIte]
          refine ⟨h.column, h.boundsSafe, hv.symm, h.floating, h.ready, hnull.symm, fun _ => ?_,
            fun _ hf => by simp [hv] at hf, fun _ _ => ?_⟩
          · rw [hnan]; exact h.nan ht
          · have hw : e.texts = _ := h.texts ht hv
            rw [hpl, List.map_append, List.map_singleton, extremes_concat, ← h.column]
            rw [hw, h.column, widenElse_eq (spans_extremes _)]

/-- **An entry after its cells.** -/
theorem observed_cells [TransOrd Text] (s : Session) (c : Column Datum Text) (cs : List (Option Datum)) :
    Observed s c cs (cs.foldl (observeCell s) (freshEntry c)) := by
  induction cs using List.reverseRecOn with
  | nil => exact Observed.fresh s c
  | append_singleton cs x ih =>
    rw [List.foldl_append]
    exact ih.cell x

end Entries

end PgDucklake.Stats
