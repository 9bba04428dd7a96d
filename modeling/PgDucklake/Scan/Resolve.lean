import PgDucklake.Scan.Chains

/-!
# Which column an order key means

The pushdown follows an order key through a stack of projections to a position of the scan's column list
(`resolveColumnIndex`). A reference by position is followed rightly. A binding is looked up as if it named a column of
the table, where it names a position of the column list. `resolves_right_iff` says when both are the same column.
-/

namespace PgDucklake.Scan

variable {V : Type}

/-- How the number of a binding to a scan is read: as a position of the column list, or as a position of the output,
which the projection list takes to one of the column list. -/
inductive BindingRule
  | columnIds
  | projectionIds
  deriving DecidableEq, Repr

/-- The position of the column list that a binding's number means. -/
def LogicalGet.bindingPosition (g : LogicalGet V) (k : Nat) : BindingRule → Option Nat
  | .columnIds => some k
  | .projectionIds => if g.projectionIds.isEmpty then some k else g.projectionIds[k]?

/-- The row that a scan passes on, with its bindings read by a rule. -/
def LogicalGet.rowBy (g : LogicalGet V) (rule : BindingRule) (t : Nat → Option V) : Row V where
  columns := (g.row t).columns
  lookup b := if b.tableIndex = g.tableIndex then (g.bindingPosition b.columnIndex rule).bind (g.cell t) else none

/-- At the top of the stack `c`, the expression has the value of a column of the table. -/
def Denotes (rule : BindingRule) (c : Plan V) (g : LogicalGet V) (e : Expr V) (column : Nat) : Prop :=
  ∀ t, e.eval (c.rowOver (g.rowBy rule t)) = t column

/-- A position that the expression is resolved to holds the column that it denotes. -/
def ResolvesRight (rule : BindingRule) (c : Plan V) (g : LogicalGet V) (e : Expr V) : Prop :=
  ∀ i, resolveColumnIndex e g c = some i → ∃ column, g.columnIds[i]? = some (.column column false) ∧
    Denotes rule c g e column

/-- The binding that the expression stands for at the scan, if it is one and the scan reads the table's column of that
number, has that column at the position that it means. -/
def Straight (rule : BindingRule) (c : Plan V) (g : LogicalGet V) (e : Expr V) : Prop :=
  ∀ b, c.scanExpr e = some (.boundColumnRef b) → b.tableIndex = g.tableIndex →
    .column b.columnIndex false ∈ g.columnIds → (g.bindingPosition b.columnIndex rule).bind g.column = some b.columnIndex

/-! ## The two kinds of references -/

theorem eval_boundRef {g : LogicalGet V} (rule : BindingRule) {index i : Nat}
    (h : extractColumnIndex (.boundRef index) g = some i) :
    ∃ column, g.columnIds[i]? = some (.column column false) ∧
      ∀ t, (Expr.boundRef index).eval (g.rowBy rule t) = t column := by
  simp only [extractColumnIndex, Option.filter_eq_some_iff] at h
  obtain ⟨hpos, hcolumn⟩ := h
  split at hcolumn
  · rename_i column hi
    refine ⟨column, hi, fun t => ?_⟩
    exact eval_row (e := .boundRef index) hpos (by simp [LogicalGet.column, hi]) t
  · cases hcolumn

theorem extract_boundColumnRef {g : LogicalGet V} {b : Binding} {i : Nat}
    (h : extractColumnIndex (.boundColumnRef b) g = some i) :
    b.tableIndex = g.tableIndex ∧ g.columnIds[i]? = some (.column b.columnIndex false) := by
  simp only [extractColumnIndex] at h
  split at h
  · cases h
  · rename_i ht
    obtain ⟨hi, hid, -⟩ := List.findIdx?_eq_some_iff_getElem.mp h
    exact ⟨not_not.mp ht, by rw [List.getElem?_eq_getElem hi, eq_of_beq hid]⟩

theorem extract_isSome {g : LogicalGet V} {b : Binding} (ht : b.tableIndex = g.tableIndex)
    (hmem : .column b.columnIndex false ∈ g.columnIds) : ∃ i, extractColumnIndex (.boundColumnRef b) g = some i := by
  simp only [extractColumnIndex, if_neg (not_not_intro ht)]
  cases hfind : g.columnIds.findIdx? fun id => id == .column b.columnIndex false with
  | some i => exact ⟨i, rfl⟩
  | none =>
    have hnone := List.findIdx?_eq_none_iff.mp hfind _ hmem
    simp at hnone

theorem resolveColumnIndex_eq {g g' : LogicalGet V} : ∀ {c : Plan V} {e e' : Expr V},
    findUnderlyingGet c = some g' → c.scanExpr e = some e' → resolveColumnIndex e g c = extractColumnIndex e' g
  | .get _, _, _, _, he => by
    cases he
    rfl
  | .projection tableIndex expressions child, e, e', hg, he => by
    have hbind : (throughProjection tableIndex expressions e).bind child.scanExpr = some e' := by
      cases e with
      | other f => cases he
      | boundRef _ => exact he
      | boundColumnRef _ => exact he
    obtain ⟨below, hb, hbelow⟩ := Option.bind_eq_some_iff.mp hbind
    have ih : resolveColumnIndex below g child = extractColumnIndex e' g := resolveColumnIndex_eq hg hbelow
    simp only [resolveColumnIndex, hb, ih]

/-! ## Right resolution -/

theorem eval_binding {g : LogicalGet V} {rule : BindingRule} {b : Binding} (ht : b.tableIndex = g.tableIndex)
    (t : Nat → Option V) : (Expr.boundColumnRef b).eval (g.rowBy rule t) =
      ((g.bindingPosition b.columnIndex rule).bind g.column).bind t := by
  simp only [Expr.eval, LogicalGet.rowBy, ht, if_true, Option.bind_assoc]
  rfl

theorem column_unique [Nonempty V] {found : Option Nat} {column : Nat}
    (h : ∀ t : Nat → Option V, found.bind t = t column) : found = some column := by
  obtain ⟨v⟩ := ‹Nonempty V›
  have hvalue := h fun k => if k = column then some v else none
  rw [if_pos rfl] at hvalue
  obtain ⟨k, hk, hv⟩ := Option.bind_eq_some_iff.mp hvalue
  by_cases heq : k = column
  · rw [hk, heq]
  · rw [if_neg heq] at hv
    cases hv

/-- An order key is resolved to the column that it denotes exactly if its binding, where it has one, names the same
column both ways. -/
theorem resolves_right_iff [Nonempty V] (rule : BindingRule) {c : Plan V} {g : LogicalGet V}
    (hg : findUnderlyingGet c = some g) (e : Expr V) : ResolvesRight rule c g e ↔ Straight rule c g e := by
  constructor
  · intro hright b hb ht hmem
    obtain ⟨i, hi⟩ := extract_isSome ht hmem
    obtain ⟨column, hcolumn, hdenotes⟩ := hright i (by rw [resolveColumnIndex_eq hg hb, hi])
    obtain ⟨-, hid⟩ := extract_boundColumnRef hi
    rw [hid] at hcolumn
    cases hcolumn
    refine column_unique (V := V) fun t => ?_
    rw [← eval_binding ht, ← hdenotes t, eval_rowOver hg hb]
  · intro hstraight i hi
    obtain ⟨e', he, hext⟩ := resolveColumnIndex_scanExpr hg hi
    cases e' with
    | boundRef index =>
      obtain ⟨column, hcolumn, hvalue⟩ := eval_boundRef rule hext
      exact ⟨column, hcolumn, fun t => by rw [eval_rowOver hg he, hvalue t]⟩
    | boundColumnRef b =>
      obtain ⟨ht, hid⟩ := extract_boundColumnRef hext
      have hposition := hstraight b he ht (List.mem_of_getElem? hid)
      refine ⟨b.columnIndex, hid, fun t => ?_⟩
      rw [eval_rowOver hg he, eval_binding ht, hposition]
      rfl
    | other f => cases hext

/-! ## A scan that reads its columns in another order -/

/-- `SELECT b FROM t(a, b) ORDER BY b`, where the filter on `a` is a column of the scan too. -/
def secondColumnFirst : LogicalGet Nat where
  tableIndex := 7
  columnIds := [.column 1 false, .column 0 false]
  projectionIds := []
  filter _ := true
  rel := ⟨[], []⟩
  bindData := {}

/-- The key is the scan's first column, which is `b`; it is resolved to `a`. -/
theorem first_column_misresolved :
    resolveColumnIndex (.boundColumnRef ⟨7, 0⟩) secondColumnFirst (.get secondColumnFirst) = some 1 ∧
      secondColumnFirst.columnIds[1]? = some (.column 0 false) ∧
      ∀ rule, Denotes rule (.get secondColumnFirst) secondColumnFirst (.boundColumnRef ⟨7, 0⟩) 1 ∧
        ¬ResolvesRight rule (.get secondColumnFirst) secondColumnFirst (.boundColumnRef ⟨7, 0⟩) := by
  have hresolved : resolveColumnIndex (.boundColumnRef ⟨7, 0⟩) secondColumnFirst (.get secondColumnFirst) = some 1 :=
    by decide
  have hdenotes : ∀ rule, Denotes rule (.get secondColumnFirst) secondColumnFirst (.boundColumnRef ⟨7, 0⟩) 1 := by
    intro rule t
    cases rule <;> rfl
  refine ⟨hresolved, rfl, fun rule => ⟨hdenotes rule, fun hright => ?_⟩⟩
  obtain ⟨column, hcolumn, hwrong⟩ := hright 1 hresolved
  cases hcolumn
  have hsame := (hdenotes rule fun k => some k).symm.trans (hwrong fun k => some k)
  cases hsame

/-- The other order of the columns is resolved rightly, through a projection. -/
theorem columns_in_order_resolved :
    ResolvesRight .columnIds
      (.projection 8 [.boundColumnRef ⟨7, 0⟩]
        (.get { secondColumnFirst with columnIds := [.column 0 false, .column 1 false] }))
      { secondColumnFirst with columnIds := [.column 0 false, .column 1 false] } (.boundColumnRef ⟨8, 0⟩) :=
  (resolves_right_iff .columnIds rfl _).mpr fun b hb _ _ => by
    cases hb
    rfl

end PgDucklake.Scan
