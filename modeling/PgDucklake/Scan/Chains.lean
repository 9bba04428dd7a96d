import PgDucklake.Scan.Results

/-!
# Chains of projections over a scan

The pushdown looks through projections. Here is what such a chain returns (`chain_returns`), what an expression over it
stands for at the scan (`Plan.scanExpr`, `eval_chainRow`), and when the column that the pushdown resolves an order key
to is the column the key denotes (`KeySafe`, `KeyOf.cmp_eq`).
-/

namespace PgDucklake.Scan

open Lib Std

variable {V : Type}

/-! ## Rows of a chain -/

/-- The row that a chain makes of a tuple of its scan. -/
def Plan.chainRow : Plan V → (Nat → Option V) → Row V
  | .get g, t => g.row t
  | .projection tableIndex expressions child, t => projectRow tableIndex expressions (child.chainRow t)
  | _, _ => ⟨[], fun _ => none⟩

/-- The row that a chain makes of a row of its scan. -/
def Plan.rowOver (base : Row V) : Plan V → Row V
  | .projection tableIndex expressions child => projectRow tableIndex expressions (child.rowOver base)
  | _ => base

theorem chainRow_eq_rowOver {g : LogicalGet V} (t : Nat → Option V) : ∀ {c : Plan V},
    findUnderlyingGet c = some g → c.chainRow t = c.rowOver (g.row t)
  | .get _, hg => by
    cases hg
    rfl
  | .projection tableIndex expressions child, hg => by
    have ih := chainRow_eq_rowOver t (c := child) hg
    simp only [Plan.chainRow, Plan.rowOver, ih]

theorem chain_returns (sys : Engines V) {g : LogicalGet V} : ∀ {c : Plan V} {out : List (Row V)},
    findUnderlyingGet c = some g → (c.returns sys out ↔ ∃ q, g.constructTableScanQuery = some q ∧
      ∃ tuples, q.returns sys (g.rel.tuples.filter g.filter) tuples ∧ out = tuples.map c.chainRow)
  | .get _, out, h => by
    cases h
    exact Iff.rfl
  | .projection tableIndex expressions child, out, h => by
    have ih := @chain_returns sys g child
    constructor
    · rintro ⟨input, hin, rfl⟩
      obtain ⟨q, hq, tuples, ht, rfl⟩ := (ih h).mp hin
      exact ⟨q, hq, tuples, ht, List.map_map⟩
    · rintro ⟨q, hq, tuples, ht, rfl⟩
      exact ⟨tuples.map child.chainRow, (ih h).mpr ⟨q, hq, tuples, ht, rfl⟩, List.map_map.symm⟩

@[simp]
theorem findUnderlyingGet_withBindData (b : BindData) :
    ∀ c : Plan V, findUnderlyingGet (c.withBindData b) =
      (findUnderlyingGet c).map fun g => { g with bindData := b }
  | .get _ => rfl
  | .projection _ _ child => findUnderlyingGet_withBindData b child
  | .orderBy _ _ => rfl
  | .topN _ _ _ _ => rfl
  | .other _ _ => rfl

@[simp]
theorem chainRow_withBindData (b : BindData) : ∀ c : Plan V, (c.withBindData b).chainRow = c.chainRow
  | .get _ => rfl
  | .projection tableIndex expressions child => by
    funext t
    simp [Plan.withBindData, Plan.chainRow, chainRow_withBindData b child]
  | .orderBy _ _ => rfl
  | .topN _ _ _ _ => rfl
  | .other _ _ => rfl

/-! ## Expressions over a chain -/

/-- The expression over the scan that an expression stands for, through projections and ordering operators. -/
def Plan.scanExpr : Plan V → Expr V → Option (Expr V)
  | .get _, e => some e
  | .projection _ _ _, .other _ => none
  | .projection tableIndex expressions child, e => (throughProjection tableIndex expressions e).bind child.scanExpr
  | .orderBy _ child, e => child.scanExpr e
  | .topN _ _ _ child, e => child.scanExpr e
  | .other _ _, _ => none

variable {e : Expr V}

theorem eval_projectRow {tableIndex : Nat} {expressions : List (Expr V)} {below : Expr V} {r : Row V}
    (href : ∀ f, e ≠ .other f) (h : throughProjection tableIndex expressions e = some below) :
    e.eval (projectRow tableIndex expressions r) = below.eval r := by
  cases e with
  | boundRef index =>
    have hget : expressions[index]? = some below := h
    simp [Expr.eval, projectRow, hget]
  | boundColumnRef binding =>
    simp only [throughProjection] at h
    by_cases ht : binding.tableIndex = tableIndex
    · rw [if_pos ht] at h
      simp [Expr.eval, projectRow, ht, h]
    · rw [if_neg ht] at h
      cases h
      simp [Expr.eval, projectRow, ht]
  | other f => exact absurd rfl (href f)

theorem eval_rowOver {g : LogicalGet V} {e' : Expr V} {base : Row V} : ∀ {c : Plan V} {e : Expr V},
    findUnderlyingGet c = some g → c.scanExpr e = some e' → e.eval (c.rowOver base) = e'.eval base
  | .get _, e, _, he => by
    cases he
    rfl
  | .projection tableIndex expressions child, e, hg, he => by
    have href : ∀ f, e ≠ .other f := by
      rintro f rfl
      cases he
    have hbind : (throughProjection tableIndex expressions e).bind child.scanExpr = some e' := by
      cases e with
      | other f => exact absurd rfl (href f)
      | boundRef _ => exact he
      | boundColumnRef _ => exact he
    obtain ⟨below, hb, hbelow⟩ := Option.bind_eq_some_iff.mp hbind
    have ih : below.eval (child.rowOver base) = e'.eval base := eval_rowOver hg hbelow
    rw [← ih]
    exact eval_projectRow href hb

variable {g : LogicalGet V} {t : Nat → Option V} {c : Plan V}

theorem eval_chainRow {e' : Expr V} (hg : findUnderlyingGet c = some g) (he : c.scanExpr e = some e') :
    e.eval (c.chainRow t) = e'.eval (g.row t) := by
  rw [chainRow_eq_rowOver t hg, eval_rowOver hg he]

theorem resolveColumnIndex_other (g : LogicalGet V) (f : Row V → Option V) :
    ∀ c : Plan V, resolveColumnIndex (.other f) g c = none
  | .get _ => rfl
  | .projection _ _ child => resolveColumnIndex_other g f child
  | .orderBy _ _ => rfl
  | .topN _ _ _ _ => rfl
  | .other _ _ => rfl

theorem resolveColumnIndex_scanExpr {g g' : LogicalGet V} {i : Nat} : ∀ {c : Plan V} {e : Expr V},
    findUnderlyingGet c = some g' → resolveColumnIndex e g c = some i →
      ∃ e', c.scanExpr e = some e' ∧ extractColumnIndex e' g = some i
  | .get _, e, _, h => ⟨e, rfl, h⟩
  | .projection tableIndex expressions child, e, hg, h => by
    cases hb : throughProjection tableIndex expressions e with
    | none => simp [resolveColumnIndex, hb] at h
    | some below =>
      simp only [resolveColumnIndex, hb] at h
      obtain ⟨e', he', hi⟩ := resolveColumnIndex_scanExpr (c := child) hg h
      cases e with
      | other f =>
        cases hb
        simp [resolveColumnIndex_other] at h
      | boundRef index => exact ⟨e', by simp [Plan.scanExpr, hb, he'], hi⟩
      | boundColumnRef binding => exact ⟨e', by simp [Plan.scanExpr, hb, he'], hi⟩

/-! ## Order keys -/

/-- The position of the scan's column list that a reference over the scan means. -/
def LogicalGet.position (g : LogicalGet V) : Expr V → Option Nat
  | .boundRef index => if g.projectionIds.isEmpty then some index else g.projectionIds[index]?
  | .boundColumnRef binding => if binding.tableIndex = g.tableIndex then some binding.columnIndex else none
  | .other _ => none

/-- The pushdown may take the key `n`, which stands for `e` at the scan: where `e` is a binding, the position it means
holds the table's column of that number (or the scan does not read that column); and PostgreSQL orders the column that
`e` means as DuckDB does. -/
structure KeySafe (sys : Engines V) (g : LogicalGet V) (n : BoundOrderByNode V) (e : Expr V) : Prop where
  straight : ∀ b, e = .boundColumnRef b → .column b.columnIndex false ∈ g.columnIds →
    g.columnIds[b.columnIndex]? = some (.column b.columnIndex false)
  direction : ∀ i, g.position e = some i →
    sys.duckDescending n.type = pgDescending n.type ∧
      sys.duckNullsFirst n.type n.nullOrder = pgNullsFirst n.type n.nullOrder
  agree : ∀ i column, g.position e = some i → g.column i = some column →
    ∀ s ∈ g.rel.tuples.filter g.filter, ∀ t ∈ g.rel.tuples.filter g.filter, ∀ a b, s column = some a →
      t column = some b → sys.pgCmp column a b = sys.duckCmp a b

/-- `k` is the key of the scan query that the pushdown makes of the order node `n`. -/
structure KeyOf (c : Plan V) (g : LogicalGet V) (n : BoundOrderByNode V) (k : ScanKey) : Prop where
  resolved : ∃ e i, c.scanExpr n.expression = some e ∧ extractColumnIndex e g = some i ∧
    g.columnIds[i]? = some (.column k.column false)
  orderType : k.orderType = n.type
  nullOrder : k.nullOrder = n.nullOrder

variable {sys : Engines V} {n : BoundOrderByNode V} {column : Nat}

theorem extractColumnIndex_position {i : Nat} (hsafe : KeySafe sys g n e) (h : extractColumnIndex e g = some i)
    (hcol : g.columnIds[i]? = some (.column column false)) :
    ∃ j, g.position e = some j ∧ g.column j = some column := by
  cases e with
  | boundRef index =>
    simp only [extractColumnIndex, Option.filter_eq_some_iff] at h
    exact ⟨i, h.1, by simp [LogicalGet.column, hcol]⟩
  | boundColumnRef binding =>
    simp only [extractColumnIndex] at h
    by_cases ht : binding.tableIndex = g.tableIndex
    · rw [if_neg (not_not_intro ht)] at h
      obtain ⟨hi, hid, -⟩ := List.findIdx?_eq_some_iff_getElem.mp h
      have heq : g.columnIds[i]? = some (.column binding.columnIndex false) := by
        rw [List.getElem?_eq_getElem hi, eq_of_beq hid]
      have hnum : column = binding.columnIndex := by
        rw [hcol] at heq
        cases heq
        rfl
      have hpos := hsafe.straight binding rfl (List.mem_of_getElem? heq)
      exact ⟨binding.columnIndex, by simp [LogicalGet.position, ht], by simp [LogicalGet.column, hpos, hnum]⟩
    · rw [if_pos ht] at h
      cases h
  | other f => cases h

theorem eval_row {j : Nat} (h : g.position e = some j) (hcol : g.column j = some column) (t : Nat → Option V) :
    e.eval (g.row t) = t column := by
  have hcell : g.cell t j = t column := by simp [LogicalGet.cell, hcol]
  cases e with
  | boundRef index =>
    simp only [LogicalGet.position] at h
    by_cases hp : g.projectionIds.isEmpty
    · rw [if_pos hp] at h
      cases h
      have hlt : j < g.columnIds.length := by
        by_contra hge
        simp [LogicalGet.column, List.getElem?_eq_none (Nat.le_of_not_lt hge)] at hcol
      simp [Expr.eval, LogicalGet.row, hp, hlt, hcell]
    · rw [if_neg hp] at h
      simp [Expr.eval, LogicalGet.row, hp, h, hcell]
  | boundColumnRef binding =>
    simp only [LogicalGet.position] at h
    by_cases ht : binding.tableIndex = g.tableIndex
    · rw [if_pos ht] at h
      cases h
      simp [Expr.eval, LogicalGet.row, ht, hcell]
    · rw [if_neg ht] at h
      cases h
  | other f => cases h

theorem nullCmp_congr {cmp cmp' : V → V → Ordering} {descending nullsFirst : Bool} {x y : Option V}
    (h : ∀ a b, x = some a → y = some b → cmp a b = cmp' a b ∧ cmp b a = cmp' b a) :
    nullCmp cmp descending nullsFirst x y = nullCmp cmp' descending nullsFirst x y := by
  cases x with
  | none => cases y <;> rfl
  | some a =>
    cases y with
    | none => rfl
    | some b =>
      obtain ⟨hab, hba⟩ := h a b rfl rfl
      simp [nullCmp, hab, hba]

theorem KeyOf.cmp_eq {k : ScanKey} (hk : KeyOf c g n k) (hg : findUnderlyingGet c = some g)
    (hsafe : ∀ e, c.scanExpr n.expression = some e → KeySafe sys g n e) {s : Nat → Option V}
    (hs : s ∈ g.rel.tuples.filter g.filter) (ht : t ∈ g.rel.tuples.filter g.filter) :
    n.cmp sys (c.chainRow s) (c.chainRow t) = k.cmp sys s t := by
  obtain ⟨e, i, he, hi, hcol⟩ := hk.resolved
  have hsafe := hsafe e he
  obtain ⟨j, hj, hjcol⟩ := extractColumnIndex_position hsafe hi hcol
  have hvalue : ∀ u, n.expression.eval (c.chainRow u) = u k.column := by
    intro u
    rw [eval_chainRow hg he]
    exact eval_row hj hjcol u
  obtain ⟨hdesc, hnulls⟩ := hsafe.direction j hj
  have hagree := hsafe.agree j k.column hj hjcol
  rw [BoundOrderByNode.cmp, ScanKey.cmp, hvalue, hvalue, hk.orderType, hk.nullOrder, hdesc, hnulls]
  refine nullCmp_congr ?_
  intro a b ha hb
  exact ⟨(hagree s hs t ht a b ha hb).symm, (hagree t ht s hs b a hb ha).symm⟩

end PgDucklake.Scan
