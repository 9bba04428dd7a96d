import PgDucklake.Writer.Steps

/-!
# What a publication reads

A transaction that has written only rows reads the committed counters (`OnlyRows.read`), and when its table has no
statistics row the second query finds no row but its own (`OnlyRows.derive`). So the state it goes on with is that of the
latest snapshot, or some snapshot was committed since.
-/

namespace PgDucklake.Writer

open Lib

variable {base : Base} {s : Store} {b : Batch}

/-! ## Rows at consecutive ids -/

theorem rowsAt_add (t sv r snap n k : Nat) :
    rowsAt t sv r snap (n + k) = rowsAt t sv r snap n ++ rowsAt t sv (r + n) snap k := by
  simp [rowsAt, List.range_add, Function.comp_def, Nat.add_assoc]

theorem mem_rowsAt {t sv r snap n : Nat} {row : InlinedRow} (h : row ∈ rowsAt t sv r snap n) :
    row.tableId = t ∧ row.schemaVersion = sv ∧ row.beginSnapshot = snap ∧ r ≤ row.rowId ∧ row.rowId < r + n := by
  obtain ⟨i, hi, rfl⟩ := List.mem_map.mp h
  rw [List.mem_range] at hi
  exact ⟨rfl, rfl, rfl, Nat.le_add_right r i, by dsimp only; omega⟩

theorem Prewritten.owns (h : Prewritten s b) {v : Version InlinedRow} (hv : v ∈ s.catalog.inlined)
    (hx : v.xmin = b.ownerXid) : b.owns v = true ∧ b.inRelation v = true ∧ v.xmax = none := by
  have hm : v ∈ s.catalog.inlined.filter fun v => v.xmin == b.ownerXid :=
    List.mem_filter.mpr ⟨hv, by simpa using hx⟩
  rw [h.rows] at hm
  obtain ⟨row, hrow, rfl⟩ := List.mem_map.mp hm
  obtain ⟨ht, hsv, hsnap, hle, hlt⟩ := mem_rowsAt hrow
  simp [Batch.owns, Batch.inRelation, ht, hsv, hsnap, hle, hlt]

/-! ## The first query -/

theorem range'_last {lo n : Nat} {l : List SnapshotRow} (hl : l.map (·.snapshotId) = List.range' lo l.length)
    (hn : l.length = n) {r : SnapshotRow} (hr : r ∈ l) (hmax : ∀ r' ∈ l, r'.snapshotId ≤ r.snapshotId) :
    r.snapshotId = lo + n - 1 := by
  have hin : r.snapshotId ∈ List.range' lo n := by
    rw [← hn, ← hl]
    exact List.mem_map_of_mem hr
  have hpos : 0 < n := by rw [← hn]; exact List.length_pos_of_mem hr
  have hlast : lo + n - 1 ∈ List.range' lo n := by
    rw [List.mem_range'_1]
    omega
  rw [← hn, ← hl] at hlast
  obtain ⟨r', hr', he⟩ := List.mem_map.mp hlast
  have := hmax r' hr'
  rw [List.mem_range'_1] at hin
  omega

theorem find?_of_filter {α : Type} {p : α → Bool} {l l' : List α} (h : l.filter p = l') : l.find? p = l'.head? := by
  rw [← h, List.head?_filter]

/-- **A read before the claim finds the latest snapshot and the committed counters.** -/
theorem OnlyRows.read (h : OnlyRows s b) (hc : CommittedInv base s) {changesAfter : Nat} {st : PublicationState}
    (hr : readPublicationState s.catalog (s.sees b.ownerXid) b changesAfter = .ok st) :
    st.snapshotId = latest base s ∧ st.hasTableStats = touched base s.history b.tableId ∧
      (st.hasTableStats = true → Counters base s b.tableId st) := by
  have hsnap : view (s.sees b.ownerXid) s.catalog.snapshot = s.snapshots := view_untouched h.snapshot
  have hstats : view (s.sees b.ownerXid) s.catalog.tableStats = view s.isCommitted s.catalog.tableStats :=
    view_untouched h.tableStats
  have hfind := find?_of_filter (hc.stats b.tableId)
  unfold readPublicationState at hr
  rw [hsnap, hstats, hfind] at hr
  split at hr
  · cases hr
  · rename_i i row hmax
    split at hr
    · cases hr
    · obtain ⟨hrow, _, hle⟩ := maxBy_some hmax
      have hid := range'_last hc.contiguous rfl (List.mem_of_getElem? hrow) fun r' hr' => hle r' hr' rfl
      cases hr
      refine ⟨hid, ?_, fun hhas => ?_⟩
      · cases ht : touched base s.history b.tableId <;> simp [expectedStats, ht]
      · cases ht : touched base s.history b.tableId with
        | false => simp [expectedStats, ht] at hhas
        | true => exact ⟨by simp [expectedStats, ht], by simp [expectedStats, ht], by simp [expectedStats, ht]⟩

theorem latest_ge_first (hc : CommittedInv base s) : base.firstSnapshotId ≤ latest base s := by
  have := hc.nonempty
  unfold latest
  omega

/-! ## The second query -/

theorem OnlyRows.derive (h : OnlyRows s b) (hc : CommittedInv base s) (hpos : 0 < b.rowsInserted)
    (ht : touched base s.history b.tableId = false) : deriveNextRowId s.catalog (s.sees b.ownerXid) b = 0 := by
  have hnone : (s.catalog.inlined.filter fun v => v.visible (s.sees b.ownerXid) && b.inRelation v &&
      !(decide (0 < b.rowsInserted) && b.owns v)) = [] := by
    rw [List.filter_eq_nil_iff]
    intro v hv hvis
    simp only [Bool.and_eq_true, Bool.not_eq_true', Bool.and_eq_false_imp, decide_eq_true_eq] at hvis
    obtain ⟨⟨hvis, hrel⟩, hown⟩ := hvis
    by_cases hx : v.xmin = b.ownerXid
    · rw [(h.rows.owns hv hx).1] at hown
      exact absurd (hown hpos) (by simp)
    · -- a row of another transaction is committed, so the table would have statistics
      have hcom : v.visible s.isCommitted = true := visible_seenBy hvis hx
      have := hc.touched_of_row hv hcom
      have htab : v.data.tableId = b.tableId := by
        simpa using (Bool.and_eq_true_iff.mp hrel).1
      rw [htab, ht] at this
      cases this
  rw [deriveNextRowId, hnone]
  rfl

end PgDucklake.Writer
