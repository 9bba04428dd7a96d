import Mathlib.Data.List.Forall2
import PgDucklake.Writer.Payload
import PgDucklake.Writer.Runs

/-!
# The protocol's rows with their columns

The protocol knows of a row its ids only. A heap with columns decorates the protocol's heap if it has the same versions and
ids; the columns may be any. Prewriting (`decorates_prewrite`, `recordChunk_eq`) and retagging (`decorates_retag`) keep
this, so what `Payload` says of rows with columns holds along the runs of the protocol: `Prewritten` there is `Prewritten`
here (`prewritten_of_protocol`). `retag_refines` is the retag of any run.
-/

namespace PgDucklake.Payload

open Lib Writer Relation

variable {γ : Type}

/-- The same version with columns. -/
structure Decorates (d : Version (Row γ)) (v : Version InlinedRow) : Prop where
  xmin : d.xmin = v.xmin
  cmin : d.cmin = v.cmin
  xmax : d.xmax = v.xmax
  tableId : d.data.tableId = v.data.tableId
  schemaVersion : d.data.schemaVersion = v.data.schemaVersion
  rowId : ∃ r : I64, d.data.rowId = some r ∧ r.val = v.data.rowId
  beginSnapshot : ∃ s : I64, d.data.beginSnapshot = some s ∧ s.val = v.data.beginSnapshot

section Rows

variable {b : Batch} {fs fr : Nat} {d : Version (Row γ)} {v : Version InlinedRow}

theorem Decorates.visible (h : Decorates d v) (sees : Nat → Bool) : d.visible sees = v.visible sees := by
  simp only [Version.visible, h.xmin, h.xmax]

theorem Decorates.inRelation (h : Decorates d v) : inRelation b d = b.inRelation v := by
  simp only [Payload.inRelation, Batch.inRelation, h.tableId, h.schemaVersion]

theorem Decorates.selected (h : Decorates d v) (hfits : Fits b fs fr) :
    selected b d = (b.inRelation v && b.owns v) := by
  obtain ⟨r, hr, hrow⟩ := h.rowId
  obtain ⟨s, hs, hsnapshot⟩ := h.beginSnapshot
  have hbegin : (s.val == (b.candidateSnapshotId : Int)) = (v.data.beginSnapshot == b.candidateSnapshotId) := by
    rw [hsnapshot, Bool.eq_iff_iff, beq_iff_eq, beq_iff_eq]
    omega
  have hfrom : decide ((b.candidateRowId : Int) ≤ r.val) = decide (b.candidateRowId ≤ v.data.rowId) := by
    rw [hrow, decide_eq_decide]
    omega
  have hto : decide (r.val < (u64Add b.candidateRowId b.rowsInserted : Int)) =
      decide (v.data.rowId < b.candidateRowId + b.rowsInserted) := by
    rw [hrow, u64Add_candidate hfits, decide_eq_decide]
    omega
  simp only [Payload.selected, Batch.owns, h.inRelation, h.xmin, h.cmin, hr, hs, Option.any_some, hbegin, hfrom, hto,
    Bool.and_assoc]

theorem Decorates.retagged {st : PublicationState} (h : Decorates d v) (hc : Candidate b d)
    (hfits : Fits b (finalSnapshotId st) (finalRowId st)) :
    Decorates { d with data := retagged b (finalSnapshotId st) (finalRowId st) d.data } (retagVersion b st v) := by
  obtain ⟨r, hr, hrow⟩ := h.rowId
  obtain ⟨q, k, hq, hk, hval, -⟩ := hc.rowId_toU64
  cases hr.symm.trans hq
  have hfinal := hfits.finalRows
  have hid : I64.ofInt? (finalRowId st + (r.val - b.candidateRowId)) = some (I64.ofU64 (finalRowId st + k)) := by
    refine I64.ofInt?_eq ?_
    rw [I64.val_ofU64 (by omega), hval]
    push_cast
    omega
  have hsnapshot : I64.ofInt? (finalSnapshotId st) = some (.ofU64 (finalSnapshotId st)) :=
    I64.ofInt?_eq (I64.val_ofU64 hfits.finalSnapshot)
  refine ⟨h.xmin, h.cmin, h.xmax, h.tableId, h.schemaVersion, ⟨.ofU64 (finalRowId st + k), ?_, ?_⟩,
    ⟨.ofU64 (finalSnapshotId st), ?_, ?_⟩⟩
  · simp only [Payload.retagged, hr, Option.bind_some, hid]
  · rw [I64.val_ofU64 (by omega)]
    simp only [retagVersion, retagRow]
    omega
  · simp only [Payload.retagged, hsnapshot]
  · rw [I64.val_ofU64 hfits.finalSnapshot]
    rfl

end Rows

/-! ## Prewriting -/

section Prewrite

variable {b : Batch} {heap : List (Version (Row γ))} {plain : List (Version InlinedRow)}

theorem decorates_prewrite (h : List.Forall₂ Decorates heap plain) (chunk : List γ)
    (hrows : b.candidateRowId + b.rowsInserted + chunk.length ≤ int64Max) (hsnapshot : b.candidateSnapshotId ≤ int64Max) :
    List.Forall₂ Decorates (prewriteChunk b chunk heap) (prewriteRows b chunk.length plain) := by
  refine List.rel_append h ?_
  rw [List.forall₂_iff_get]
  refine ⟨by simp [rowsAt], fun i h₁ h₂ => ?_⟩
  have hi : i < chunk.length := by simpa using h₁
  simp only [List.get_eq_getElem, List.getElem_map, List.getElem_zipIdx, rowsAt, List.getElem_range, Nat.zero_add]
  exact ⟨rfl, rfl, rfl, rfl, rfl, ⟨_, rfl, I64.val_ofU64 (by omega)⟩, ⟨_, rfl, I64.val_ofU64 hsnapshot⟩⟩

theorem recordChunk_eq (b : Batch) (pos count : Nat) : recordChunk b pos count = b.recordChunk pos count := by
  have hall : ((List.range count).map fun i => some (pos + i)).all (·.isSome) = true := by simp
  have hids : (((List.range count).map fun i => some (pos + i)).filterMap id) = (List.range count).map (pos + ·) := by
    simp [List.filterMap_map]
  simp only [recordChunk, Batch.recordChunk, recordNativeInlineWriteRows, Writer.recordNativeInlineWriteRows,
    List.length_map, hall, hids, if_true]

end Prewrite

/-! ## Retagging -/

section Retag

variable {s : Store} {b : Batch} {st : PublicationState} {heap : List (Version (Row γ))}

/-- Versions that belong together, and what the protocol knows of those of the batch. -/
structure Paired (b : Batch) (d : Version (Row γ)) (v : Version InlinedRow) : Prop where
  decorates : Decorates d v
  wrote : wrote b d = (v.xmin == b.ownerXid)
  candidate : Payload.wrote b d = true → Candidate b d ∧ d.xmax = none

theorem paired_of_decorates (hp : Writer.Prewritten s b) {d : Version (Row γ)} {v : Version InlinedRow}
    (hv : v ∈ s.catalog.inlined) (h : Decorates d v) : Paired b d v := by
  by_cases hx : v.xmin = b.ownerXid
  · obtain ⟨howns, hrel, hlive⟩ := hp.owns hv hx
    simp only [Batch.owns, Bool.and_eq_true, beq_iff_eq, decide_eq_true_eq] at howns
    obtain ⟨⟨⟨⟨-, hcmin⟩, hsnapshot⟩, hfrom⟩, hto⟩ := howns
    obtain ⟨r, hr, hrow⟩ := h.rowId
    obtain ⟨q, hq, hbegin⟩ := h.beginSnapshot
    have hwrote : Payload.wrote b d = true := wrote_iff.mpr ⟨h.xmin.trans hx, h.cmin.trans hcmin⟩
    refine ⟨h, ?_, fun _ => ⟨⟨h.inRelation.trans hrel, ⟨r, hr, by omega, by omega⟩, ⟨q, hq, ?_⟩⟩, h.xmax.trans hlive⟩⟩
    · rw [hwrote, hx, beq_self_eq_true]
    · rw [hbegin, hsnapshot]
  · have hnot : Payload.wrote b d = false := by simp [Payload.wrote, h.xmin, hx]
    refine ⟨h, ?_, fun hw => ?_⟩
    · rw [hnot, beq_eq_false_iff_ne.mpr hx]
    · rw [hnot] at hw
      cases hw

theorem paired_heap (hp : Writer.Prewritten s b) (h : List.Forall₂ Decorates heap s.catalog.inlined) :
    List.Forall₂ (Paired b) heap s.catalog.inlined := by
  rw [List.forall₂_iff_get] at h ⊢
  exact ⟨h.1, fun i h₁ h₂ => paired_of_decorates hp (List.get_mem _ _) (h.2 i h₁ h₂)⟩

theorem forall₂_getElem? {α β : Type} {R : α → β → Prop} {l : List α} {m : List β} (h : List.Forall₂ R l m) {i : Nat}
    {a : α} (ha : l[i]? = some a) : ∃ c, m[i]? = some c ∧ R a c := by
  induction h generalizing i with
  | nil => simp at ha
  | cons hr _ ih =>
    cases i with
    | zero =>
      cases ha
      exact ⟨_, rfl, hr⟩
    | succ i => exact ih ha

theorem prewritten_of_protocol (hp : Writer.Prewritten s b) (h : List.Forall₂ Decorates heap s.catalog.inlined) :
    Prewritten b heap := by
  have hpaired := paired_heap hp h
  refine ⟨fun d hd hw => ?_, ?_, fun ht => ?_⟩
  · obtain ⟨i, hi⟩ := List.getElem?_of_mem hd
    obtain ⟨v, -, hdv⟩ := forall₂_getElem? hpaired hi
    exact hdv.candidate hw
  · have hfilter : List.Forall₂ (Paired b) (heap.filter (wrote b))
        (s.catalog.inlined.filter fun v => v.xmin == b.ownerXid) :=
      List.rel_filter (fun d v hdv => Bool.eq_iff_iff.mp hdv.wrote) hpaired
    have hids : List.Forall₂ Eq ((heap.filter (wrote b)).map fun d => d.data.rowId.map I64.val)
        ((s.catalog.inlined.filter fun v => v.xmin == b.ownerXid).map fun v => some (v.data.rowId : Int)) := by
      refine List.rel_map (fun d v hdv => ?_) hfilter
      obtain ⟨r, hr, hrow⟩ := hdv.decorates.rowId
      rw [hr, Option.map_some, hrow]
    rw [List.forall₂_eq_eq_eq] at hids
    rw [hids, hp.rows, Batch.prewritten, rowsAt, List.map_map, List.map_map]
    exact .refl _
  · obtain ⟨hnodup, hpointers⟩ := hp.rowPointers_iff ht
    refine ⟨hnodup, fun i => (hpointers i).trans ⟨?_, fun hi => ?_⟩⟩
    · rintro ⟨v, hv, hx⟩
      obtain ⟨d, hd, hdv⟩ := forall₂_getElem? hpaired.flip hv
      rw [hd, Option.any_some, Paired.wrote hdv, hx, beq_self_eq_true]
    · obtain ⟨d, hd, hw⟩ := (Option.any_eq_true _ _).mp hi
      obtain ⟨v, hv, hdv⟩ := forall₂_getElem? hpaired hd
      rw [hdv.wrote, beq_iff_eq] at hw
      exact ⟨v, hv, hw⟩

theorem decorates_rewritten (hfits : Fits b (finalSnapshotId st) (finalRowId st)) {d : Version (Row γ)}
    {v : Version InlinedRow} (h : Paired b d v) :
    Decorates (rewritten b (finalSnapshotId st) (finalRowId st) d)
      (if v.xmin == b.ownerXid then retagVersion b st v else v) := by
  unfold rewritten
  rw [h.wrote]
  split
  · rename_i hx
    exact h.decorates.retagged (h.candidate (h.wrote.trans hx)).1 hfits
  · exact h.decorates

theorem decorates_update (hfits : Fits b (finalSnapshotId st) (finalRowId st)) (sees : Nat → Bool) (commandId : Nat)
    {plain : List (Version InlinedRow)} (h : List.Forall₂ (Paired b) heap plain) :
    List.Forall₂ Decorates
      (updateRows sees b.ownerXid commandId (selected b)
        (fun row => (assigned b (finalSnapshotId st) (finalRowId st) row).getD row) heap)
      (updateRows sees b.ownerXid commandId (fun v => b.inRelation v && b.owns v) (retagRow b st) plain) := by
  have hsame : ∀ {d : Version (Row γ)} {v : Version InlinedRow}, Paired b d v →
      (d.visible sees && selected b d) = (v.visible sees && (b.inRelation v && b.owns v)) := by
    intro d v hdv
    rw [hdv.decorates.visible, hdv.decorates.selected hfits]
  refine List.rel_append (List.rel_map (fun d v hdv => ?_) h) ?_
  · rw [hsame hdv]
    have hd := hdv.decorates
    split
    · exact ⟨hd.xmin, hd.cmin, rfl, hd.tableId, hd.schemaVersion, hd.rowId, hd.beginSnapshot⟩
    · exact hd
  · -- the new versions: each comes from a selected row, which is one of the batch
    have hfilter : List.Forall₂ (fun d v => Paired b d v ∧ wrote b d = true)
        (heap.filter fun d => d.visible sees && selected b d)
        (plain.filter fun v => v.visible sees && (b.inRelation v && b.owns v)) := by
      induction h with
      | nil => exact .nil
      | @cons d v _ _ hdv _ ih =>
        rw [List.filter_cons, List.filter_cons, hsame hdv]
        split
        · rename_i hsel
          rw [← hsame hdv, Bool.and_eq_true] at hsel
          exact .cons ⟨hdv, wrote_of_selected hsel.2⟩ ih
        · exact ih
    refine List.rel_map (fun d v hdv => ?_) hfilter
    obtain ⟨hdv, hw⟩ := hdv
    have hcandidate := (hdv.candidate hw).1
    have hd := hdv.decorates.retagged hcandidate hfits
    simp only [hcandidate.assigned_eq hfits, Option.getD_some]
    exact ⟨rfl, rfl, rfl, hd.tableId, hd.schemaVersion, hd.rowId, hd.beginSnapshot⟩

theorem decorates_retag (hp : Writer.Prewritten s b) (hfits : Fits b (finalSnapshotId st) (finalRowId st))
    (h : List.Forall₂ Decorates heap s.catalog.inlined) {supportsInplace : Bool} {commandId : Nat}
    {plain : List (Version InlinedRow)}
    (hr : Writer.retagPrewrittenRows (s.sees b.ownerXid) b st supportsInplace commandId s.catalog.inlined = .ok plain) :
    ∃ heap', retagPrewrittenRows (s.sees b.ownerXid) b (finalSnapshotId st) (finalRowId st) supportsInplace b.ownerXid commandId
      heap = .ok heap' ∧ List.Forall₂ Decorates heap' plain := by
  have hpaired := paired_heap hp h
  have hprewritten := prewritten_of_protocol hp h
  have hsees : s.sees b.ownerXid b.ownerXid = true := by simp [Store.sees]
  unfold Writer.retagPrewrittenRows at hr
  unfold retagPrewrittenRows
  split at hr
  · cases hr
  · rename_i hbound
    rw [if_neg hbound]
    split at hr
    · rename_i hpath
      have htracked : b.rowPointerTrackingEnabled = true := by
        simp only [Bool.and_eq_true] at hpath
        exact hpath.1.1
      rw [if_pos hpath, inplace_eq hprewritten hfits hsees htracked, Writer.retagInplace_eq hp htracked hr]
      exact ⟨_, rfl, List.rel_map (fun d v hdv => decorates_rewritten hfits hdv) hpaired⟩
    · rename_i hpath
      dsimp only at hr
      split at hr
      · cases hr
      · cases hr
        rw [if_neg hpath, update_eq hprewritten hfits hsees]
        exact ⟨_, rfl, decorates_update hfits _ commandId hpaired⟩

/-- **The retag of the code is the protocol's.** Where a run retags, the code retags the rows with their columns: they get
the protocol's ids, and every row of the batch keeps its columns. -/
theorem retag_refines {base : Base} {env : Env} {s₀ s t : State} {w commandId : Nat} {valid supportsInplace : Bool}
    (hstart : Start base s₀) (hrun : ReflTransGen (Step env) s₀ s) (hw : s.writers w = some ⟨b, .retag valid st⟩)
    (hstep : next env s (.retag w commandId supportsInplace) = some t)
    (hok : t.writers w = some ⟨b, .tableStats valid st⟩) (hfits : Fits b (finalSnapshotId st) (finalRowId st))
    (h : List.Forall₂ Decorates heap s.catalog.inlined) :
    ∃ heap', retagPrewrittenRows (s.sees b.ownerXid) b (finalSnapshotId st) (finalRowId st) supportsInplace b.ownerXid
        commandId heap = .ok heap' ∧ List.Forall₂ Decorates heap' t.catalog.inlined ∧
      ∀ v ∈ heap, wrote b v = true → ∃ v' ∈ heap', v'.xmax = none ∧
        v'.data = retagged b (finalSnapshotId st) (finalRowId st) v.data := by
  have hinv := run_invariant (fun u v hu huv => inv_step hu huv) hrun hstart.inv
  have hp : Writer.Prewritten s.toStore b := (hinv.phase w _ hw).2.1
  simp only [next, Action.writer, hw, Option.bind_some, writerStep] at hstep
  split at hstep
  · -- the protocol's retag failed
    cases hstep
    simp [State.setWriter] at hok
  · rename_i plain hplain
    cases hstep
    obtain ⟨heap', hretag, hheap⟩ := decorates_retag hp hfits h hplain
    refine ⟨heap', hretag, hheap, fun v hv hwrote => ?_⟩
    obtain ⟨v', hv', -, hlive, hdata⟩ :=
      (prewritten_of_protocol hp h).retagged_mem hfits (by simp [Store.sees]) hretag hv hwrote
    exact ⟨v', hv', hlive, hdata⟩

end Retag

/-- The version with the columns `c`. -/
def decorated (c : γ) (v : Version InlinedRow) : Version (Row γ) :=
  ⟨v.xmin, v.cmin, v.xmax, v.data.tableId, v.data.schemaVersion, some (.ofU64 v.data.rowId), some (.ofU64 v.data.beginSnapshot), c⟩

theorem decorates_decorated (c : γ) {plain : List (Version InlinedRow)}
    (h : ∀ v ∈ plain, v.data.rowId ≤ int64Max ∧ v.data.beginSnapshot ≤ int64Max) :
    List.Forall₂ Decorates (plain.map (decorated c)) plain := by
  rw [List.forall₂_map_left_iff, List.forall₂_same]
  intro v hv
  obtain ⟨hrow, hsnapshot⟩ := h v hv
  exact ⟨rfl, rfl, rfl, rfl, rfl, ⟨_, rfl, I64.val_ofU64 hrow⟩, ⟨_, rfl, I64.val_ofU64 hsnapshot⟩⟩

/-- A row written for snapshot 2 as row 4 is published in snapshot 1 as row 2. -/
theorem retag_refines_moved : ∃ s t : State, ReflTransGen (Step ⟨fun _ _ => .ok, 3⟩) twoRows s ∧
    next ⟨fun _ _ => .ok, 3⟩ s (.retag 0 2 true) = some t ∧
    ∃ heap : List (Version (Row String)), List.Forall₂ Decorates heap t.catalog.inlined ∧
      ∃ v ∈ heap, v.data = ⟨7, 1, I64.ofInt? 2, I64.ofInt? 1, "a"⟩ := by
  let b : Batch := ⟨7, 1, 0, 2, 4, 1, 0, true, [2], true, 1⟩
  let st : PublicationState := ⟨0, 1, 1, 1, 2, 2, 1, 0, 0, true, true, ""⟩
  let rows : List (Version InlinedRow) := [⟨0, 0, none, 7, 1, 0, 0⟩, ⟨0, 0, none, 7, 1, 1, 0⟩, ⟨1, 0, none, 7, 1, 4, 2⟩]
  obtain ⟨s, hrun, hs⟩ := trace_reaches
    (fun s a t (h : next ⟨fun _ _ => .ok, 3⟩ s a = some t) => (⟨a, h⟩ : Step ⟨fun _ _ => .ok, 3⟩ s t)) twoRows
    [.prepare 0 7 1 false false 1, .read 0, .reserve 0 0 (some (2, 4)), .bind 0 true, .prewrite 0 1, .publish 0 true,
      .read 0, .check 0 true, .claim 0 1]
    (fun s => s.writers 0 == some ⟨b, .retag true st⟩ && s.catalog.inlined == rows &&
      ((next ⟨fun _ _ => .ok, 3⟩ s (.retag 0 2 true)).bind (·.writers 0)) == some ⟨b, .tableStats true st⟩)
    (by decide +kernel)
  simp only [Bool.and_eq_true, beq_iff_eq] at hs
  obtain ⟨⟨hw, hrows⟩, hafter⟩ := hs
  obtain ⟨t, ht, hok⟩ := Option.bind_eq_some_iff.mp hafter
  have hheap : List.Forall₂ Decorates (rows.map (decorated "a")) s.catalog.inlined := by
    rw [hrows]
    exact decorates_decorated "a" (by simp [rows, int64Max])
  have hfits : Fits b (finalSnapshotId st) (finalRowId st) := ⟨by decide, by decide, by decide, by decide⟩
  obtain ⟨heap, -, hdecorates, hmoved⟩ := retag_refines twoRows_start hrun hw ht hok hfits hheap
  obtain ⟨v, hv, -, hdata⟩ := hmoved (decorated "a" ⟨1, 0, none, 7, 1, 4, 2⟩) (by simp [rows]) (by decide)
  exact ⟨s, t, hrun, ht, heap, hdecorates, v, hv, hdata.trans (by decide)⟩

end PgDucklake.Payload
