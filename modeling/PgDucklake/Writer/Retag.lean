import PgDucklake.Writer.Reads

/-!
# Prewriting and retagging rows

Prewriting a chunk extends the rows of the batch and its row pointers (`Prewritten.chunk`). Retagging gives exactly the
batch's own rows the published ids, whether in place through the row pointers or by an UPDATE that selects them by
transaction, command and candidate values (`retag_retagged`); rows of other transactions stay as they are
(`retag_ownRows`).
-/

namespace PgDucklake.Writer

open Lib

/-! ## Heaps -/

section Heaps

variable {x : Nat} {h : List (Version InlinedRow)} {g : Version InlinedRow → Version InlinedRow}

theorem filter_map_own (hg : ∀ v, (g v).xmin = v.xmin) (hid : ∀ v ∈ h, v.xmin ≠ x → g v = v) :
    ((h.map g).filter fun v => v.xmin != x) = h.filter fun v => v.xmin != x := by
  induction h with
  | nil => rfl
  | cons v h ih =>
    have ih' := ih fun u hu => hid u (List.mem_cons_of_mem v hu)
    rw [List.map_cons]
    by_cases hv : v.xmin = x
    · rw [List.filter_cons_of_neg (by simp [hg, hv]), List.filter_cons_of_neg (by simp [hv]), ih']
    · rw [List.filter_cons_of_pos (by simp [hg, hv]), List.filter_cons_of_pos (by simp [hv]), ih',
        hid v List.mem_cons_self hv]

theorem filter_append_own (h new : List (Version InlinedRow)) (hnew : ∀ v ∈ new, v.xmin = x) :
    ((h ++ new).filter fun v => v.xmin != x) = h.filter fun v => v.xmin != x := by
  have : (new.filter fun v => v.xmin != x) = [] := by
    rw [List.filter_eq_nil_iff]
    intro v hv
    simp [hnew v hv]
  rw [List.filter_append, this, List.append_nil]

/-- Where the entries that satisfy `p` are distinct, each has one position. -/
theorem filter_nodup_position {α : Type} {p : α → Bool} {v : α} (hp : p v = true) :
    ∀ {l : List α} {i j : Nat}, (l.filter p).Nodup → l[i]? = some v → l[j]? = some v → i = j
  | [], i, j, _, hi, _ => by simp at hi
  | a :: l, i, j, hn, hi, hj => by
    have htail : (l.filter p).Nodup := by
      by_cases ha : p a = true
      · rw [List.filter_cons_of_pos ha] at hn
        exact hn.of_cons
      · rwa [List.filter_cons_of_neg ha] at hn
    have hhead : ∀ k : Nat, l[k]? = some v → a = v → False := by
      rintro k hk rfl
      rw [List.filter_cons_of_pos hp] at hn
      exact (List.nodup_cons.mp hn).1 (List.mem_filter.mpr ⟨List.mem_of_getElem? hk, hp⟩)
    cases i with
    | zero =>
      cases j with
      | zero => rfl
      | succ j => exact (hhead j (by simpa using hj) (by simpa using hi)).elim
    | succ i =>
      cases j with
      | zero => exact (hhead i (by simpa using hi) (by simpa using hj)).elim
      | succ j => exact congrArg (· + 1) (filter_nodup_position hp htail (by simpa using hi) (by simpa using hj))

end Heaps

/-! ## Prewriting -/

section Prewrite

variable {s : Store} {b : Batch}

theorem record_same (b : Batch) (ps : List Nat) :
    (recordNativeInlineWriteRows b ps).tableId = b.tableId ∧
    (recordNativeInlineWriteRows b ps).schemaVersion = b.schemaVersion ∧
    (recordNativeInlineWriteRows b ps).candidateRowId = b.candidateRowId ∧
    (recordNativeInlineWriteRows b ps).candidateSnapshotId = b.candidateSnapshotId ∧
    (recordNativeInlineWriteRows b ps).ownerXid = b.ownerXid ∧
    (recordNativeInlineWriteRows b ps).ownerCommandId = b.ownerCommandId := by
  unfold recordNativeInlineWriteRows
  split
  · simp
  · split <;> simp

theorem recordChunk_ownerXid (b : Batch) (pos count : Nat) : (b.recordChunk pos count).ownerXid = b.ownerXid :=
  (record_same b _).2.2.2.2.1

/-- The versions a chunk adds. -/
def Batch.chunk (b : Batch) (count : Nat) : List (Version InlinedRow) :=
  (rowsAt b.tableId b.schemaVersion (b.candidateRowId + b.rowsInserted) b.candidateSnapshotId count).map
    fun row => ⟨b.ownerXid, b.ownerCommandId, none, row⟩

theorem prewriteRows_eq (b : Batch) (count : Nat) (h : List (Version InlinedRow)) :
    prewriteRows b count h = h ++ b.chunk count := rfl

theorem chunk_length (b : Batch) (count : Nat) : (b.chunk count).length = count := by simp [Batch.chunk, rowsAt]

theorem chunk_own {b : Batch} {count : Nat} {v : Version InlinedRow} (hv : v ∈ b.chunk count) :
    v.xmin = b.ownerXid ∧ v.xmax = none := by
  obtain ⟨row, _, rfl⟩ := List.mem_map.mp hv
  exact ⟨rfl, rfl⟩

theorem prewritten_recordChunk (b : Batch) (pos count : Nat) :
    (b.recordChunk pos count).prewritten = b.prewritten ++ b.chunk count := by
  obtain ⟨h₁, h₂, h₃, h₄, h₅, h₆⟩ := record_same b ((List.range count).map (pos + ·))
  simp only [Batch.recordChunk, Batch.prewritten, Batch.chunk, h₁, h₂, h₃, h₄, h₅, h₆, rowsAt_add, List.map_append]

theorem chunk_pointers (b : Batch) (count : Nat) (h : List (Version InlinedRow)) :
    (((List.range count).map (h.length + ·)).map fun i => (h ++ b.chunk count)[i]?) = (b.chunk count).map some := by
  rw [List.map_map]
  refine List.ext_getElem (by simp [chunk_length]) fun i h₁ h₂ => ?_
  have hi : i < (b.chunk count).length := by simpa using h₂
  simp [hi]

/-- **Prewriting a chunk.** -/
theorem Prewritten.chunk (h : Prewritten s b) (count : Nat) :
    Prewritten { s with catalog := { s.catalog with inlined := prewriteRows b count s.catalog.inlined } }
      (b.recordChunk s.catalog.inlined.length count) := by
  have hown : ((b.chunk count).filter fun v => v.xmin == b.ownerXid) = b.chunk count := by
    rw [List.filter_eq_self]
    intro v hv
    simp [(chunk_own hv).1]
  refine ⟨?_, fun ht => ?_, fun h0 => ?_⟩
  · rw [prewritten_recordChunk, recordChunk_ownerXid]
    simp only [prewriteRows_eq, List.filter_append, h.rows, hown]
  · rw [prewritten_recordChunk]
    simp only [prewriteRows_eq, Batch.recordChunk, List.map_append] at ht ⊢
    have hold : ∀ {ps : List Nat}, ps.map (fun i => s.catalog.inlined[i]?) = b.prewritten.map some →
        ps.map (fun i => (s.catalog.inlined ++ b.chunk count)[i]?) = b.prewritten.map some := by
      intro ps hps
      rw [← hps]
      refine List.map_congr_left fun i hi => ?_
      have hm : s.catalog.inlined[i]? ∈ b.prewritten.map some := by
        rw [← hps]
        exact List.mem_map_of_mem hi
      obtain ⟨v, _, hv⟩ := List.mem_map.mp hm
      exact List.getElem?_append_left (List.getElem?_eq_some_iff.mp hv.symm).1
    unfold recordNativeInlineWriteRows at ht ⊢
    split at ht
    · rename_i hc
      rw [if_pos hc]
      -- nothing was recorded: the chunk is empty, or tracking is off
      have hcount : count = 0 := by simpa [ht] using hc
      subst hcount
      simpa [Batch.chunk, rowsAt] using h.pointers ht
    · rename_i hc
      rw [if_neg hc]
      split at ht
      · cases ht
      · rename_i hcap
        rw [if_neg hcap]
        simp only [List.map_append]
        rw [hold (h.pointers ht), chunk_pointers]
  · have hz : b.rowsInserted = 0 ∧ count = 0 := by
      have h0' : b.rowsInserted + count = 0 := h0
      omega
    have hb := h.noPointers hz.1
    simp [Batch.recordChunk, recordNativeInlineWriteRows, hz.2, hb]

theorem prewrite_ownRows {h : List (Version InlinedRow)} (hends : OwnEnds b.ownerXid h) (count : Nat) :
    OwnRows b.ownerXid h (prewriteRows b count h) where
  others := filter_append_own h _ fun v hv => (chunk_own hv).1
  places := fun i v hi _ => by
    rw [prewriteRows_eq, List.getElem?_append_left (List.getElem?_eq_some_iff.mp hi).1]
    exact hi
  ends := by
    intro v hv hx y hy
    rcases List.mem_append.mp hv with hv | hv
    · exact hends v hv hx y hy
    · rw [(chunk_own hv).2] at hy
      cases hy

end Prewrite

/-! ## Retagging -/

section Retag

variable {s : Store} {b : Batch} {st : PublicationState}

/-- A row with the published ids. -/
def retagRow (b : Batch) (st : PublicationState) (row : InlinedRow) : InlinedRow :=
  { row with rowId := finalRowId st + row.rowId - b.candidateRowId, beginSnapshot := finalSnapshotId st }

def retagVersion (b : Batch) (st : PublicationState) (v : Version InlinedRow) : Version InlinedRow :=
  { v with data := retagRow b st v.data }

theorem rowsAt_retag (b : Batch) (st : PublicationState) (n : Nat) :
    (rowsAt b.tableId b.schemaVersion b.candidateRowId b.candidateSnapshotId n).map (retagRow b st) =
      rowsAt b.tableId b.schemaVersion (finalRowId st) (finalSnapshotId st) n := by
  rw [rowsAt, rowsAt, List.map_map]
  refine List.map_congr_left fun i _ => ?_
  simp only [retagRow, Function.comp_apply, InlinedRow.mk.injEq, true_and, and_true]
  omega

theorem prewritten_nodup (b : Batch) : b.prewritten.Nodup := by
  rw [Batch.prewritten, rowsAt, List.map_map]
  refine List.Nodup.map (fun i j hij => ?_) List.nodup_range
  simpa using hij

theorem prewritten_own {v : Version InlinedRow} (hv : v ∈ b.prewritten) : v.xmin = b.ownerXid ∧ v.xmax = none := by
  obtain ⟨row, _, rfl⟩ := List.mem_map.mp hv
  exact ⟨rfl, rfl⟩

theorem retagInplace_ok {sees : Nat → Bool} : ∀ {ps : List Nat} {h h' : List (Version InlinedRow)}, ps.Nodup →
    retagInplace sees b st ps h = .ok h' →
      (∀ i, i ∉ ps → h'[i]? = h[i]?) ∧ ∀ i ∈ ps, h'[i]? = (h[i]?).map (retagVersion b st)
  | [], h, h', _, hr => by
    cases hr
    exact ⟨fun _ _ => rfl, fun i hi => by cases hi⟩
  | p :: ps, h, h', hn, hr => by
    obtain ⟨hp, hn'⟩ := List.nodup_cons.mp hn
    unfold retagInplace at hr
    split at hr
    · cases hr
    · rename_i v hv
      split at hr
      · cases hr
      · split at hr
        · cases hr
        · obtain ⟨hout, hin⟩ := retagInplace_ok hn' hr
          have hlen := (List.getElem?_eq_some_iff.mp hv).1
          refine ⟨fun i hi => ?_, fun i hi => ?_⟩
          · have hip : p ≠ i := fun e => hi (e ▸ List.mem_cons_self)
            have hips : i ∉ ps := fun hm => hi (List.mem_cons_of_mem p hm)
            rw [hout i hips, List.getElem?_set_ne hip]
          · rcases List.mem_cons.mp hi with rfl | hi
            · rw [hout i hp, List.getElem?_set_self hlen, hv]
              rfl
            · have hip : p ≠ i := fun e => hp (e ▸ hi)
              rw [hin i hi, List.getElem?_set_ne hip]

theorem Prewritten.rowPointers_iff (hp : Prewritten s b) (ht : b.rowPointerTrackingEnabled = true) :
    b.rowPointers.Nodup ∧ ∀ i, i ∈ b.rowPointers ↔ ∃ v, s.catalog.inlined[i]? = some v ∧ v.xmin = b.ownerXid := by
  have hmap := hp.pointers ht
  refine ⟨?_, fun i => ⟨fun hi => ?_, ?_⟩⟩
  · refine List.Nodup.of_map (fun i => s.catalog.inlined[i]?) ?_
    rw [hmap]
    exact (prewritten_nodup b).map (Option.some_injective _)
  · have hm : s.catalog.inlined[i]? ∈ b.prewritten.map some := by
      rw [← hmap]
      exact List.mem_map_of_mem hi
    obtain ⟨v, hv, hvi⟩ := List.mem_map.mp hm
    exact ⟨v, hvi.symm, (prewritten_own hv).1⟩
  · rintro ⟨v, hv, hx⟩
    -- a row of the batch is pointed to, and has one position only
    have hown : (v.xmin == b.ownerXid) = true := by simpa using hx
    have hmem : v ∈ b.prewritten := by
      rw [← hp.rows]
      exact List.mem_filter.mpr ⟨List.mem_of_getElem? hv, hown⟩
    have hsome : some v ∈ b.rowPointers.map fun i => s.catalog.inlined[i]? := by
      rw [hmap]
      exact List.mem_map_of_mem hmem
    obtain ⟨j, hj, hjv⟩ := List.mem_map.mp hsome
    have hij := filter_nodup_position (p := fun v : Version InlinedRow => v.xmin == b.ownerXid) hown
      (hp.rows ▸ prewritten_nodup b) hv hjv
    exact hij ▸ hj

theorem retagInplace_eq {sees : Nat → Bool} (hp : Prewritten s b) (ht : b.rowPointerTrackingEnabled = true)
    {h' : List (Version InlinedRow)} (hr : retagInplace sees b st b.rowPointers s.catalog.inlined = .ok h') :
    h' = s.catalog.inlined.map fun v => if v.xmin == b.ownerXid then retagVersion b st v else v := by
  obtain ⟨hnodup, hpointers⟩ := hp.rowPointers_iff ht
  obtain ⟨hout, hin⟩ := retagInplace_ok hnodup hr
  refine List.ext_getElem? fun i => ?_
  rw [List.getElem?_map]
  by_cases hi : i ∈ b.rowPointers
  · obtain ⟨v, hv, hx⟩ := (hpointers i).mp hi
    rw [hin i hi, hv]
    simp [hx]
  · rw [hout i hi]
    cases hv : s.catalog.inlined[i]? with
    | none => rfl
    | some v =>
      have hx : v.xmin ≠ b.ownerXid := fun hx => hi ((hpointers i).mpr ⟨v, hv, hx⟩)
      simp [hx]

theorem Prewritten.owned (hp : Prewritten s b) :
    (s.catalog.inlined.filter fun v => v.visible (s.sees b.ownerXid) && (b.inRelation v && b.owns v)) = b.prewritten := by
  rw [← hp.rows]
  refine List.filter_congr fun v hv => ?_
  by_cases hx : v.xmin = b.ownerXid
  · obtain ⟨ho, hr, hm⟩ := hp.owns hv hx
    simp [ho, hr, hx, hm, Version.visible, Store.sees]
  · have hf : (v.xmin == b.ownerXid) = false := beq_eq_false_iff_ne.mpr hx
    simp [Batch.owns, hf]

theorem retagVersion_visible {sees : Nat → Bool} (hx : sees b.ownerXid = true) :
    (b.prewritten.map (retagVersion b st)).filter (·.visible sees) = b.prewritten.map (retagVersion b st) := by
  rw [List.filter_eq_self]
  intro v hv
  obtain ⟨u, hu, rfl⟩ := List.mem_map.mp hv
  obtain ⟨h₁, h₂⟩ := prewritten_own hu
  simp [retagVersion, Version.visible, h₁, h₂, hx]

theorem prewritten_retag_data (b : Batch) (st : PublicationState) :
    (b.prewritten.map (retagVersion b st)).map (·.data) =
      rowsAt b.tableId b.schemaVersion (finalRowId st) (finalSnapshotId st) b.rowsInserted := by
  rw [← rowsAt_retag, Batch.prewritten, List.map_map, List.map_map]
  rfl

theorem viewOf_retag_map (hp : Prewritten s b) :
    viewOf (s.sees b.ownerXid) b.ownerXid
      (s.catalog.inlined.map fun v => if v.xmin == b.ownerXid then retagVersion b st v else v) =
      rowsAt b.tableId b.schemaVersion (finalRowId st) (finalSnapshotId st) b.rowsInserted := by
  have hf : ((s.catalog.inlined.map fun v => if v.xmin == b.ownerXid then retagVersion b st v else v).filter
      fun v => v.xmin == b.ownerXid) = b.prewritten.map (retagVersion b st) := by
    rw [← hp.rows]
    generalize s.catalog.inlined = h
    induction h with
    | nil => rfl
    | cons v h ih =>
      rw [List.map_cons]
      by_cases hx : (v.xmin == b.ownerXid) = true
      · rw [if_pos hx, List.filter_cons_of_pos (by simpa [retagVersion] using hx),
          List.filter_cons_of_pos (p := fun v : Version InlinedRow => v.xmin == b.ownerXid) hx, ih, List.map_cons]
      · rw [if_neg hx, List.filter_cons_of_neg (p := fun v : Version InlinedRow => v.xmin == b.ownerXid) hx,
          List.filter_cons_of_neg (p := fun v : Version InlinedRow => v.xmin == b.ownerXid) hx, ih]
  rw [viewOf_eq, hf, retagVersion_visible (by simp [Store.sees]), prewritten_retag_data]

theorem viewOf_retag_update (hp : Prewritten s b) (commandId : Nat) :
    viewOf (s.sees b.ownerXid) b.ownerXid
      (updateRows (s.sees b.ownerXid) b.ownerXid commandId (fun v => b.inRelation v && b.owns v) (retagRow b st)
        s.catalog.inlined) =
      rowsAt b.tableId b.schemaVersion (finalRowId st) (finalSnapshotId st) b.rowsInserted := by
  have hself : s.sees b.ownerXid b.ownerXid = true := by simp [Store.sees]
  rw [viewOf, updateRows, List.filter_append, List.map_append, hp.owned]
  have hold : ((s.catalog.inlined.map fun v =>
      if v.visible (s.sees b.ownerXid) && (b.inRelation v && b.owns v) then { v with xmax := some b.ownerXid } else v).filter
        fun v => v.xmin == b.ownerXid && v.visible (s.sees b.ownerXid)) = [] := by
    rw [List.filter_eq_nil_iff]
    intro u hu
    obtain ⟨v, hv, rfl⟩ := List.mem_map.mp hu
    by_cases hx : v.xmin = b.ownerXid
    · obtain ⟨ho, hr, hm⟩ := hp.owns hv hx
      have hvis : v.visible (s.sees b.ownerXid) = true := by simp [Version.visible, hx, hself, hm]
      rw [if_pos (by simp [hvis, ho, hr])]
      simp [Version.visible, hself]
    · rw [if_neg (by simp [Batch.owns, hx])]
      simp [hx]
  rw [hold, List.map_nil, List.nil_append, List.filter_map, List.map_map]
  have hall : ((fun v : Version InlinedRow => v.xmin == b.ownerXid && v.visible (s.sees b.ownerXid)) ∘
      fun v : Version InlinedRow => (⟨b.ownerXid, commandId, none, retagRow b st v.data⟩ : Version InlinedRow)) =
      fun _ => true := by
    funext v
    simp [Version.visible, hself]
  rw [hall, List.filter_true, ← prewritten_retag_data, List.map_map]
  rfl

/-- **Retagging publishes exactly the rows of the batch.** -/
theorem retag_retagged (hp : Prewritten s b) {supportsInplace : Bool} {commandId : Nat}
    {h' : List (Version InlinedRow)}
    (hr : retagPrewrittenRows (s.sees b.ownerXid) b st supportsInplace commandId s.catalog.inlined = .ok h') :
    viewOf (s.sees b.ownerXid) b.ownerXid h' =
      rowsAt b.tableId b.schemaVersion (finalRowId st) (finalSnapshotId st) b.rowsInserted := by
  unfold retagPrewrittenRows at hr
  split at hr
  · cases hr
  · split at hr
    · rename_i hc
      simp only [Bool.and_eq_true] at hc
      rw [retagInplace_eq hp hc.1.1 hr]
      exact viewOf_retag_map hp
    · dsimp only at hr
      split at hr
      · cases hr
      · cases hr
        exact viewOf_retag_update hp commandId

/-- **Retagging leaves the rows of other transactions.** -/
theorem retag_ownRows (hp : Prewritten s b) (hends : OwnEnds b.ownerXid s.catalog.inlined)
    {supportsInplace : Bool} {commandId : Nat} {h' : List (Version InlinedRow)}
    (hr : retagPrewrittenRows (s.sees b.ownerXid) b st supportsInplace commandId s.catalog.inlined = .ok h') :
    OwnRows b.ownerXid s.catalog.inlined h' := by
  unfold retagPrewrittenRows at hr
  split at hr
  · cases hr
  · split at hr
    · rename_i hc
      simp only [Bool.and_eq_true] at hc
      rw [retagInplace_eq hp hc.1.1 hr]
      refine ⟨filter_map_own (fun v => ?_) (fun v _ hx => if_neg (by simpa using hx)), fun i v hi hx => ?_,
        fun u hu hx y hy => ?_⟩
      · split <;> rfl
      · rw [List.getElem?_map, hi]
        simp [hx]
      · obtain ⟨v, hv, rfl⟩ := List.mem_map.mp hu
        by_cases hown : (v.xmin == b.ownerXid) = true
        · rw [if_pos hown] at hx hy
          exact hends v hv hx y hy
        · rw [if_neg hown] at hx hy
          exact hends v hv hx y hy
    · dsimp only at hr
      split at hr
      · cases hr
      · cases hr
        have hnot : ∀ v : Version InlinedRow, v.xmin ≠ b.ownerXid →
            (v.visible (s.sees b.ownerXid) && (b.inRelation v && b.owns v)) = false := by
          intro v hx
          simp [Batch.owns, beq_eq_false_iff_ne.mpr hx]
        refine ⟨?_, fun i v hi hx => ?_, fun u hu hx y hy => ?_⟩
        · rw [updateRows, filter_append_own _ _ (by
            intro v hv
            obtain ⟨_, _, rfl⟩ := List.mem_map.mp hv
            rfl)]
          refine filter_map_own (fun v => ?_) (fun v _ hx => if_neg (by rw [hnot v hx]; simp))
          split <;> rfl
        · rw [updateRows, List.getElem?_append_left (by
            rw [List.length_map]
            exact (List.getElem?_eq_some_iff.mp hi).1), List.getElem?_map, hi]
          simp only [Option.map_some, Option.some.injEq]
          exact if_neg (by rw [hnot v hx]; simp)
        · rcases List.mem_append.mp hu with hu | hu
          · obtain ⟨v, hv, rfl⟩ := List.mem_map.mp hu
            by_cases hown : (v.visible (s.sees b.ownerXid) && (b.inRelation v && b.owns v)) = true
            · rw [if_pos hown] at hy
              cases hy; rfl
            · rw [if_neg hown] at hx hy
              exact hends v hv hx y hy
          · obtain ⟨v, _, rfl⟩ := List.mem_map.mp hu
            cases hy

theorem Prewritten.retagged (hp : Prewritten s b) (hs : finalSnapshotId st = b.candidateSnapshotId)
    (hr : finalRowId st = b.candidateRowId) : Retagged s b st := by
  have hvis : b.prewritten.filter (·.visible (s.sees b.ownerXid)) = b.prewritten := by
    rw [List.filter_eq_self]
    intro v hv
    obtain ⟨h₁, h₂⟩ := prewritten_own hv
    simp [Version.visible, h₁, h₂, Store.sees]
  rw [Retagged, viewOf_eq, hp.rows, hvis, hs, hr, Batch.prewritten, List.map_map]
  exact List.map_id' _

end Retag

end PgDucklake.Writer
