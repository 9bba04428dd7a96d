import PgDucklake.Lib.Cells
import PgDucklake.Lib.Words
import PgDucklake.Writer.Payload

/-!
# Row pointers of a batch

`BindNativeInlineWriteRelation` and `RecordNativeInlineWriteRows` over the memory they use: an array that grows by doubling
up to a cap, a count and a flag. A store behind the array and a growth loop that does not end are faults.

- `record_spec`: a call ends without a fault, and does to the recorded pointers what `trackRows` says;
- `recordNativeInlineWriteRows_eq`: so does the model of the call over lists that the retag works with;
- `tracking_complete`: in every sequence of calls, pointers that are as many as the rows are those of all rows.
-/

namespace PgDucklake.Pointers

open Lib

/-- `MAX_TRACKED_ROW_POINTERS`. -/
def maxTracked : Nat := Writer.maxTrackedRowPointers

/-- `ItemPointerData`. -/
structure ItemPointer where
  block : UInt32
  offset : UInt16
deriving DecidableEq, Repr

/-- `ItemPointerIsValid`. -/
def ItemPointer.isValid (p : ItemPointer) : Bool := p.offset != 0

/-- `NativeInlineRowPointer`. -/
structure RowPointer where
  blockNumber : UInt32
  offsetNumber : UInt16
deriving DecidableEq, Repr

def RowPointer.of (p : ItemPointer) : RowPointer := ⟨p.block, p.offset⟩

/-- The fields of `NativeInlineWriteBatch` for row pointers. A null `row_pointers` is `none`; the allocated array may
have cells that were not written yet. -/
structure PointerBatch where
  inlineTableOid : Nat
  rowPointers : Option (List (Option RowPointer))
  rowPointerCount : Nat
  rowPointerCapacity : Nat
  rowPointerTrackingEnabled : Bool
deriving DecidableEq, Repr

/-- The batch of `PrepareNativeInlineWrite`. -/
def PointerBatch.prepared : PointerBatch := ⟨0, none, 0, 0, true⟩

inductive Fault
  /-- The growth loop does not end. -/
  | endlessLoop
  /-- A store behind the allocated array. -/
  | outOfBounds
  /-- "native inline writer: row pointers span multiple inline relations" -/
  | spansRelations
deriving DecidableEq, Repr

/-- `BindNativeInlineWriteRelation`. -/
def bindNativeInlineWriteRelation (b : PointerBatch) (relationOid : Nat) (supportsInplaceRetag : Bool) :
    Except Fault PointerBatch :=
  if b.inlineTableOid != 0 && b.inlineTableOid != relationOid then .error .spansRelations
  else .ok { b with inlineTableOid := relationOid, rowPointerTrackingEnabled := supportsInplaceRetag }

/-- The pointers are freed and no more are tracked. -/
def PointerBatch.dropped (b : PointerBatch) : PointerBatch :=
  { b with rowPointers := none, rowPointerCount := 0, rowPointerCapacity := 0, rowPointerTrackingEnabled := false }

/-- `while (capacity < required) capacity = Min(capacity * 2, MAX_TRACKED_ROW_POINTERS)`, for at most `fuel` tests. -/
def growCapacity : Nat → Nat → Nat → Option Nat
  | 0, _, _ => none
  | fuel + 1, capacity, required =>
    if capacity < required then growCapacity fuel (min (capacity * 2 % u64Size) maxTracked) required else some capacity

/-- `palloc` and `repalloc` of `capacity` cells. -/
def allocate (rowPointers : Option (List (Option RowPointer))) (capacity : Nat) : List (Option RowPointer) :=
  match rowPointers with
  | some cells => cells ++ List.replicate (capacity - cells.length) none
  | none => List.replicate capacity none

/-- Room for `required` pointers. -/
def ensureCapacity (fuel : Nat) (b : PointerBatch) (required : Nat) : Except Fault PointerBatch :=
  if b.rowPointerCapacity < required then
    match growCapacity fuel (if b.rowPointerCapacity != 0 then b.rowPointerCapacity else 1024) required with
    | some capacity =>
      .ok { b with rowPointers := some (allocate b.rowPointers capacity), rowPointerCapacity := capacity }
    | none => .error .endlessLoop
  else .ok b

/-- The loop over the slots. -/
def recordSlots : PointerBatch → List ItemPointer → Except Fault PointerBatch
  | b, [] => .ok b
  | b, slot :: slots =>
    if !slot.isValid then .ok b.dropped
    else
      match b.rowPointers with
      | some cells =>
        if b.rowPointerCount < cells.length then
          recordSlots { b with
            rowPointers := some (cells.set b.rowPointerCount (some (.of slot)))
            rowPointerCount := b.rowPointerCount + 1 } slots
        else .error .outOfBounds
      | none => .error .outOfBounds

/-- `RecordNativeInlineWriteRows`. -/
def recordNativeInlineWriteRows (fuel : Nat) (b : PointerBatch) (slots : List ItemPointer) : Except Fault PointerBatch :=
  if slots.length == 0 || !b.rowPointerTrackingEnabled then .ok b
  else if u64Sub maxTracked b.rowPointerCount < slots.length then .ok b.dropped
  else do
    let b ← ensureCapacity fuel b (u64Add b.rowPointerCount slots.length)
    recordSlots b slots

/-! ## Recorded pointers as a list -/

/-- What a call does to the recorded pointers and to the flag. A slot without a tuple id is `none`. -/
def trackRows {α : Type} (cap : Nat) (tracked : Bool) (pointers : List α) (slots : List (Option α)) : Bool × List α :=
  if slots.length == 0 || !tracked then (tracked, pointers)
  else if cap - pointers.length < slots.length then (false, [])
  else if slots.all (·.isSome) then (true, pointers ++ slots.filterMap id)
  else (false, [])

theorem recordNativeInlineWriteRows_eq (b : Writer.Batch) (slots : List (Option Nat)) :
    Payload.recordNativeInlineWriteRows b slots =
      { b with
        rowPointers := (trackRows maxTracked b.rowPointerTrackingEnabled b.rowPointers slots).2
        rowPointerTrackingEnabled := (trackRows maxTracked b.rowPointerTrackingEnabled b.rowPointers slots).1 } := by
  unfold Payload.recordNativeInlineWriteRows trackRows maxTracked
  by_cases hskip : (slots.length == 0 || !b.rowPointerTrackingEnabled) = true
  · simp only [hskip, if_true]
  · have htracked : b.rowPointerTrackingEnabled = true := by
      simp only [Bool.or_eq_true, Bool.not_eq_true', not_or, Bool.not_eq_false] at hskip
      exact hskip.2
    rw [if_neg hskip, if_neg hskip]
    split
    · rfl
    · split
      · rw [← htracked]
      · rfl

/-! ## The calls -/

/-- A batch whose array holds the recorded pointers. -/
structure Tracks (b : PointerBatch) (pointers : List RowPointer) : Prop where
  count : b.rowPointerCount = pointers.length
  holds : Cells.Holds (b.rowPointers.getD []) pointers
  allocated : (b.rowPointers.getD []).length = b.rowPointerCapacity
  capacity : b.rowPointerCapacity ≤ maxTracked
  atLeast : b.rowPointerCapacity ≠ 0 → 1024 ≤ b.rowPointerCapacity

theorem tracks_prepared : Tracks .prepared [] := ⟨rfl, rfl, rfl, Nat.zero_le _, fun h => absurd rfl h⟩

theorem tracks_dropped (b : PointerBatch) : Tracks b.dropped [] := ⟨rfl, rfl, rfl, Nat.zero_le _, fun h => absurd rfl h⟩

section Calls

variable {b : PointerBatch} {pointers : List RowPointer} {fuel : Nat}

theorem Tracks.count_le (h : Tracks b pointers) : b.rowPointerCount ≤ maxTracked := by
  have hlen := h.holds.length_le
  have hcount := h.count
  have halloc := h.allocated
  have hcap := h.capacity
  omega

/-- **The growth loop ends**, after as many doublings as take the capacity to the cap. -/
theorem growCapacity_some : ∀ {fuel capacity required : Nat}, required ≤ maxTracked → capacity ≤ maxTracked →
    maxTracked ≤ capacity * 2 ^ fuel →
    ∃ capacity', growCapacity (fuel + 1) capacity required = some capacity' ∧ required ≤ capacity' ∧
      capacity ≤ capacity' ∧ capacity' ≤ maxTracked
  | 0, capacity, required, hrequired, hcapacity, hfuel => by
    rw [growCapacity, if_neg (by omega)]
    exact ⟨capacity, rfl, by omega, Nat.le_refl _, hcapacity⟩
  | fuel + 1, capacity, required, hrequired, hcapacity, hfuel => by
    rw [growCapacity]
    split
    · have hword : capacity * 2 % u64Size = capacity * 2 := by
        refine Nat.mod_eq_of_lt ?_
        have hmax : maxTracked = 65536 := rfl
        unfold u64Size
        omega
      have hfuel' : maxTracked ≤ min (capacity * 2) maxTracked * 2 ^ fuel := by
        rw [Nat.pow_succ, Nat.mul_comm (2 ^ fuel), ← Nat.mul_assoc] at hfuel
        rcases Nat.le_total (capacity * 2) maxTracked with hle | hge
        · rwa [Nat.min_eq_left hle]
        · rw [Nat.min_eq_right hge]
          exact Nat.le_mul_of_pos_right _ (Nat.two_pow_pos fuel)
      rw [hword]
      obtain ⟨capacity', hgrow, hroom, hmore, hcap⟩ := growCapacity_some hrequired (Nat.min_le_right _ _) hfuel'
      exact ⟨capacity', hgrow, hroom, by omega, hcap⟩
    · rename_i hlarge
      exact ⟨capacity, rfl, by omega, Nat.le_refl _, hcapacity⟩

theorem growCapacity_of_le {capacity required : Nat} (hfuel : 7 ≤ fuel) (hrequired : required ≤ maxTracked)
    (hleast : 1024 ≤ capacity) (hcapacity : capacity ≤ maxTracked) :
    ∃ capacity', growCapacity fuel capacity required = some capacity' ∧ required ≤ capacity' ∧ capacity ≤ capacity' ∧
      capacity' ≤ maxTracked := by
  obtain ⟨n, rfl⟩ : ∃ n, fuel = n + 1 := ⟨fuel - 1, by omega⟩
  refine growCapacity_some hrequired hcapacity ?_
  calc maxTracked = 1024 * 2 ^ 6 := rfl
    _ ≤ capacity * 2 ^ 6 := Nat.mul_le_mul_right _ hleast
    _ ≤ capacity * 2 ^ n := Nat.mul_le_mul_left _ (Nat.pow_le_pow_right Nat.two_pos (by omega))

theorem length_allocate {rowPointers : Option (List (Option RowPointer))} {capacity : Nat}
    (h : (rowPointers.getD []).length ≤ capacity) : (allocate rowPointers capacity).length = capacity := by
  cases rowPointers with
  | none => exact List.length_replicate
  | some cells =>
    dsimp only [Option.getD_some] at h
    rw [allocate, List.length_append, List.length_replicate]
    omega

theorem holds_allocate {rowPointers : Option (List (Option RowPointer))} (h : Cells.Holds (rowPointers.getD []) pointers)
    (capacity : Nat) : Cells.Holds (allocate rowPointers capacity) pointers := by
  cases rowPointers with
  | none =>
    have hnil : pointers = [] := List.length_eq_zero_iff.mp (Nat.le_zero.mp h.length_le)
    subst hnil
    exact .nil _
  | some cells => exact h.extend _

/-- The batch after a call, apart from its array. -/
structure SameBatch (b b' : PointerBatch) : Prop where
  oid : b'.inlineTableOid = b.inlineTableOid
  tracking : b'.rowPointerTrackingEnabled = b.rowPointerTrackingEnabled

theorem ensureCapacity_spec (h : Tracks b pointers) (hfuel : 7 ≤ fuel) {required : Nat} (hrequired : required ≤ maxTracked) :
    ∃ b', ensureCapacity fuel b required = .ok b' ∧ Tracks b' pointers ∧ required ≤ b'.rowPointerCapacity ∧
      SameBatch b b' := by
  unfold ensureCapacity
  split
  · have hstart : 1024 ≤ (if b.rowPointerCapacity != 0 then b.rowPointerCapacity else 1024) ∧
        b.rowPointerCapacity ≤ (if b.rowPointerCapacity != 0 then b.rowPointerCapacity else 1024) ∧
        (if b.rowPointerCapacity != 0 then b.rowPointerCapacity else 1024) ≤ maxTracked := by
      have hcap := h.capacity
      have hmax : 1024 ≤ maxTracked := by decide
      split
      · rename_i hset
        exact ⟨h.atLeast (by simpa using hset), Nat.le_refl _, hcap⟩
      · rename_i hzero
        simp only [bne_iff_ne, ne_eq, Decidable.not_not] at hzero
        omega
    obtain ⟨capacity, hgrow, hroom, hmore, hcap⟩ := growCapacity_of_le hfuel hrequired hstart.1 hstart.2.2
    rw [hgrow]
    have hlen : (allocate b.rowPointers capacity).length = capacity :=
      length_allocate (by rw [h.allocated]; omega)
    exact ⟨_, rfl, ⟨h.count, holds_allocate h.holds capacity, hlen, hcap, fun _ => by dsimp only; omega⟩, hroom, rfl, rfl⟩
  · rename_i hlarge
    exact ⟨b, rfl, h, by omega, rfl, rfl⟩

theorem recordSlots_spec {slots : List ItemPointer} (h : Tracks b pointers)
    (hroom : pointers.length + slots.length ≤ b.rowPointerCapacity) :
    ∃ b', recordSlots b slots = .ok b' ∧ b'.inlineTableOid = b.inlineTableOid ∧
      if slots.all (·.isValid) then
        Tracks b' (pointers ++ slots.map .of) ∧ b'.rowPointerTrackingEnabled = b.rowPointerTrackingEnabled
      else Tracks b' [] ∧ b'.rowPointerTrackingEnabled = false := by
  induction slots generalizing b pointers with
  | nil => exact ⟨b, rfl, rfl, by simpa using h⟩
  | cons slot slots ih =>
    rw [List.length_cons] at hroom
    cases hvalid : slot.isValid with
    | false =>
      refine ⟨b.dropped, by simp [recordSlots, hvalid], rfl, ?_⟩
      rw [if_neg (by simp [hvalid])]
      exact ⟨tracks_dropped b, rfl⟩
    | true =>
      cases hcells : b.rowPointers with
      | none =>
        have halloc := h.allocated
        rw [hcells, Option.getD_none, List.length_nil] at halloc
        omega
      | some cells =>
        have halloc := h.allocated
        have hholds := h.holds
        rw [hcells, Option.getD_some] at halloc hholds
        have hlt : pointers.length < cells.length := by omega
        have hstored : Tracks { b with
            rowPointers := some (cells.set b.rowPointerCount (some (.of slot)))
            rowPointerCount := b.rowPointerCount + 1 } (pointers ++ [.of slot]) := by
          refine ⟨by simp [h.count], ?_, by simpa using halloc, h.capacity, h.atLeast⟩
          rw [h.count]
          exact hholds.store hlt (.of slot)
        obtain ⟨b', hb', hoid, hresult⟩ := ih hstored (by
          rw [List.length_append, List.length_singleton]
          dsimp only
          omega)
        refine ⟨b', ?_, hoid, ?_⟩
        · simp only [recordSlots, hvalid, Bool.not_true, Bool.false_eq_true, if_false, hcells]
          rw [if_pos (by rw [h.count]; exact hlt)]
          exact hb'
        · simpa [hvalid] using hresult

/-- The pointer of a slot, if it has a tuple id. -/
def slotPointer (slot : ItemPointer) : Option RowPointer := if slot.isValid then some (.of slot) else none

theorem all_slotPointer (slots : List ItemPointer) :
    (slots.map slotPointer).all (·.isSome) = slots.all (·.isValid) := by
  rw [List.all_map]
  congr 1
  funext slot
  simp only [Function.comp_apply, slotPointer]
  split <;> simp_all

theorem filterMap_slotPointer {slots : List ItemPointer} (h : slots.all (·.isValid) = true) :
    (slots.map slotPointer).filterMap id = slots.map .of := by
  induction slots with
  | nil => rfl
  | cons slot slots ih =>
    obtain ⟨hslot, hslots⟩ := Bool.and_eq_true_iff.mp (List.all_cons ▸ h)
    simp [slotPointer, hslot, ← ih hslots]

/-- **A call of `RecordNativeInlineWriteRows`** ends without a fault and does what `trackRows` says. -/
theorem record_spec (h : Tracks b pointers) (hfuel : 7 ≤ fuel) (slots : List ItemPointer) :
    ∃ b', recordNativeInlineWriteRows fuel b slots = .ok b' ∧ b'.inlineTableOid = b.inlineTableOid ∧
      (trackRows maxTracked b.rowPointerTrackingEnabled pointers (slots.map slotPointer)).1 = b'.rowPointerTrackingEnabled ∧
      Tracks b' (trackRows maxTracked b.rowPointerTrackingEnabled pointers (slots.map slotPointer)).2 := by
  unfold recordNativeInlineWriteRows trackRows
  rw [List.length_map]
  by_cases hskip : (slots.length == 0 || !b.rowPointerTrackingEnabled) = true
  · rw [if_pos hskip, if_pos hskip]
    exact ⟨b, rfl, rfl, rfl, h⟩
  · have htracked : b.rowPointerTrackingEnabled = true := by
      simp only [Bool.or_eq_true, Bool.not_eq_true', not_or, Bool.not_eq_false] at hskip
      exact hskip.2
    have hcount : pointers.length ≤ maxTracked := h.count ▸ h.count_le
    have hmax : maxTracked = 65536 := rfl
    have hsub : u64Sub maxTracked b.rowPointerCount = maxTracked - pointers.length := by
      rw [h.count, u64Sub_of_le hcount (by unfold u64Size; omega)]
    rw [if_neg hskip, if_neg hskip, hsub]
    split
    · exact ⟨b.dropped, rfl, rfl, rfl, tracks_dropped b⟩
    · rename_i hfits
      have hrequired : pointers.length + slots.length ≤ maxTracked := by omega
      have hadd : u64Add b.rowPointerCount slots.length = pointers.length + slots.length := by
        rw [h.count, u64Add_of_lt (by unfold u64Size; omega)]
      rw [hadd, all_slotPointer]
      obtain ⟨b₁, hensure, htracks, hroom, hsame⟩ := ensureCapacity_spec h hfuel hrequired
      obtain ⟨b₂, hslots, hoid, hresult⟩ := recordSlots_spec htracks hroom
      refine ⟨b₂, ?_, hoid.trans hsame.oid, ?_⟩
      · rw [hensure]
        exact hslots
      · by_cases hvalid : slots.all (·.isValid) = true
        · rw [if_pos hvalid] at hresult ⊢
          rw [filterMap_slotPointer hvalid]
          exact ⟨(hresult.2.trans (hsame.tracking.trans htracked)).symm, hresult.1⟩
        · rw [if_neg hvalid] at hresult ⊢
          exact ⟨hresult.2.symm, hresult.1⟩

end Calls

/-! ## Sequences of calls -/

/-- A row of the batch: its tuple id, and whether `table_multi_insert` has left it in the slot. -/
structure InsertedRow where
  tid : ItemPointer
  inSlot : Bool
deriving DecidableEq, Repr

/-- `tts_tid` of the row's slot. -/
def InsertedRow.slotTid (row : InsertedRow) : ItemPointer := if row.inSlot then row.tid else ⟨0, 0⟩

/-- What a producer does: it binds the relation, and inserts chunks of rows. -/
inductive ProducerCall
  | bind (relationOid : Nat) (supportsInplaceRetag : Bool)
  | insert (chunk : List InsertedRow)

/-- A producer: its batch, `current_row_id`, `rows_inserted` and the rows in the order in which they were inserted, each
with its row id. -/
structure Producer where
  batch : PointerBatch
  nextRowId : Nat
  rowsInserted : Nat
  rows : List (Nat × ItemPointer)

def Producer.start (candidateRowId : Nat) : Producer := ⟨.prepared, candidateRowId, 0, []⟩

/-- The rows of a chunk, with `current_row_id++`. -/
def numberRows : Nat → List InsertedRow → List (Nat × ItemPointer)
  | _, [] => []
  | rowId, row :: chunk => (rowId, row.tid) :: numberRows (u64Add rowId 1) chunk

def Producer.call (fuel : Nat) (p : Producer) : ProducerCall → Except Fault Producer
  | .bind relationOid supportsInplaceRetag => do
    let batch ← bindNativeInlineWriteRelation p.batch relationOid supportsInplaceRetag
    pure { p with batch := batch }
  | .insert chunk => do
    let batch ← recordNativeInlineWriteRows fuel p.batch (chunk.map (·.slotTid))
    pure
      { batch := batch
        nextRowId := u64Add p.nextRowId chunk.length
        rowsInserted := u64Add p.rowsInserted chunk.length
        rows := p.rows ++ numberRows p.nextRowId chunk }

def Producer.calls (fuel : Nat) : Producer → List ProducerCall → Except Fault Producer
  | p, [] => .ok p
  | p, call :: calls => do
    let p ← p.call fuel call
    p.calls fuel calls

/-- The rows that the calls insert. -/
def insertedRows (calls : List ProducerCall) : List InsertedRow :=
  calls.flatMap fun
    | .bind _ _ => []
    | .insert chunk => chunk

section Sequences

variable {fuel candidateRowId : Nat} {p : Producer}

theorem trackRows_sublist {α : Type} (cap : Nat) (tracked : Bool) (pointers : List α) (slots : List (Option α)) :
    (trackRows cap tracked pointers slots).2.Sublist (pointers ++ slots.filterMap id) := by
  unfold trackRows
  split
  · exact List.sublist_append_left _ _
  · split
    · exact List.nil_sublist _
    · split
      · exact .refl _
      · exact List.nil_sublist _

theorem slotPointer_slotTid {row : InsertedRow} {pointer : RowPointer} (h : slotPointer row.slotTid = some pointer) :
    pointer = .of row.tid := by
  unfold slotPointer InsertedRow.slotTid at h
  cases hslot : row.inSlot with
  | true =>
    rw [hslot, if_pos rfl] at h
    split at h
    · exact (Option.some.inj h).symm
    · cases h
  | false =>
    rw [hslot, if_neg Bool.false_ne_true, if_neg (by decide)] at h
    cases h

theorem slotPointers_sublist (chunk : List InsertedRow) :
    (((chunk.map (·.slotTid)).map slotPointer).filterMap id).Sublist ((chunk.map (·.tid)).map .of) := by
  induction chunk with
  | nil => exact .slnil
  | cons row chunk ih =>
    simp only [List.map_cons, List.filterMap_cons, id_eq]
    split
    · exact ih.cons _
    · rename_i pointer hpointer
      rw [slotPointer_slotTid hpointer]
      exact ih.cons_cons _

theorem u64Add_u64Add (a b c : Nat) : u64Add (u64Add a b) c = u64Add a (b + c) := by
  unfold u64Add
  rw [Nat.mod_add_mod, Nat.add_assoc]

theorem numberRows_tids (rowId : Nat) (chunk : List InsertedRow) : (numberRows rowId chunk).map (·.2) = chunk.map (·.tid) := by
  induction chunk generalizing rowId with
  | nil => rfl
  | cons row chunk ih => simp [numberRows, ih]

theorem length_numberRows (rowId : Nat) (chunk : List InsertedRow) : (numberRows rowId chunk).length = chunk.length := by
  have hlen := congrArg List.length (numberRows_tids rowId chunk)
  rwa [List.length_map, List.length_map] at hlen

theorem numberRows_ids (n : Nat) (chunk : List InsertedRow) :
    (numberRows (u64Add candidateRowId n) chunk).map (·.1) =
      (List.range chunk.length).map fun i => u64Add candidateRowId (n + i) := by
  induction chunk generalizing n with
  | nil => rfl
  | cons row chunk ih =>
    rw [List.length_cons, List.range_succ_eq_map, List.map_cons, List.map_map, numberRows, List.map_cons, u64Add_u64Add,
      ih (n + 1)]
    congr 2
    funext i
    simp only [Function.comp_apply]
    congr 1
    omega

/-- What holds of a producer after any calls. -/
structure Produces (candidateRowId : Nat) (p : Producer) : Prop where
  recorded : ∃ pointers, Tracks p.batch pointers ∧ pointers.Sublist ((p.rows.map (·.2)).map .of)
  rowsInserted : p.rowsInserted = p.rows.length % u64Size
  nextRowId : p.nextRowId = u64Add candidateRowId p.rows.length
  rowIds : p.rows.map (·.1) = (List.range p.rows.length).map (u64Add candidateRowId)

theorem produces_start (h : candidateRowId < u64Size) : Produces candidateRowId (.start candidateRowId) :=
  ⟨⟨[], tracks_prepared, .slnil⟩, rfl, (Nat.mod_eq_of_lt h).symm, rfl⟩

/-- **A call** keeps it, unless it is stopped with an error. -/
theorem Produces.call (h : Produces candidateRowId p) (hfuel : 7 ≤ fuel) (call : ProducerCall) :
    p.call fuel call = .error .spansRelations ∨ ∃ p', p.call fuel call = .ok p' ∧ Produces candidateRowId p' ∧
      p'.rows.map (·.2) = p.rows.map (·.2) ++ (insertedRows [call]).map (·.tid) := by
  obtain ⟨pointers, htracks, hsub⟩ := h.recorded
  cases call with
  | bind relationOid supportsInplaceRetag =>
    by_cases hother : (p.batch.inlineTableOid != 0 && p.batch.inlineTableOid != relationOid) = true
    · refine .inl ?_
      rw [Producer.call, bindNativeInlineWriteRelation, if_pos hother]
      rfl
    · refine .inr ⟨_, by rw [Producer.call, bindNativeInlineWriteRelation, if_neg hother]; rfl, ?_, by simp [insertedRows]⟩
      exact ⟨⟨pointers, ⟨htracks.count, htracks.holds, htracks.allocated, htracks.capacity, htracks.atLeast⟩, hsub⟩,
        h.rowsInserted, h.nextRowId, h.rowIds⟩
  | insert chunk =>
    obtain ⟨batch, hrecord, -, -, hbatch⟩ := record_spec htracks hfuel (chunk.map (·.slotTid))
    refine .inr ⟨_, by rw [Producer.call, hrecord]; rfl, ⟨⟨_, hbatch, ?_⟩, ?_, ?_, ?_⟩, ?_⟩
    · refine (trackRows_sublist _ _ _ _).trans ?_
      rw [List.map_append, numberRows_tids, List.map_append]
      exact hsub.append (slotPointers_sublist chunk)
    · dsimp only
      rw [List.length_append, length_numberRows, h.rowsInserted, u64Add, Nat.mod_add_mod]
    · dsimp only
      rw [List.length_append, length_numberRows, h.nextRowId, u64Add_u64Add]
    · dsimp only
      rw [List.map_append, List.length_append, length_numberRows, List.range_add, List.map_append, h.rowIds, h.nextRowId,
        numberRows_ids, List.map_map]
      rfl
    · rw [List.map_append, numberRows_tids]
      simp [insertedRows]

/-- **Any calls** keep it, and insert their rows in order. -/
theorem Produces.calls (h : Produces candidateRowId p) (hfuel : 7 ≤ fuel) (calls : List ProducerCall) :
    p.calls fuel calls = .error .spansRelations ∨ ∃ p', p.calls fuel calls = .ok p' ∧ Produces candidateRowId p' ∧
      p'.rows.map (·.2) = p.rows.map (·.2) ++ (insertedRows calls).map (·.tid) := by
  induction calls generalizing p with
  | nil => exact .inr ⟨p, rfl, h, by simp [insertedRows]⟩
  | cons call calls ih =>
    rw [Producer.calls]
    rcases h.call hfuel call with herror | ⟨p₁, hcall, hp₁, hrows₁⟩
    · rw [herror]
      exact .inl rfl
    · rw [hcall]
      rcases ih hp₁ with herror | ⟨p₂, hcalls, hp₂, hrows₂⟩
      · exact .inl herror
      · refine .inr ⟨p₂, hcalls, hp₂, ?_⟩
        rw [hrows₂, hrows₁, List.append_assoc, ← List.map_append]
        simp [insertedRows]

theorem length_le_of_nodup {tids : List ItemPointer} (h : tids.Nodup) : tids.length ≤ 2 ^ 48 := by
  have hcode : Function.Injective fun p : ItemPointer => p.block.toNat * 2 ^ 16 + p.offset.toNat := by
    intro p q hpq
    have hp := p.offset.toNat_lt
    have hq := q.offset.toNat_lt
    have hblock : p.block.toNat = q.block.toNat := by dsimp only at hpq; omega
    have hoffset : p.offset.toNat = q.offset.toNat := by dsimp only at hpq; omega
    cases p
    cases q
    congr
    · exact UInt32.toNat_inj.mp hblock
    · exact UInt16.toNat_inj.mp hoffset
  have hsub : (tids.map fun p : ItemPointer => p.block.toNat * 2 ^ 16 + p.offset.toNat) ⊆ List.range (2 ^ 48) := by
    intro n hn
    obtain ⟨p, -, rfl⟩ := List.mem_map.mp hn
    have hblock := p.block.toNat_lt
    have hoffset := p.offset.toNat_lt
    rw [List.mem_range]
    omega
  have hlen := (h.map hcode).length_le_of_subset hsub
  rwa [List.length_map, List.length_range] at hlen

/-- **Pointer tracking is complete when it is used.** Any calls end without a fault, unless the batch spans relations; the
capacity is that of the allocated array and stays below the cap; and if tracking is on and there are as many pointers as
rows, the array lists the pointers of all rows, in the order of their row ids. -/
theorem tracking_complete (hfuel : 7 ≤ fuel) (hcandidate : candidateRowId < u64Size) (calls : List ProducerCall)
    (hdistinct : ((insertedRows calls).map (·.tid)).Nodup) :
    (Producer.start candidateRowId).calls fuel calls = .error .spansRelations ∨
    ∃ p, (Producer.start candidateRowId).calls fuel calls = .ok p ∧
      p.rows.map (·.2) = (insertedRows calls).map (·.tid) ∧
      p.rows.map (·.1) = (List.range p.rows.length).map (u64Add candidateRowId) ∧
      p.batch.rowPointerCount ≤ p.batch.rowPointerCapacity ∧ p.batch.rowPointerCapacity ≤ maxTracked ∧
      (p.batch.rowPointers.getD []).length = p.batch.rowPointerCapacity ∧
      (p.batch.rowPointerTrackingEnabled = true → p.batch.rowPointerCount = p.rowsInserted →
        (p.batch.rowPointers.getD []).take p.batch.rowPointerCount = p.rows.map fun row => some (.of row.2)) := by
  rcases (produces_start hcandidate).calls hfuel calls with herror | ⟨p, hp, hproduces, hrows⟩
  · exact .inl herror
  · obtain ⟨pointers, htracks, hsub⟩ := hproduces.recorded
    have hlen := htracks.holds.length_le
    refine .inr ⟨p, hp, hrows, hproduces.rowIds, ?_, htracks.capacity, htracks.allocated, fun _ hcount => ?_⟩
    · rw [htracks.count, ← htracks.allocated]
      exact hlen
    · -- as many rows as fit in a relation are counted without wrapping
      have hfew : p.rows.length < u64Size := by
        have hbound := length_le_of_nodup hdistinct
        have hrowsLen := congrArg List.length hrows
        simp only [List.length_map, Producer.start, List.map_nil, List.nil_append] at hrowsLen hbound
        unfold u64Size
        omega
      have hall : pointers = (p.rows.map (·.2)).map .of := by
        refine hsub.eq_of_length ?_
        rw [List.length_map, List.length_map, ← htracks.count, hcount, hproduces.rowsInserted, Nat.mod_eq_of_lt hfew]
      rw [htracks.count, htracks.holds, hall, List.map_map, List.map_map]
      rfl

end Sequences

/-- Three rows in two chunks. -/
def threeRows : List ProducerCall :=
  [.bind 5 true, .insert [⟨⟨0, 1⟩, true⟩, ⟨⟨0, 2⟩, true⟩], .insert [⟨⟨0, 3⟩, true⟩]]

theorem tracking_complete_threeRows : ∃ p, (Producer.start 10).calls 7 threeRows = .ok p ∧
    p.batch.rowPointerTrackingEnabled = true ∧ p.batch.rowPointerCount = p.rowsInserted ∧
    (p.batch.rowPointers.getD []).take p.batch.rowPointerCount = [some ⟨0, 1⟩, some ⟨0, 2⟩, some ⟨0, 3⟩] := by
  have hrun : (((Producer.start 10).calls 7 threeRows).toOption.map fun p =>
      (p.batch.rowPointerTrackingEnabled, p.batch.rowPointerCount, p.rowsInserted, p.rows)) =
        some (true, 3, 3, [(10, ⟨0, 1⟩), (11, ⟨0, 2⟩), (12, ⟨0, 3⟩)]) := by decide +kernel
  have hfits : 10 < u64Size := by decide
  rcases tracking_complete (Nat.le_refl 7) hfits threeRows (by decide) with herror | ⟨p, hp, -, -, -, -, -, hall⟩
  · rw [herror] at hrun
    cases hrun
  · rw [hp] at hrun
    simp only [Except.toOption, Option.map_some, Option.some.injEq, Prod.mk.injEq] at hrun
    obtain ⟨htracking, hcount, hinserted, hrows⟩ := hrun
    refine ⟨p, hp, htracking, hcount.trans hinserted.symm, ?_⟩
    rw [hall htracking (hcount.trans hinserted.symm), hrows]
    rfl

end PgDucklake.Pointers
