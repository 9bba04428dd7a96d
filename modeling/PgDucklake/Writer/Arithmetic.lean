import PgDucklake.Lib.Traced
import PgDucklake.Queue.Runs
import PgDucklake.Writer.Payload
import PgDucklake.Writer.Protocol

/-!
# Arithmetic on ids

The functions that compute with snapshot, row and file ids, with every sum and difference noted (`IdOp`). Each noted function
computes what its model without notes computes (`value_*`), so the notes are those of the code that the other modules reason
about. An operation fits if the exact result is an id of the protocol (`IdOp.Fits`).

- `all_rowFrontier`, `all_staleRows`: a test of a slot's row range fits exactly if the slot's row count does;
- `all_reservePass`, `all_waitIteration`: so does a critical section of the queue, by the slots whose ranges it tests;
- `all_prepareCandidates`, `all_attempt`, `all_retagPrewrittenRows`: the writer's own arithmetic is behind its checks;
- `ids_fit_iff`: all calls.
-/

namespace PgDucklake.Ids

open Lib Queue

/-! ## Noted operations -/

/-- A sum or difference on ids, by its operands. -/
inductive IdOp
  | add (a b : Nat)
  | sub (a b : Nat)
  /-- `a + b - c`, of which `a + b` is neither stored nor compared. -/
  | shift (a b c : Nat)
  /-- `a - b` on `int64_t`. -/
  | delta (a b : Nat)
deriving DecidableEq, Repr

/-- The machine computes the exact result, and it is in the range of the protocol. -/
def IdOp.Fits : IdOp → Prop
  | .add a b => a + b ≤ int64Max
  | .sub a b => b ≤ a ∧ a - b ≤ int64Max
  | .shift a b c => a + b < u64Size ∧ c ≤ a + b ∧ a + b - c ≤ int64Max
  | .delta a b => a ≤ int64Max ∧ b ≤ int64Max

instance : DecidablePred IdOp.Fits := fun op => by
  cases op <;> unfold IdOp.Fits <;> infer_instance

def add (a b : Nat) : Traced IdOp Nat := .note (.add a b) (u64Add a b)

def sub (a b : Nat) : Traced IdOp Nat := .note (.sub a b) (u64Sub a b)

/-! ## The queue -/

/-- `Queue.rowFrontier`. -/
def rowFrontier (slot : ReservationSlot) : Traced IdOp (Option Nat) := do
  let room ← sub int64Max slot.rowCount
  if slot.candidateRowId ≤ room then
    let rowId ← add slot.candidateRowId slot.rowCount
    pure (some rowId)
  else pure none

/-- `Queue.nextRowIdAfter`. -/
def nextRowIdAfter (previous : ReservationSlot) : Traced IdOp (Option Nat) :=
  if previous.rowAssigned && previous.rowCountKnown then rowFrontier previous else pure none

/-- `Queue.staleRows`. -/
def staleRows (lastTable : ReservationSlot) (observedNextRowId : Nat) : Traced IdOp Bool :=
  if lastTable.rowAssigned && lastTable.rowCountKnown then do
    let room ← sub int64Max lastTable.rowCount
    let overflow := decide (room < lastTable.candidateRowId)
    let expectedFrontier ← if overflow then pure 0 else add lastTable.candidateRowId lastTable.rowCount
    pure (overflow || (if lastTable.committed then decide (expectedFrontier < observedNextRowId)
      else decide (lastTable.candidateRowId < observedNextRowId)))
  else pure false

/-- `Queue.dropStale`. -/
def dropStale (a : ReserveArgs) (slots : List ReservationSlot) : Traced IdOp (List ReservationSlot) :=
  let slots := reclaimInvalidSlots slots
  match lastValidSlot slots a.catalog a.tableId false with
  | none => pure slots
  | some last =>
    if staleSnapshot last a.observedSnapshotId then pure (reclaimInvalidSlots (invalidateCatalog a.catalog slots))
    else
      match lastValidSlot slots a.catalog a.tableId true with
      | none => pure slots
      | some lastTable => do
        let stale ← staleRows lastTable a.observedNextRowId
        pure (if stale then reclaimInvalidSlots (invalidateCatalog a.catalog slots) else slots)

/-- `Queue.assignSnapshot`. -/
def assignSnapshot (a : ReserveArgs) (slots : List ReservationSlot) (slot : ReservationSlot) :
    Traced IdOp ReservationSlot :=
  match lastPriorSlot slots slot false with
  | some previous =>
    if previous.candidateSnapshotId < int64Max then do
      let snapshotId ← add previous.candidateSnapshotId 1
      pure { slot with candidateSnapshotId := snapshotId }
    else do
      let snapshotId ← add a.observedSnapshotId 1
      pure { slot with candidateSnapshotId := snapshotId, valid := false }
  | none => do
    let snapshotId ← add a.observedSnapshotId 1
    pure { slot with candidateSnapshotId := snapshotId }

/-- `Queue.assignRows`. -/
def assignRows (a : ReserveArgs) (slots : List ReservationSlot) (slot : ReservationSlot) : Traced IdOp ReservationSlot :=
  match lastPriorSlot slots slot true with
  | none => pure { slot with candidateRowId := a.observedNextRowId, rowAssigned := true }
  | some previousTable => do
    match ← nextRowIdAfter previousTable with
    | some rowId => pure { slot with candidateRowId := rowId, rowAssigned := true }
    | none => pure slot

/-- `Queue.reservePass`, a pass of `ReserveNativeWriterPublication`. -/
def reservePass (a : ReserveArgs) (q : QueueShmem) : Traced IdOp (QueueShmem × ReservePass) := do
  let kept ← dropStale a q.slots
  match takeFreeSlot kept with
  | (slots, none) => pure ({ q with slots := slots }, .full)
  | (slots, some index) =>
    if q.nextTicket == u64Max then pure ({ q with slots := slots }, .noTicket)
    else
      let fresh := freshSlot a q.nextTicket
      let placed := slots.set index fresh
      let slot ← assignSnapshot a placed fresh
      let slot ← assignRows a placed slot
      pure (⟨q.nextTicket + 1, slots.set index slot⟩, .registered ⟨⟨index, q.nextTicket, true⟩, false⟩ slot)

/-- `Queue.waitIteration`, an iteration of `WaitUntilReadyImpl`. -/
def waitIteration (q : QueueShmem) (reservation : NativeWriterReservation) (publicationWait : Bool)
    (now budgetMs : Int) : Traced IdOp (QueueShmem × WaitOutcome) :=
  match findSlot q.slots reservation with
  | none => pure (q, .gone)
  | some (index, slot) =>
    if !slot.valid then pure (q, .gone)
    else if publicationWait then
      if (firstPendingSlot q.slots slot.catalog).any (·.ticket == slot.ticket) then pure (q, .ready)
      else pure (waitBlocked q index slot publicationWait now budgetMs)
    else
      match lastPriorSlot q.slots slot true with
      | none =>
        if slot.rowAssigned then pure (q, .ready) else pure (waitBlocked q index slot publicationWait now budgetMs)
      | some previous =>
        if previous.rowAssigned && previous.rowCountKnown then do
          match ← rowFrontier previous with
          | some rowId =>
            pure ({ q with slots := q.slots.set index { slot with candidateRowId := rowId, rowAssigned := true } }, .ready)
          | none =>
            pure (waitBlocked { q with slots := invalidateFrom slot.catalog slot.ticket q.slots } index
              { slot with valid := false } publicationWait now budgetMs)
        else pure (waitBlocked q index slot publicationWait now budgetMs)

/-! The notes do not change what is computed. -/

@[simp] theorem value_add (a b : Nat) : (add a b).value = u64Add a b := rfl

@[simp] theorem value_sub (a b : Nat) : (sub a b).value = u64Sub a b := rfl

@[simp] theorem value_rowFrontier (slot : ReservationSlot) : (rowFrontier slot).value = Queue.rowFrontier slot := by
  unfold rowFrontier Queue.rowFrontier
  by_cases hroom : slot.candidateRowId ≤ u64Sub int64Max slot.rowCount <;> simp [hroom]

@[simp] theorem value_nextRowIdAfter (previous : ReservationSlot) :
    (nextRowIdAfter previous).value = Queue.nextRowIdAfter previous := by
  simp [nextRowIdAfter, Queue.nextRowIdAfter]

@[simp] theorem value_staleRows (lastTable : ReservationSlot) (observedNextRowId : Nat) :
    (staleRows lastTable observedNextRowId).value = Queue.staleRows lastTable observedNextRowId := by
  unfold staleRows Queue.staleRows
  cases lastTable.rowAssigned && lastTable.rowCountKnown with
  | false => rfl
  | true =>
    by_cases hroom : u64Sub int64Max lastTable.rowCount < lastTable.candidateRowId
    · simp [hroom]
    · simp only [if_true, Traced.value_bind, value_sub, hroom, decide_false, Bool.false_eq_true, if_false]
      rfl

@[simp] theorem value_dropStale (a : ReserveArgs) (slots : List ReservationSlot) :
    (dropStale a slots).value = Queue.dropStale a slots := by
  unfold dropStale Queue.dropStale
  dsimp only
  cases lastValidSlot (reclaimInvalidSlots slots) a.catalog a.tableId false with
  | none => rfl
  | some last => cases lastValidSlot (reclaimInvalidSlots slots) a.catalog a.tableId true <;> simp

@[simp] theorem value_assignSnapshot (a : ReserveArgs) (slots : List ReservationSlot) (slot : ReservationSlot) :
    (assignSnapshot a slots slot).value = Queue.assignSnapshot a slots slot := by
  unfold assignSnapshot Queue.assignSnapshot
  cases lastPriorSlot slots slot false <;> simp

@[simp] theorem value_assignRows (a : ReserveArgs) (slots : List ReservationSlot) (slot : ReservationSlot) :
    (assignRows a slots slot).value = Queue.assignRows a slots slot := by
  unfold assignRows Queue.assignRows
  cases lastPriorSlot slots slot true with
  | none => rfl
  | some previous =>
    simp only [Traced.value_bind, value_nextRowIdAfter]
    cases Queue.nextRowIdAfter previous <;> rfl

theorem value_reservePass (a : ReserveArgs) (q : QueueShmem) : (reservePass a q).value = Queue.reservePass a q := by
  unfold reservePass Queue.reservePass
  simp only [Traced.value_bind, value_dropStale]
  obtain ⟨slots, free⟩ := takeFreeSlot (Queue.dropStale a q.slots)
  cases free <;> simp

theorem value_waitIteration (q : QueueShmem) (r : NativeWriterReservation) (publicationWait : Bool) (now budgetMs : Int) :
    (waitIteration q r publicationWait now budgetMs).value = Queue.waitIteration q r publicationWait now budgetMs := by
  unfold waitIteration Queue.waitIteration
  cases findSlot q.slots r with
  | none => rfl
  | some found =>
    obtain ⟨index, slot⟩ := found
    dsimp only
    cases lastPriorSlot q.slots slot true with
    | none => simp
    | some previous =>
      simp only [Traced.value_ite, Traced.value_pure, Traced.value_bind, value_rowFrontier]
      cases Queue.rowFrontier previous <;> rfl

/-! ## Tested ranges -/

/-- The slot's row range, if its test is reached. -/
def tests (slot : Option ReservationSlot) : List ReservationSlot :=
  (slot.filter fun slot => slot.rowAssigned && slot.rowCountKnown).toList

/-- The slots whose row ranges `dropStale` tests. -/
def testedStale (a : ReserveArgs) (slots : List ReservationSlot) : List ReservationSlot :=
  let slots := reclaimInvalidSlots slots
  match lastValidSlot slots a.catalog a.tableId false with
  | none => []
  | some last =>
    if staleSnapshot last a.observedSnapshotId then [] else tests (lastValidSlot slots a.catalog a.tableId true)

/-- The slots whose row ranges a pass of Reserve tests: the table's last one when it looks for stale predictions, and the
predecessor of the new slot. -/
def testedByReserve (a : ReserveArgs) (q : QueueShmem) : List ReservationSlot :=
  testedStale a q.slots ++
    match takeFreeSlot (Queue.dropStale a q.slots) with
    | (_, none) => []
    | (slots, some index) =>
      if q.nextTicket == u64Max then []
      else
        let placed := slots.set index (freshSlot a q.nextTicket)
        tests (lastPriorSlot placed (Queue.assignSnapshot a placed (freshSlot a q.nextTicket)) true)

/-- The slots whose row ranges an iteration of a wait tests. -/
def testedByWait (q : QueueShmem) (r : NativeWriterReservation) (publicationWait : Bool) : List ReservationSlot :=
  match findSlot q.slots r with
  | none => []
  | some (_, slot) => if !slot.valid || publicationWait then [] else tests (lastPriorSlot q.slots slot true)

/-- The row counts of tested slots are in the range of the protocol. -/
def CountsFit (slots : List ReservationSlot) : Prop := ∀ slot ∈ slots, slot.rowCount ≤ int64Max

theorem countsFit_append {l₁ l₂ : List ReservationSlot} : CountsFit (l₁ ++ l₂) ↔ CountsFit l₁ ∧ CountsFit l₂ :=
  List.forall_mem_append

theorem countsFit_tests {slot : ReservationSlot} :
    CountsFit (tests (some slot)) ↔ ((slot.rowAssigned && slot.rowCountKnown) = true → slot.rowCount ≤ int64Max) := by
  unfold tests CountsFit
  cases hknown : (slot.rowAssigned && slot.rowCountKnown) <;> simp only [Option.filter, hknown] <;> simp

theorem fits_sub {n : Nat} : (IdOp.sub int64Max n).Fits ↔ n ≤ int64Max :=
  ⟨And.left, fun h => ⟨h, Nat.sub_le _ _⟩⟩

theorem fits_add_of_le {candidate rowCount : Nat} (hcount : rowCount ≤ int64Max)
    (h : candidate ≤ u64Sub int64Max rowCount) : (IdOp.add candidate rowCount).Fits := by
  rw [u64Sub_of_le hcount (by decide)] at h
  simp only [IdOp.Fits]
  omega

@[simp] theorem all_add (a b : Nat) : (add a b).All IdOp.Fits ↔ (IdOp.add a b).Fits := Traced.all_note _ _

@[simp] theorem all_sub (a b : Nat) : (sub a b).All IdOp.Fits ↔ (IdOp.sub a b).Fits := Traced.all_note _ _

theorem all_rowFrontier (slot : ReservationSlot) : (rowFrontier slot).All IdOp.Fits ↔ slot.rowCount ≤ int64Max := by
  rw [rowFrontier, Traced.all_bind, all_sub, fits_sub]
  refine and_iff_left_of_imp fun hcount => ?_
  by_cases hroom : slot.candidateRowId ≤ u64Sub int64Max slot.rowCount
  · simpa [hroom] using fits_add_of_le hcount hroom
  · simp [hroom]

theorem all_nextRowIdAfter (previous : ReservationSlot) :
    (nextRowIdAfter previous).All IdOp.Fits ↔ CountsFit (tests (some previous)) := by
  rw [countsFit_tests, nextRowIdAfter]
  split
  · rename_i hknown
    rw [all_rowFrontier]
    exact ⟨fun h _ => h, fun h => h hknown⟩
  · rename_i hunknown
    exact ⟨fun _ h => absurd h hunknown, fun _ => (Traced.all_pure _).mpr trivial⟩

theorem all_staleRows (lastTable : ReservationSlot) (observedNextRowId : Nat) :
    (staleRows lastTable observedNextRowId).All IdOp.Fits ↔ CountsFit (tests (some lastTable)) := by
  rw [countsFit_tests, staleRows]
  split
  · rename_i hknown
    rw [Traced.all_bind, all_sub, fits_sub]
    refine ⟨fun h _ => h.1, fun h => ⟨h hknown, ?_⟩⟩
    by_cases hroom : u64Sub int64Max lastTable.rowCount < lastTable.candidateRowId
    · simp [hroom]
    · simpa [hroom] using fits_add_of_le (h hknown) (Nat.not_lt.mp hroom)
  · rename_i hunknown
    exact ⟨fun _ h => absurd h hunknown, fun _ => (Traced.all_pure _).mpr trivial⟩

theorem countsFit_nil : CountsFit [] := fun _ h => nomatch h

theorem all_dropStale (a : ReserveArgs) (slots : List ReservationSlot) :
    (dropStale a slots).All IdOp.Fits ↔ CountsFit (testedStale a slots) := by
  unfold dropStale testedStale
  dsimp only
  cases lastValidSlot (reclaimInvalidSlots slots) a.catalog a.tableId false with
  | none => simp [countsFit_nil]
  | some last =>
    dsimp only
    by_cases hstale : staleSnapshot last a.observedSnapshotId = true
    · simp [hstale, countsFit_nil]
    · rw [if_neg hstale, if_neg hstale]
      cases lastValidSlot (reclaimInvalidSlots slots) a.catalog a.tableId true with
      | none => simp [tests, countsFit_nil]
      | some lastTable => simp [all_staleRows]

variable {a : ReserveArgs}

theorem all_assignSnapshot (hobserved : a.observedSnapshotId < int64Max) (slots : List ReservationSlot)
    (slot : ReservationSlot) : (assignSnapshot a slots slot).All IdOp.Fits := by
  have hfits : (IdOp.add a.observedSnapshotId 1).Fits := hobserved
  unfold assignSnapshot
  cases lastPriorSlot slots slot false with
  | none => simpa using hfits
  | some previous =>
    dsimp only
    split
    · rename_i hlast
      have hlastFits : (IdOp.add previous.candidateSnapshotId 1).Fits := hlast
      simpa using hlastFits
    · simpa using hfits

theorem all_assignRows (a : ReserveArgs) (slots : List ReservationSlot) (slot : ReservationSlot) :
    (assignRows a slots slot).All IdOp.Fits ↔ CountsFit (tests (lastPriorSlot slots slot true)) := by
  unfold assignRows
  cases lastPriorSlot slots slot true with
  | none => simp [tests, countsFit_nil]
  | some previous =>
    simp only [Traced.all_bind, all_nextRowIdAfter, value_nextRowIdAfter]
    refine and_iff_left ?_
    cases Queue.nextRowIdAfter previous <;> simp

/-- **A pass of Reserve** fits exactly if the row counts of the slots it tests do. -/
theorem all_reservePass (hobserved : a.observedSnapshotId < int64Max) (q : QueueShmem) :
    (reservePass a q).All IdOp.Fits ↔ CountsFit (testedByReserve a q) := by
  rw [reservePass, testedByReserve, Traced.all_bind, all_dropStale, countsFit_append, value_dropStale]
  refine and_congr_right fun _ => ?_
  obtain ⟨slots, free⟩ := takeFreeSlot (Queue.dropStale a q.slots)
  cases free with
  | none => simp [countsFit_nil]
  | some index =>
    dsimp only
    by_cases hlast : (q.nextTicket == u64Max) = true
    · simp [hlast, countsFit_nil]
    · rw [if_neg hlast, if_neg hlast]
      simp [all_assignSnapshot hobserved, all_assignRows]

/-- **An iteration of a wait** fits exactly if the row counts of the slots it tests do. -/
theorem all_waitIteration (q : QueueShmem) (r : NativeWriterReservation) (publicationWait : Bool) (now budgetMs : Int) :
    (waitIteration q r publicationWait now budgetMs).All IdOp.Fits ↔ CountsFit (testedByWait q r publicationWait) := by
  unfold waitIteration testedByWait
  cases findSlot q.slots r with
  | none => simp [countsFit_nil]
  | some found =>
    obtain ⟨index, slot⟩ := found
    dsimp only
    cases hvalid : slot.valid with
    | false => simp [countsFit_nil]
    | true =>
      cases publicationWait with
      | true =>
        simp only [Bool.not_true, Bool.false_eq_true, if_false, if_true, Bool.false_or]
        split <;> simp [countsFit_nil]
      | false =>
        simp only [Bool.not_true, Bool.false_eq_true, if_false, Bool.or_false]
        cases lastPriorSlot q.slots slot true with
        | none =>
          dsimp only
          split <;> simp [tests, countsFit_nil]
        | some previous =>
          dsimp only
          rw [countsFit_tests]
          split
          · rename_i hknown
            simp only [Traced.all_bind, all_rowFrontier, value_rowFrontier]
            refine ⟨fun h _ => h.1, fun h => ⟨h hknown, ?_⟩⟩
            cases Queue.rowFrontier previous <;> simp
          · rename_i hunknown
            exact ⟨fun _ h => absurd h hunknown, fun _ => (Traced.all_pure _).mpr trivial⟩

/-! ## The writer -/

section Writer

open Writer (Batch PublicationState WriterError Env)

variable {γ : Type}

/-- The default candidates of `PrepareNativeInlineWrite`. -/
def prepareCandidates (b : Batch) (st : PublicationState) : Traced IdOp (Except WriterError (Nat × Nat)) :=
  match Writer.checkPreparedState b st with
  | .error e => pure (.error e)
  | .ok () => do
    let candidateSnapshotId ← add st.snapshotId 1
    pure (.ok (candidateSnapshotId, st.nextRowId))

/-- The last check of an attempt, on the ids. -/
def checkIds (b : Batch) (st : PublicationState) : Traced IdOp (Except WriterError Unit) :=
  if int64Max ≤ st.snapshotId || int64Max ≤ st.nextFileId || int64Max < b.rowsInserted then pure (.error .exhaustedIds)
  else do
    let room ← sub int64Max b.rowsInserted
    let room' ← sub int64Max b.rowsInserted
    pure (if decide (room < st.nextRowId) || decide (room' < st.recordCount) then .error .exhaustedIds else .ok ())

/-- `Writer.checkPublicationState`, the checks of an attempt of `PublishNativeInlineWrite`. -/
def checkPublicationState (env : Env) (b : Batch) (st : PublicationState) : Traced IdOp (Except WriterError Unit) :=
  match Writer.validateBinding b st with
  | .error e => pure (.error e)
  | .ok () =>
    if st.snapshotId < b.startSnapshotId then pure (.error .incompleteChangeHistory)
    else do
      let changes ← sub st.snapshotId b.startSnapshotId
      let nonnullChanges ← sub st.snapshotId b.startSnapshotId
      if st.changeRowCount != changes || st.nonnullChangeCount != nonnullChanges then
        pure (.error .incompleteChangeHistory)
      else
        match env.checkInterveningChanges st.changesMade b.tableId with
        | .conflict => pure (.error (.conflictingChange b.tableId))
        | .invalid => pure (.error .invalidChangeRecord)
        | .outOfMemory => pure (.error .outOfMemory)
        | .ok => checkIds b st

/-- The rows that `RunPublicationAttempt` writes with new ids: the claimed snapshot and the table statistics. -/
def attemptRows (b : Batch) (st : PublicationState) : Traced IdOp (Writer.SnapshotRow × Writer.TableStatsRow) := do
  let finalSnapshotId ← add st.snapshotId 1
  let nextFileId ← add st.nextFileId 1
  let recordCount ← if st.hasTableStats then add st.recordCount b.rowsInserted else pure b.rowsInserted
  let nextRowId ← add st.nextRowId b.rowsInserted
  pure (⟨finalSnapshotId, st.schemaVersion, st.nextCatalogId, nextFileId⟩, ⟨b.tableId, recordCount, nextRowId⟩)

/-- `Payload.identityChanged`. -/
def identityChanged (b : Batch) (v : Version (Payload.Row γ)) : Traced IdOp Bool :=
  match v.data.rowId, v.data.beginSnapshot with
  | some rowId, some snapshotId =>
    if v.xmin != b.ownerXid || v.cmin != b.ownerCommandId || snapshotId.toU64 != b.candidateSnapshotId ||
        decide (rowId.toU64 < b.candidateRowId) then pure true
    else do
      let offset ← sub rowId.toU64 b.candidateRowId
      pure (decide (b.rowsInserted ≤ offset))
  | _, _ => pure true

/-- `Payload.replacement`. -/
def replacement (b : Batch) (finalSnapshotId finalRowId : Nat) (row : Payload.Row γ) : Traced IdOp (Payload.Row γ) := do
  let rowId := (row.rowId.map I64.toU64).getD 0
  let shifted ← Traced.note (.shift finalRowId rowId b.candidateRowId) (u64Sub (u64Add finalRowId rowId) b.candidateRowId)
  pure { row with rowId := some (.ofU64 shifted), beginSnapshot := some (.ofU64 finalSnapshotId) }

/-- `Payload.retagInplace`, the loop of `RetagPrewrittenRowsInplace`. -/
def retagInplace (sees : Nat → Bool) (b : Batch) (finalSnapshotId finalRowId : Nat) :
    List Nat → List (Version (Payload.Row γ)) → Traced IdOp (Except Payload.RetagError (List (Version (Payload.Row γ))))
  | [], heap => pure (.ok heap)
  | pointer :: pointers, heap =>
    match heap[pointer]? with
    | none => pure (.error (.writer .rowDisappeared))
    | some v =>
      if !(Payload.inRelation b v && v.visible sees) then pure (.error (.writer .rowDisappeared))
      else do
        let changed ← identityChanged b v
        if changed then pure (.error (.writer .rowIdentityChanged))
        else do
          let row ← replacement b finalSnapshotId finalRowId v.data
          retagInplace sees b finalSnapshotId finalRowId pointers (heap.set pointer { v with data := row })

/-- `Payload.retagPrewrittenRows`. The UPDATE has `row_delta` and the end of the candidate range in its text; the sum in
its SET clause is checked by PostgreSQL. -/
def retagPrewrittenRows (sees : Nat → Bool) (b : Batch) (finalSnapshotId finalRowId : Nat) (supportsInplace : Bool)
    (xid commandId : Nat) (heap : List (Version (Payload.Row γ))) :
    Traced IdOp (Except Payload.RetagError (List (Version (Payload.Row γ)))) :=
  if !b.inlineTableBound then pure (.error (.writer .notBound))
  else if b.rowPointerTrackingEnabled && b.rowPointers.length == b.rowsInserted && supportsInplace then
    retagInplace sees b finalSnapshotId finalRowId b.rowPointers heap
  else do
    let _ ← Traced.note (.delta finalRowId b.candidateRowId) (Payload.rowDelta b finalRowId)
    let _ ← add b.candidateRowId b.rowsInserted
    pure (Payload.retagUpdate sees b finalSnapshotId finalRowId xid commandId heap)

theorem value_checkIds (b : Batch) (st : PublicationState) : (checkIds b st).value =
    if int64Max ≤ st.snapshotId || int64Max ≤ st.nextFileId || int64Max < b.rowsInserted ||
        int64Max - b.rowsInserted < st.nextRowId || int64Max - b.rowsInserted < st.recordCount then .error .exhaustedIds
    else .ok () := by
  unfold checkIds
  cases hfirst : decide (int64Max ≤ st.snapshotId) || decide (int64Max ≤ st.nextFileId) ||
      decide (int64Max < b.rowsInserted) with
  | true => rfl
  | false =>
    have hrows : b.rowsInserted ≤ int64Max := by
      simp only [Bool.or_eq_false_iff, decide_eq_false_iff_not, Nat.not_lt] at hfirst
      exact hfirst.2
    simp only [Bool.false_eq_true, if_false, Traced.value_bind, value_sub, Traced.value_pure, Bool.false_or,
      u64Sub_of_le hrows (show int64Max < u64Size by decide)]

variable {st : PublicationState}

theorem value_checkPublicationState (env : Env) (b : Batch) (hsnapshot : st.snapshotId ≤ int64Max) :
    (checkPublicationState env b st).value = Writer.checkPublicationState env b st := by
  have hword : st.snapshotId < u64Size := Nat.lt_of_le_of_lt hsnapshot (by decide)
  unfold checkPublicationState Writer.checkPublicationState
  cases Writer.validateBinding b st with
  | error e => rfl
  | ok u =>
    dsimp only
    by_cases hstart : st.snapshotId < b.startSnapshotId
    · simp [hstart]
    · have hsub : u64Sub st.snapshotId b.startSnapshotId = st.snapshotId - b.startSnapshotId :=
        u64Sub_of_le (Nat.not_lt.mp hstart) hword
      simp only [hstart, if_false, decide_false, Bool.false_or, Traced.value_bind, value_sub, hsub]
      cases st.changeRowCount != st.snapshotId - b.startSnapshotId ||
          st.nonnullChangeCount != st.snapshotId - b.startSnapshotId with
      | true => rfl
      | false =>
        simp only [Bool.false_eq_true, if_false]
        cases env.checkInterveningChanges st.changesMade b.tableId with
        | ok => exact value_checkIds b st
        | conflict => rfl
        | invalid => rfl
        | outOfMemory => rfl

variable {b : Batch}

theorem value_attemptRows (h : Writer.InRange b st) :
    (attemptRows b st).value = (Writer.claimRow st,
      ⟨b.tableId, (if st.hasTableStats then st.recordCount else 0) + b.rowsInserted, Writer.finalRowId st + b.rowsInserted⟩) := by
  have hword : int64Max < u64Size := by decide
  have hsnapshot : u64Add st.snapshotId 1 = st.snapshotId + 1 := u64Add_of_lt (Nat.lt_of_le_of_lt h.snapshot hword)
  have hfile : u64Add st.nextFileId 1 = st.nextFileId + 1 := u64Add_of_lt (Nat.lt_of_le_of_lt h.nextFile hword)
  have hrow : u64Add st.nextRowId b.rowsInserted = st.nextRowId + b.rowsInserted :=
    u64Add_of_lt (Nat.lt_of_le_of_lt h.nextRow hword)
  have hrecords : u64Add st.recordCount b.rowsInserted = st.recordCount + b.rowsInserted :=
    u64Add_of_lt (Nat.lt_of_le_of_lt h.recordCount hword)
  cases hstats : st.hasTableStats <;>
    simp [attemptRows, hstats, hsnapshot, hfile, hrow, hrecords, Writer.claimRow, Writer.finalSnapshotId, Writer.finalRowId]

@[simp] theorem value_identityChanged (b : Batch) (v : Version (Payload.Row γ)) :
    (identityChanged b v).value = Payload.identityChanged b v := by
  unfold identityChanged Payload.identityChanged
  cases v.data.rowId with
  | none => rfl
  | some rowId =>
    cases v.data.beginSnapshot with
    | none => rfl
    | some snapshotId =>
      dsimp only
      split
      · rename_i hchanged
        rw [hchanged]
        rfl
      · rename_i hsame
        rw [Bool.not_eq_true] at hsame
        rw [hsame]
        rfl

theorem value_retagInplace (sees : Nat → Bool) (b : Batch) (finalSnapshotId finalRowId : Nat) (pointers : List Nat)
    (heap : List (Version (Payload.Row γ))) :
    (retagInplace sees b finalSnapshotId finalRowId pointers heap).value =
      Payload.retagInplace sees b finalSnapshotId finalRowId pointers heap := by
  induction pointers generalizing heap with
  | nil => rfl
  | cons pointer pointers ih =>
    rw [retagInplace, Payload.retagInplace]
    cases heap[pointer]? with
    | none => rfl
    | some v =>
      dsimp only
      split
      · rfl
      · rw [Traced.value_bind, value_identityChanged]
        split
        · rfl
        · exact ih _

theorem value_retagPrewrittenRows (sees : Nat → Bool) (b : Batch) (finalSnapshotId finalRowId : Nat) (supportsInplace : Bool)
    (xid commandId : Nat) (heap : List (Version (Payload.Row γ))) :
    (retagPrewrittenRows sees b finalSnapshotId finalRowId supportsInplace xid commandId heap).value =
      Payload.retagPrewrittenRows sees b finalSnapshotId finalRowId supportsInplace xid commandId heap := by
  unfold retagPrewrittenRows Payload.retagPrewrittenRows
  split
  · rfl
  · split
    · exact value_retagInplace _ _ _ _ _ _
    · rfl

theorem checkPreparedState_snapshot (h : Writer.checkPreparedState b st = .ok ()) :
    st.snapshotId < int64Max := by
  unfold Writer.checkPreparedState at h
  split at h
  · cases h
  · split at h
    · cases h
    · rename_i hids
      simp only [Bool.or_eq_true, decide_eq_true_eq, not_or, Nat.not_le] at hids
      exact hids.1

theorem all_prepareCandidates (b : Batch) (st : PublicationState) : (prepareCandidates b st).All IdOp.Fits := by
  unfold prepareCandidates
  split
  · exact (Traced.all_pure _).mpr trivial
  · rename_i hchecked
    have hfits : (IdOp.add st.snapshotId 1).Fits := checkPreparedState_snapshot hchecked
    simpa using hfits

theorem all_checkIds (b : Batch) (st : PublicationState) : (checkIds b st).All IdOp.Fits := by
  unfold checkIds
  split
  · exact (Traced.all_pure _).mpr trivial
  · rename_i hids
    simp only [Bool.or_eq_true, decide_eq_true_eq, not_or, Nat.not_lt] at hids
    simp [fits_sub.mpr hids.2]

theorem all_checkPublicationState (env : Env) (b : Batch) (hsnapshot : st.snapshotId ≤ int64Max) :
    (checkPublicationState env b st).All IdOp.Fits := by
  unfold checkPublicationState
  split
  · exact (Traced.all_pure _).mpr trivial
  · split
    · exact (Traced.all_pure _).mpr trivial
    · rename_i hstart
      have hfits : (IdOp.sub st.snapshotId b.startSnapshotId).Fits := ⟨Nat.not_lt.mp hstart, by omega⟩
      refine (Traced.all_bind _ _).mpr ⟨(all_sub _ _).mpr hfits, (Traced.all_bind _ _).mpr ⟨(all_sub _ _).mpr hfits, ?_⟩⟩
      cases hchanges : st.changeRowCount != (sub st.snapshotId b.startSnapshotId).value ||
          st.nonnullChangeCount != (sub st.snapshotId b.startSnapshotId).value with
      | true => exact (Traced.all_pure _).mpr trivial
      | false =>
        rw [if_neg Bool.false_ne_true]
        cases env.checkInterveningChanges st.changesMade b.tableId with
        | ok => exact all_checkIds b st
        | conflict => exact (Traced.all_pure _).mpr trivial
        | invalid => exact (Traced.all_pure _).mpr trivial
        | outOfMemory => exact (Traced.all_pure _).mpr trivial

theorem all_attemptRows (h : Writer.InRange b st) :
    (attemptRows b st).All IdOp.Fits := by
  have hsnapshot : (IdOp.add st.snapshotId 1).Fits := h.snapshot
  have hfile : (IdOp.add st.nextFileId 1).Fits := h.nextFile
  have hrow : (IdOp.add st.nextRowId b.rowsInserted).Fits := h.nextRow
  have hrecords : (IdOp.add st.recordCount b.rowsInserted).Fits := h.recordCount
  cases hstats : st.hasTableStats <;> simp [attemptRows, hstats, hsnapshot, hfile, hrow, hrecords]

/-- The row ids of a relation are ids of the protocol. -/
def RowIdsInRange (heap : List (Version (Payload.Row γ))) : Prop :=
  ∀ v ∈ heap, ∀ rowId : I64, v.data.rowId = some rowId → 0 ≤ rowId.val

theorem toU64_le_of_nonneg {i : I64} (h : 0 ≤ i.val) : i.toU64 ≤ int64Max := by
  have hcast := I64.toU64_of_nonneg h
  have hlt := i.lt
  unfold int64Max
  omega

variable {v : Version (Payload.Row γ)}

theorem all_identityChanged (b : Batch) (hrow : ∀ rowId : I64, v.data.rowId = some rowId → 0 ≤ rowId.val) :
    (identityChanged b v).All IdOp.Fits := by
  unfold identityChanged
  split
  · rename_i rowId snapshotId hrowId hsnapshotId
    split
    · exact (Traced.all_pure _).mpr trivial
    · rename_i hsame
      simp only [Bool.or_eq_true, decide_eq_true_eq, not_or, Nat.not_lt] at hsame
      have hle := toU64_le_of_nonneg (hrow rowId hrowId)
      have hfits : (IdOp.sub rowId.toU64 b.candidateRowId).Fits := ⟨hsame.2, by omega⟩
      simpa using hfits
  · exact (Traced.all_pure _).mpr trivial

theorem rowId_of_not_identityChanged (h : Payload.identityChanged b v = false)
    (hrow : ∀ rowId : I64, v.data.rowId = some rowId → 0 ≤ rowId.val) :
    ∃ rowId : I64, v.data.rowId = some rowId ∧ rowId.toU64 ≤ int64Max ∧ b.candidateRowId ≤ rowId.toU64 ∧
      rowId.toU64 - b.candidateRowId < b.rowsInserted := by
  unfold Payload.identityChanged at h
  split at h
  · rename_i rowId snapshotId hrowId hsnapshotId
    simp only [Bool.or_eq_false_iff, decide_eq_false_iff_not, Nat.not_lt, Nat.not_le] at h
    have hle := toU64_le_of_nonneg (hrow rowId hrowId)
    rw [u64Sub_of_le h.1.2 (Nat.lt_of_le_of_lt hle (by decide))] at h
    exact ⟨rowId, hrowId, hle, h.1.2, h.2⟩
  · cases h

variable {finalRowId : Nat} {heap : List (Version (Payload.Row γ))}

theorem all_retagInplace (sees : Nat → Bool) (finalSnapshotId : Nat) (hfinal : finalRowId + b.rowsInserted ≤ int64Max)
    (pointers : List Nat) (hheap : RowIdsInRange heap) :
    (retagInplace sees b finalSnapshotId finalRowId pointers heap).All IdOp.Fits := by
  induction pointers generalizing heap with
  | nil => exact (Traced.all_pure _).mpr trivial
  | cons pointer pointers ih =>
    rw [retagInplace]
    cases hv : heap[pointer]? with
    | none => exact (Traced.all_pure _).mpr trivial
    | some v =>
      have hrow := hheap v (List.mem_of_getElem? hv)
      dsimp only
      split
      · exact (Traced.all_pure _).mpr trivial
      · refine (Traced.all_bind _ _).mpr ⟨all_identityChanged b hrow, ?_⟩
        rw [value_identityChanged]
        cases hchanged : Payload.identityChanged b v with
        | true => exact (Traced.all_pure _).mpr trivial
        | false =>
          obtain ⟨rowId, hrowId, hle, hcandidate, hoffset⟩ := rowId_of_not_identityChanged hchanged hrow
          have hword : int64Max + int64Max < u64Size := by decide
          have hsum : u64Sub (u64Add finalRowId rowId.toU64) b.candidateRowId =
              finalRowId + rowId.toU64 - b.candidateRowId := by
            rw [u64Add_of_lt (by omega), u64Sub_of_le (by omega) (by omega)]
          rw [if_neg Bool.false_ne_true]
          refine (Traced.all_bind _ _).mpr ⟨?_, ih ?_⟩
          · have hfits : (IdOp.shift finalRowId rowId.toU64 b.candidateRowId).Fits := ⟨by omega, by omega, by omega⟩
            simpa [replacement, hrowId] using hfits
          · -- the new row id is one of the protocol again
            intro w hw r hr
            rcases List.mem_or_eq_of_mem_set hw with hw | rfl
            · exact hheap w hw r hr
            · simp only [replacement, hrowId, Option.map_some, Option.getD_some, Traced.value_bind, Traced.value_note,
                Traced.value_pure, hsum, Option.some.injEq] at hr
              rw [← hr, I64.val_ofU64 (by omega)]
              omega

theorem all_retagPrewrittenRows (sees : Nat → Bool) (finalSnapshotId : Nat)
    (hcandidate : b.candidateRowId + b.rowsInserted ≤ int64Max) (hfinal : finalRowId + b.rowsInserted ≤ int64Max)
    (supportsInplace : Bool) (xid commandId : Nat) (hheap : RowIdsInRange heap) :
    (retagPrewrittenRows sees b finalSnapshotId finalRowId supportsInplace xid commandId heap).All IdOp.Fits := by
  unfold retagPrewrittenRows
  split
  · exact (Traced.all_pure _).mpr trivial
  · split
    · exact all_retagInplace sees finalSnapshotId hfinal _ hheap
    · have hdelta : (IdOp.delta finalRowId b.candidateRowId).Fits := ⟨by omega, by omega⟩
      have hend : (IdOp.add b.candidateRowId b.rowsInserted).Fits := hcandidate
      simp [hdelta, hend]

/-- A batch that gets past the check of `PublishNativeInlineWrite` has its candidate rows in range: the sum is compared with
one of its terms, which finds a wrap. -/
theorem candidateRows_of_publishPhase {answer : Bool} {attempt : Nat} {valid : Bool}
    (hcandidate : b.candidateRowId < u64Size) (hrows : b.rowsInserted < u64Size)
    (h : Writer.publishPhase b answer = .publishRead attempt valid) : b.candidateRowId + b.rowsInserted ≤ int64Max := by
  unfold Writer.publishPhase at h
  split at h
  · cases h
  · split at h
    · cases h
    · rename_i hguard
      simp only [Bool.or_eq_true, decide_eq_true_eq, not_or, Nat.not_lt] at hguard
      by_cases hwraps : b.candidateRowId + b.rowsInserted < u64Size
      · rw [u64Add_of_lt hwraps] at hguard
        exact hguard.2
      · have hwrapped : u64Add b.candidateRowId b.rowsInserted = b.candidateRowId + b.rowsInserted - u64Size := by
          rw [u64Add, Nat.mod_eq_sub_mod (Nat.not_lt.mp hwraps), Nat.mod_eq_of_lt (by omega)]
        omega

/-! ## All calls -/

/-- What an operation comes to in exact arithmetic. -/
def IdOp.exact : IdOp → Int
  | .add a b => a + b
  | .sub a b => a - b
  | .shift a b c => a + b - c
  | .delta a b => a - b

/-- What the machine computes. -/
def IdOp.machine : IdOp → Int
  | .add a b => u64Add a b
  | .sub a b => u64Sub a b
  | .shift a b c => u64Sub (u64Add a b) c
  | .delta a b => (I64.ofU64 a).val - (I64.ofU64 b).val

theorem IdOp.Fits.exact {op : IdOp} (h : op.Fits) :
    op.machine = op.exact ∧ -2 ^ 63 ≤ op.exact ∧ op.exact ≤ int64Max := by
  have hword : u64Size = 18446744073709551616 := rfl
  have hmax : int64Max = 9223372036854775807 := rfl
  have hmin : (-2 ^ 63 : Int) = -9223372036854775808 := rfl
  cases op with
  | add a b =>
    simp only [IdOp.Fits] at h
    simp only [IdOp.machine, IdOp.exact, u64Add_of_lt (show a + b < u64Size by omega)]
    omega
  | sub a b =>
    obtain ⟨hle, hrange⟩ := h
    have hsub : u64Sub a b = a - b := by
      rw [u64Sub, show a + u64Size - b = (a - b) + u64Size by omega, Nat.add_mod_right, Nat.mod_eq_of_lt (by omega)]
    simp only [IdOp.machine, IdOp.exact, hsub]
    omega
  | shift a b c =>
    obtain ⟨hsum, hle, hrange⟩ := h
    simp only [IdOp.machine, IdOp.exact, u64Add_of_lt hsum, u64Sub_of_le hle hsum]
    omega
  | delta a b =>
    obtain ⟨ha, hb⟩ := h
    refine ⟨by rw [IdOp.machine, IdOp.exact, I64.val_ofU64 ha, I64.val_ofU64 hb], ?_⟩
    simp only [IdOp.exact]
    omega

/-- A call of one of the functions, with what it reads. -/
inductive IdCall (γ : Type)
  /-- `PrepareNativeInlineWrite`, with the state it has read. -/
  | prepare (b : Batch) (st : PublicationState)
  /-- A pass of `ReserveNativeWriterPublication`, called by `PrepareNativeInlineWrite`. -/
  | reserve (b : Batch) (st : PublicationState) (a : ReserveArgs) (q : QueueShmem)
  /-- An iteration of `WaitUntilReadyImpl`. -/
  | wait (q : QueueShmem) (r : NativeWriterReservation) (publicationWait : Bool) (now budgetMs : Int)
  /-- An attempt of `PublishNativeInlineWrite`: the checks, and the rows of `RunPublicationAttempt`. -/
  | attempt (env : Env) (b : Batch) (st : PublicationState)
  /-- The retag of such an attempt. -/
  | retag (env : Env) (b : Batch) (st : PublicationState) (sees : Nat → Bool) (supportsInplace : Bool) (xid commandId : Nat)
      (heap : List (Version (Payload.Row γ)))

/-- The operations of a call. -/
def IdCall.ops : IdCall γ → List IdOp
  | .prepare b st => (prepareCandidates b st).log
  | .reserve _ _ a q => (reservePass a q).log
  | .wait q r publicationWait now budgetMs => (waitIteration q r publicationWait now budgetMs).log
  | .attempt env b st => (do
      match ← checkPublicationState env b st with
      | .error _ => pure none
      | .ok () => some <$> attemptRows b st).log
  | .retag _ b st sees supportsInplace xid commandId heap =>
    (retagPrewrittenRows sees b (Writer.finalSnapshotId st) (Writer.finalRowId st) supportsInplace xid commandId heap).log

/-- The slots of the queue whose row ranges a call tests. -/
def IdCall.tested : IdCall γ → List ReservationSlot
  | .reserve _ _ a q => testedByReserve a q
  | .wait q r publicationWait _ _ => testedByWait q r publicationWait
  | _ => []

/-- A call as the writer makes it: what is read from the catalog are ids of the protocol, Reserve is called with a state that
`PrepareNativeInlineWrite` has checked, and a retag belongs to a batch and a state that have passed the checks. -/
def IdCall.Made : IdCall γ → Prop
  | .prepare _ _ => True
  | .reserve b st a _ => Writer.checkPreparedState b st = .ok () ∧ a.observedSnapshotId = st.snapshotId ∧
    a.observedNextRowId = st.nextRowId
  | .wait _ _ _ _ _ => True
  | .attempt _ _ st => st.snapshotId ≤ int64Max
  | .retag env b st _ _ _ _ heap => b.candidateRowId < u64Size ∧ b.rowsInserted < u64Size ∧
    Writer.publishPhase b true = .publishRead 0 true ∧ Writer.checkPublicationState env b st = .ok () ∧ RowIdsInRange heap

theorem all_attempt (env : Env) (b : Batch) (hsnapshot : st.snapshotId ≤ int64Max) :
    ∀ op ∈ (IdCall.attempt env b st : IdCall γ).ops, op.Fits := by
  refine (Traced.all_bind _ _).mpr ⟨all_checkPublicationState env b hsnapshot, ?_⟩
  rw [value_checkPublicationState env b hsnapshot]
  cases hchecked : Writer.checkPublicationState env b st with
  | error e => exact (Traced.all_pure _).mpr trivial
  | ok u =>
    have hrows := all_attemptRows (Writer.checkPublicationState_inRange hchecked)
    exact (Traced.all_bind _ _).mpr ⟨hrows, (Traced.all_pure _).mpr trivial⟩

/-- **No id wraps**, exactly if the row counts of the slots whose ranges the queue tests are in the range of the protocol. -/
theorem ids_fit_iff (call : IdCall γ) (h : call.Made) : (∀ op ∈ call.ops, op.Fits) ↔ CountsFit call.tested := by
  cases call with
  | prepare b st => exact ⟨fun _ => countsFit_nil, fun _ => all_prepareCandidates b st⟩
  | reserve b st a q =>
    obtain ⟨hchecked, hsnapshot, -⟩ := h
    exact all_reservePass (hsnapshot ▸ checkPreparedState_snapshot hchecked) q
  | wait q r publicationWait now budgetMs => exact all_waitIteration q r publicationWait now budgetMs
  | attempt env b st => exact ⟨fun _ => countsFit_nil, fun _ => all_attempt env b h⟩
  | retag env b st sees supportsInplace xid commandId heap =>
    obtain ⟨hcandidate, hrows, hphase, hchecked, hheap⟩ := h
    have hrange := Writer.checkPublicationState_inRange hchecked
    exact ⟨fun _ => countsFit_nil, fun _ => all_retagPrewrittenRows sees _
      (candidateRows_of_publishPhase hcandidate hrows hphase) hrange.nextRow supportsInplace xid commandId hheap⟩

/-- A checked state, and two reservations of one table, the first of which has announced `rowCount` rows. -/
def secondReservation (rowCount : Nat) : IdCall Unit :=
  .reserve (.empty 7 1 5) ⟨0, 1, 1, 1, 10, 10, 1, 0, 0, true, true, ""⟩ (reserveSeven 1)
    (Queue.reservePass (reserveSeven rowCount) (.startup 2)).1

theorem ids_fit_iff_secondReservation : (secondReservation 3).Made ∧ (secondReservation 3).tested ≠ [] ∧
    ∀ op ∈ (secondReservation 3).ops, op.Fits := by
  have hmade : (secondReservation 3).Made := ⟨rfl, rfl, rfl⟩
  exact ⟨hmade, by decide +kernel, (ids_fit_iff _ hmade).mpr (by unfold CountsFit; decide +kernel)⟩

/-- With a row count above the signed range, the test `candidate_row_id <= INT64_MAX - row_count` wraps, and the second
reservation gets a wrapped row id. -/
theorem secondReservation_wraps : (secondReservation (2 ^ 64 - 6)).Made ∧
    (∃ op ∈ (secondReservation (2 ^ 64 - 6)).ops, ¬ op.Fits) ∧
    ∃ q loc slot, Queue.reservePass (reserveSeven 1) (Queue.reservePass (reserveSeven (2 ^ 64 - 6)) (.startup 2)).1 =
      (q, .registered loc slot) ∧ slot.valid = true ∧ slot.rowAssigned = true ∧ slot.candidateRowId = 4 := by
  refine ⟨⟨rfl, rfl, rfl⟩, by decide +kernel, ?_⟩
  exact ⟨_, _, _, rfl, by decide +kernel, by decide +kernel, by decide +kernel⟩

end Writer

end PgDucklake.Ids
