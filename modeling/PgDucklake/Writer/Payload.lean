import PgDucklake.Writer.Invariant

/-!
# Retagging rows with their columns

`RetagPrewrittenRows` over the heap as it is: rows with their user columns, ids that are nullable `bigint`s, and the 64-bit
arithmetic of both paths. The rows of a batch are those its command wrote; other rows may have any values, the candidate
values of the batch among them.

- `inplace_eq`: the loop over the row pointers rewrites the rows of the batch and nothing else;
- `update_eq`: so does the UPDATE, which ends the old versions and adds new ones;
- `changedRows_inplace`, `changedRows_update`: whatever the heap holds, a retag that succeeds has changed as many rows as
  the batch has.
-/

namespace PgDucklake.Payload

open Lib Writer

variable {γ : Type}

/-! ## Rows -/

/-- A row of an inline relation. `columns` are `end_snapshot` and the user columns. -/
structure Row (γ : Type) where
  tableId : Nat
  schemaVersion : Nat
  rowId : Option I64
  beginSnapshot : Option I64
  columns : γ
deriving DecidableEq

inductive RetagError
  | writer (e : WriterError)
  /-- PostgreSQL's error for a sum that is no `bigint`. -/
  | bigintOutOfRange
deriving DecidableEq

/-- The row is in the relation that the batch is bound to. -/
def inRelation (b : Batch) (v : Version (Row γ)) : Bool :=
  v.data.tableId == b.tableId && v.data.schemaVersion == b.schemaVersion

/-! ## In place -/

/-- The check of `RetagPrewrittenRowsInplace` on a row it fetched. -/
def identityChanged (b : Batch) (v : Version (Row γ)) : Bool :=
  match v.data.rowId, v.data.beginSnapshot with
  | some rowId, some snapshotId =>
    v.xmin != b.ownerXid || v.cmin != b.ownerCommandId || snapshotId.toU64 != b.candidateSnapshotId ||
      decide (rowId.toU64 < b.candidateRowId) || decide (b.rowsInserted ≤ u64Sub rowId.toU64 b.candidateRowId)
  | _, _ => true

/-- `heap_modify_tuple` with the two replaced columns. -/
def replacement (b : Batch) (finalSnapshotId finalRowId : Nat) (row : Row γ) : Row γ :=
  { row with
    rowId := some (.ofU64 (u64Sub (u64Add finalRowId ((row.rowId.map I64.toU64).getD 0)) b.candidateRowId))
    beginSnapshot := some (.ofU64 finalSnapshotId) }

/-- The loop of `RetagPrewrittenRowsInplace`. -/
def retagInplace (sees : Nat → Bool) (b : Batch) (finalSnapshotId finalRowId : Nat) :
    List Nat → List (Version (Row γ)) → Except RetagError (List (Version (Row γ)))
  | [], heap => .ok heap
  | pointer :: pointers, heap =>
    match heap[pointer]? with
    | none => .error (.writer .rowDisappeared)
    | some v =>
      if !(inRelation b v && v.visible sees) then .error (.writer .rowDisappeared)
      else if identityChanged b v then .error (.writer .rowIdentityChanged)
      else
        retagInplace sees b finalSnapshotId finalRowId pointers
          (heap.set pointer { v with data := replacement b finalSnapshotId finalRowId v.data })

/-! ## UPDATE -/

/-- The WHERE clause of the UPDATE; a NULL does not satisfy it. -/
def selected (b : Batch) (v : Version (Row γ)) : Bool :=
  inRelation b v && v.xmin == b.ownerXid && v.cmin == b.ownerCommandId &&
    v.data.beginSnapshot.any (fun s => s.val == (b.candidateSnapshotId : Int)) &&
    v.data.rowId.any fun r => decide ((b.candidateRowId : Int) ≤ r.val) &&
      decide (r.val < (u64Add b.candidateRowId b.rowsInserted : Int))

/-- `row_delta`. -/
def rowDelta (b : Batch) (finalRowId : Nat) : Int := (I64.ofU64 finalRowId).val - (I64.ofU64 b.candidateRowId).val

/-- The SET clause; `none` is a value out of range. -/
def assigned (b : Batch) (finalSnapshotId finalRowId : Nat) (row : Row γ) : Option (Row γ) := do
  let rowId ← row.rowId
  let shifted ← I64.ofInt? (rowId.val + rowDelta b finalRowId)
  let snapshotId ← I64.ofInt? finalSnapshotId
  pure { row with rowId := some shifted, beginSnapshot := some snapshotId }

def retagUpdate (sees : Nat → Bool) (b : Batch) (finalSnapshotId finalRowId xid commandId : Nat)
    (heap : List (Version (Row γ))) : Except RetagError (List (Version (Row γ))) :=
  if heap.any fun v => v.visible sees && selected b v && (assigned b finalSnapshotId finalRowId v.data).isNone then
    .error .bigintOutOfRange
  else if updateCount sees (selected b) heap != b.rowsInserted then
    .error (.writer (.retagged (updateCount sees (selected b) heap) b.rowsInserted))
  else
    .ok (updateRows sees xid commandId (selected b)
      (fun row => (assigned b finalSnapshotId finalRowId row).getD row) heap)

/-- `RetagPrewrittenRows` by a command of the (sub)transaction `xid`. `supportsInplace` is `RelationSupportsInplaceRetag`. -/
def retagPrewrittenRows (sees : Nat → Bool) (b : Batch) (finalSnapshotId finalRowId : Nat) (supportsInplace : Bool)
    (xid commandId : Nat) (heap : List (Version (Row γ))) : Except RetagError (List (Version (Row γ))) :=
  if !b.inlineTableBound then .error (.writer .notBound)
  else if b.rowPointerTrackingEnabled && b.rowPointers.length == b.rowsInserted && supportsInplace then
    retagInplace sees b finalSnapshotId finalRowId b.rowPointers heap
  else retagUpdate sees b finalSnapshotId finalRowId xid commandId heap

/-! ## Recording row pointers -/

/-- `RecordNativeInlineWriteRows`; a slot without a valid tuple id ends the tracking. -/
def recordNativeInlineWriteRows (b : Batch) (slots : List (Option Nat)) : Batch :=
  if slots.length == 0 || !b.rowPointerTrackingEnabled then b
  else if maxTrackedRowPointers - b.rowPointers.length < slots.length then
    { b with rowPointers := [], rowPointerTrackingEnabled := false }
  else if slots.all (·.isSome) then { b with rowPointers := b.rowPointers ++ slots.filterMap id }
  else { b with rowPointers := [], rowPointerTrackingEnabled := false }

/-- `table_multi_insert` of a chunk of rows with the next candidate row ids, after which the rows count. -/
def prewriteChunk (b : Batch) (chunk : List γ) (heap : List (Version (Row γ))) : List (Version (Row γ)) :=
  heap ++ chunk.zipIdx.map fun c => ⟨b.ownerXid, b.ownerCommandId, none,
    ⟨b.tableId, b.schemaVersion, some (.ofU64 (b.candidateRowId + b.rowsInserted + c.2)),
      some (.ofU64 b.candidateSnapshotId), c.1⟩⟩

def recordChunk (b : Batch) (pos count : Nat) : Batch :=
  { recordNativeInlineWriteRows b ((List.range count).map fun i => some (pos + i)) with
    rowsInserted := b.rowsInserted + count }

/-! ## The rows of a batch -/

/-- The batch's command wrote the row. -/
def wrote (b : Batch) (v : Version (Row γ)) : Bool := v.xmin == b.ownerXid && v.cmin == b.ownerCommandId

/-- A row with candidate values of the batch. -/
structure Candidate (b : Batch) (v : Version (Row γ)) : Prop where
  relation : inRelation b v = true
  rowId : ∃ r : I64, v.data.rowId = some r ∧ (b.candidateRowId : Int) ≤ r.val ∧ r.val < b.candidateRowId + b.rowsInserted
  snapshot : ∃ s : I64, v.data.beginSnapshot = some s ∧ s.val = b.candidateSnapshotId

/-- The command wrote the rows of the batch, with its candidate values and the row ids from the first on, and the row
pointers, while they are tracked, are their positions. -/
structure Prewritten (b : Batch) (heap : List (Version (Row γ))) : Prop where
  rows : ∀ v ∈ heap, wrote b v = true → Candidate b v ∧ v.xmax = none
  rowIds : ((heap.filter (wrote b)).map fun v => v.data.rowId.map I64.val).Perm
    ((List.range b.rowsInserted).map fun i => some ((b.candidateRowId + i : Nat) : Int))
  pointers : b.rowPointerTrackingEnabled = true →
    b.rowPointers.Nodup ∧ ∀ i, i ∈ b.rowPointers ↔ (heap[i]?).any (wrote b) = true

/-- The ids that the publication checks for: no sum of them is out of range. -/
structure Fits (b : Batch) (finalSnapshotId finalRowId : Nat) : Prop where
  candidateRows : b.candidateRowId + b.rowsInserted ≤ int64Max
  candidateSnapshot : b.candidateSnapshotId ≤ int64Max
  finalRows : finalRowId + b.rowsInserted ≤ int64Max
  finalSnapshot : finalSnapshotId ≤ int64Max

/-- What retagging means for a row of the batch: the columns stay, the row ids move together. -/
def retagged (b : Batch) (finalSnapshotId finalRowId : Nat) (row : Row γ) : Row γ :=
  { row with
    rowId := row.rowId.bind fun r => I64.ofInt? (finalRowId + (r.val - b.candidateRowId))
    beginSnapshot := I64.ofInt? finalSnapshotId }

/-- The rows after a retag: those of the batch retagged, all others as they are, and no other version touched. -/
structure IsRetag (sees : Nat → Bool) (b : Batch) (finalSnapshotId finalRowId : Nat)
    (heap heap' : List (Version (Row γ))) : Prop where
  rows : (view sees heap').Perm ((heap.filter (·.visible sees)).map fun v =>
    if wrote b v then retagged b finalSnapshotId finalRowId v.data else v.data)
  others : ∀ (i : Nat) (v : Version (Row γ)), heap[i]? = some v → wrote b v = false → heap'[i]? = some v

/-- The number of row versions that differ. -/
def changedRows [DecidableEq γ] (heap heap' : List (Version (Row γ))) : Nat :=
  ((List.range heap.length).filter fun i => decide (heap[i]? ≠ heap'[i]?)).length

/-! ## One row -/

section OneRow

variable {b : Batch} {fs fr : Nat} {v : Version (Row γ)}

theorem wrote_iff : wrote b v = true ↔ v.xmin = b.ownerXid ∧ v.cmin = b.ownerCommandId := by simp [wrote]

theorem visible_of_wrote {sees : Nat → Bool} (hw : wrote b v = true) (hsees : sees b.ownerXid = true)
    (hlive : v.xmax = none) : v.visible sees = true := by
  simp [Version.visible, (wrote_iff.mp hw).1, hsees, hlive]

theorem u64Add_candidate (hfits : Fits b fs fr) :
    u64Add b.candidateRowId b.rowsInserted = b.candidateRowId + b.rowsInserted := by
  have hrows := hfits.candidateRows
  refine u64Add_of_lt ?_
  unfold int64Max at hrows
  unfold u64Size
  omega

theorem Candidate.rowId_toU64 (h : Candidate b v) :
    ∃ (r : I64) (k : Nat), v.data.rowId = some r ∧ k < b.rowsInserted ∧ r.val = b.candidateRowId + k ∧
      r.toU64 = b.candidateRowId + k := by
  obtain ⟨r, hr, hge, hlt⟩ := h.rowId
  have hcast := I64.toU64_of_nonneg (i := r) (by omega)
  exact ⟨r, (r.val - b.candidateRowId).toNat, hr, by omega, by omega, by omega⟩

theorem u64_of_le {n : Nat} (h : n ≤ int64Max) : n < u64Size := by
  unfold int64Max at h
  unfold u64Size
  omega

theorem Candidate.identity (h : Candidate b v) (hw : wrote b v = true) (hfits : Fits b fs fr) :
    identityChanged b v = false := by
  obtain ⟨r, k, hr, hk, -, hcast⟩ := h.rowId_toU64
  obtain ⟨s, hs, hval⟩ := h.snapshot
  obtain ⟨hx, hc⟩ := wrote_iff.mp hw
  have hrows := hfits.candidateRows
  have hsnapshot : s.toU64 = b.candidateSnapshotId := (I64.toU64_eq_iff hfits.candidateSnapshot).mpr hval
  have hsub : u64Sub (b.candidateRowId + k) b.candidateRowId = k := by
    rw [u64Sub_of_le (Nat.le_add_right _ _) (u64_of_le (by omega))]
    omega
  simp only [identityChanged, hr, hs, hx, hc, hsnapshot, hcast, hsub, bne_self_eq_false, Bool.or_self, Bool.false_or,
    Bool.or_eq_false_iff, decide_eq_false_iff_not, Nat.not_lt, Nat.not_le]
  exact ⟨Nat.le_add_right _ _, hk⟩

theorem Candidate.selected (h : Candidate b v) (hw : wrote b v = true) (hfits : Fits b fs fr) : selected b v = true := by
  obtain ⟨r, hr, hge, hlt⟩ := h.rowId
  obtain ⟨s, hs, hval⟩ := h.snapshot
  obtain ⟨hx, hc⟩ := wrote_iff.mp hw
  simp only [Payload.selected, h.relation, hx, hc, hs, hr, hval, u64Add_candidate hfits, Option.any_some, beq_self_eq_true,
    Bool.and_self, Bool.true_and, Bool.and_eq_true, decide_eq_true_eq]
  exact ⟨hge, by omega⟩

theorem wrote_of_selected (h : Payload.selected b v = true) : wrote b v = true := by
  simp only [Payload.selected, Bool.and_eq_true] at h
  simp only [wrote, h.1.1.1.2, h.1.1.2, Bool.and_self]

theorem candidate_of_identity (hrel : inRelation b v = true) (hfits : Fits b fs fr) (h : identityChanged b v = false) :
    wrote b v = true ∧ Candidate b v := by
  have hrows := hfits.candidateRows
  unfold identityChanged at h
  split at h
  · rename_i r s hr hs
    simp only [Bool.or_eq_false_iff, bne_eq_false_iff_eq, decide_eq_false_iff_not, Nat.not_lt, Nat.not_le] at h
    obtain ⟨⟨⟨⟨hx, hc⟩, hsnapshot⟩, hge⟩, hlt⟩ := h
    have hword : r.toU64 < u64Size := by
      unfold I64.toU64 u64Size
      omega
    rw [u64Sub_of_le hge hword] at hlt
    have hval : r.val = r.toU64 := (I64.toU64_eq_iff (by omega)).mp rfl
    refine ⟨wrote_iff.mpr ⟨hx, hc⟩, hrel, ⟨r, hr, by omega, by omega⟩, ⟨s, hs, ?_⟩⟩
    exact (I64.toU64_eq_iff hfits.candidateSnapshot).mp hsnapshot
  · cases h

theorem Candidate.retagged_ne (h : Candidate b v) (hfits : Fits b fs fr)
    (hids : fs ≠ b.candidateSnapshotId ∨ fr ≠ b.candidateRowId) : retagged b fs fr v.data ≠ v.data := by
  intro heq
  obtain ⟨r, hr, hge, hlt⟩ := h.rowId
  obtain ⟨s, hs, hval⟩ := h.snapshot
  have hfinal := hfits.finalRows
  have hrow := congrArg Row.rowId heq
  have hsnapshot := congrArg Row.beginSnapshot heq
  simp only [retagged, hr, hs, Option.bind_some, I64.ofInt?] at hrow hsnapshot
  split at hrow
  · split at hsnapshot
    · simp only [Option.some.injEq] at hrow hsnapshot
      have hrowVal := congrArg I64.val hrow
      have hsnapshotVal := congrArg I64.val hsnapshot
      simp only at hrowVal hsnapshotVal
      rcases hids with hids | hids
      · exact hids (by omega)
      · exact hids (by omega)
    · cases hsnapshot
  · cases hrow

theorem Candidate.replacement_eq (h : Candidate b v) (hfits : Fits b fs fr) :
    replacement b fs fr v.data = retagged b fs fr v.data := by
  obtain ⟨r, k, hr, hk, hval, hcast⟩ := h.rowId_toU64
  have hrows := hfits.candidateRows
  have hfinal := hfits.finalRows
  have hsum : u64Sub (u64Add fr (b.candidateRowId + k)) b.candidateRowId = fr + k := by
    have hlt : fr + (b.candidateRowId + k) < u64Size := by
      unfold int64Max at hrows hfinal
      unfold u64Size
      omega
    rw [u64Add_of_lt hlt, u64Sub_of_le (by omega) hlt]
    omega
  have hrow : I64.ofInt? (fr + (r.val - b.candidateRowId)) = some (I64.ofU64 (fr + k)) := by
    refine I64.ofInt?_eq ?_
    rw [I64.val_ofU64 (by omega), hval]
    push_cast
    omega
  have hsnapshot : I64.ofInt? fs = some (I64.ofU64 fs) := I64.ofInt?_eq (I64.val_ofU64 hfits.finalSnapshot)
  simp only [replacement, retagged, hr, Option.map_some, Option.getD_some, Option.bind_some, hcast, hsum, hrow, hsnapshot]

theorem Candidate.assigned_eq (h : Candidate b v) (hfits : Fits b fs fr) :
    assigned b fs fr v.data = some (retagged b fs fr v.data) := by
  obtain ⟨r, k, hr, hk, hval, -⟩ := h.rowId_toU64
  have hrows := hfits.candidateRows
  have hfinal := hfits.finalRows
  have hdelta : rowDelta b fr = fr - b.candidateRowId := by
    rw [rowDelta, I64.val_ofU64 (by omega), I64.val_ofU64 (by omega)]
  have hshift : r.val + rowDelta b fr = fr + (r.val - b.candidateRowId) := by
    rw [hdelta]
    omega
  have hrow : I64.ofInt? (fr + (r.val - b.candidateRowId)) = some (I64.ofU64 (fr + k)) := by
    refine I64.ofInt?_eq ?_
    rw [I64.val_ofU64 (by omega), hval]
    push_cast
    omega
  have hsnapshot : I64.ofInt? fs = some (I64.ofU64 fs) := I64.ofInt?_eq (I64.val_ofU64 hfits.finalSnapshot)
  simp [assigned, retagged, hr, hshift, hrow, hsnapshot]

end OneRow

/-! ## In place -/

section Inplace

variable {sees : Nat → Bool} {b : Batch} {fs fr : Nat} {heap heap' : List (Version (Row γ))}

/-- The row that the loop finds at a pointer. -/
structure Fetched (sees : Nat → Bool) (b : Batch) (v : Version (Row γ)) : Prop where
  relation : inRelation b v = true
  visible : v.visible sees = true
  identity : identityChanged b v = false

theorem retagInplace_ok : ∀ {ps : List Nat} {heap heap' : List (Version (Row γ))}, ps.Nodup →
    retagInplace sees b fs fr ps heap = .ok heap' →
      (∀ i, i ∉ ps → heap'[i]? = heap[i]?) ∧ ∀ i ∈ ps, ∃ v, heap[i]? = some v ∧ Fetched sees b v ∧
        heap'[i]? = some { v with data := replacement b fs fr v.data }
  | [], heap, heap', _, hr => by
    cases hr
    exact ⟨fun _ _ => rfl, fun i hi => by cases hi⟩
  | p :: ps, heap, heap', hn, hr => by
    obtain ⟨hp, hn'⟩ := List.nodup_cons.mp hn
    unfold retagInplace at hr
    split at hr
    · cases hr
    · rename_i v hv
      split at hr
      · cases hr
      · rename_i hfound
        simp only [Bool.not_eq_true, Bool.not_eq_false', Bool.and_eq_true] at hfound
        split at hr
        · cases hr
        · rename_i hidentity
          obtain ⟨hout, hin⟩ := retagInplace_ok hn' hr
          have hlen := (List.getElem?_eq_some_iff.mp hv).1
          refine ⟨fun i hi => ?_, fun i hi => ?_⟩
          · have hip : p ≠ i := fun e => hi (e ▸ List.mem_cons_self)
            have hips : i ∉ ps := fun hm => hi (List.mem_cons_of_mem p hm)
            rw [hout i hips, List.getElem?_set_ne hip]
          · rcases List.mem_cons.mp hi with rfl | hi
            · refine ⟨v, hv, ⟨hfound.1, hfound.2, by simpa using hidentity⟩, ?_⟩
              rw [hout i hp, List.getElem?_set_self hlen]
            · have hip : p ≠ i := fun e => hp (e ▸ hi)
              obtain ⟨u, hu, hrest⟩ := hin i hi
              rw [List.getElem?_set_ne hip] at hu
              exact ⟨u, hu, hrest⟩

theorem retagInplace_succeeds : ∀ {ps : List Nat} {heap : List (Version (Row γ))}, ps.Nodup →
    (∀ i ∈ ps, ∃ v, heap[i]? = some v ∧ Fetched sees b v) → ∃ heap', retagInplace sees b fs fr ps heap = .ok heap'
  | [], heap, _, _ => ⟨heap, rfl⟩
  | p :: ps, heap, hn, hfetch => by
    obtain ⟨hp, hn'⟩ := List.nodup_cons.mp hn
    obtain ⟨v, hv, hfetched⟩ := hfetch p List.mem_cons_self
    -- the other pointers still find their rows after this one is overwritten
    have hrest : ∀ i ∈ ps, ∃ u, (heap.set p { v with data := replacement b fs fr v.data })[i]? = some u ∧
        Fetched sees b u := by
      intro i hi
      have hip : p ≠ i := fun e => hp (e ▸ hi)
      rw [List.getElem?_set_ne hip]
      exact hfetch i (List.mem_cons_of_mem p hi)
    obtain ⟨heap', hrun⟩ := retagInplace_succeeds hn' hrest
    refine ⟨heap', ?_⟩
    rw [retagInplace, hv]
    simp only [hfetched.relation, hfetched.visible, hfetched.identity, Bool.and_self, Bool.not_true, Bool.false_eq_true,
      if_false]
    exact hrun

/-- The heap with the batch's rows rewritten in place. -/
def rewritten (b : Batch) (fs fr : Nat) (v : Version (Row γ)) : Version (Row γ) :=
  if wrote b v then { v with data := retagged b fs fr v.data } else v

theorem inplace_eq (hp : Prewritten b heap) (hfits : Fits b fs fr) (hsees : sees b.ownerXid = true)
    (htracked : b.rowPointerTrackingEnabled = true) :
    retagInplace sees b fs fr b.rowPointers heap = .ok (heap.map (rewritten b fs fr)) := by
  obtain ⟨hnodup, hpointers⟩ := hp.pointers htracked
  have hfetch : ∀ i ∈ b.rowPointers, ∃ v, heap[i]? = some v ∧ Fetched sees b v := by
    intro i hi
    obtain ⟨v, hv, hw⟩ := (Option.any_eq_true _ _).mp ((hpointers i).mp hi)
    obtain ⟨hcandidate, hlive⟩ := hp.rows v (List.mem_of_getElem? hv) hw
    exact ⟨v, hv, hcandidate.relation, visible_of_wrote hw hsees hlive, hcandidate.identity hw hfits⟩
  obtain ⟨heap', hrun⟩ : ∃ heap', retagInplace sees b fs fr b.rowPointers heap = .ok heap' :=
    retagInplace_succeeds hnodup hfetch
  obtain ⟨hout, hin⟩ := retagInplace_ok hnodup hrun
  rw [hrun]
  refine congrArg Except.ok (List.ext_getElem? fun i => ?_)
  rw [List.getElem?_map]
  by_cases hi : i ∈ b.rowPointers
  · obtain ⟨v, hv, hfetched, hnew⟩ := hin i hi
    obtain ⟨hw, hcandidate⟩ := candidate_of_identity hfetched.relation hfits hfetched.identity
    rw [hnew, hv, hcandidate.replacement_eq hfits]
    simp only [rewritten, hw, if_true, Option.map_some]
  · rw [hout i hi]
    cases hv : heap[i]? with
    | none => rfl
    | some v =>
      have hw : wrote b v = false := by
        have hnot := mt (hpointers i).mpr hi
        simpa [hv] using hnot
      simp [rewritten, hw]

theorem isRetag_rewritten : IsRetag sees b fs fr heap (heap.map (rewritten b fs fr)) where
  rows := by
    have hvisible : ∀ v : Version (Row γ), (rewritten b fs fr v).visible sees = v.visible sees := by
      intro v
      unfold rewritten
      split <;> rfl
    have hdata : ∀ v : Version (Row γ), (rewritten b fs fr v).data =
        if wrote b v then retagged b fs fr v.data else v.data := by
      intro v
      unfold rewritten
      split <;> rfl
    rw [view, List.filter_map, List.map_map, Function.comp_def, Function.comp_def]
    simp only [hvisible, hdata]
    exact .refl _
  others := by
    intro i v hv hw
    rw [List.getElem?_map, hv]
    simp [rewritten, hw]

end Inplace

/-! ## UPDATE -/

section Update

variable {sees : Nat → Bool} {b : Batch} {fs fr x c : Nat} {heap : List (Version (Row γ))}

theorem Prewritten.selected_iff (hp : Prewritten b heap) (hfits : Fits b fs fr) {v : Version (Row γ)} (hv : v ∈ heap) :
    selected b v = wrote b v := by
  cases hw : wrote b v with
  | true => exact (hp.rows v hv hw).1.selected hw hfits
  | false =>
    refine Bool.eq_false_iff.mpr fun hs => ?_
    rw [wrote_of_selected hs] at hw
    cases hw

theorem Prewritten.updateCount (hp : Prewritten b heap) (hfits : Fits b fs fr) (hsees : sees b.ownerXid = true) :
    updateCount sees (selected b) heap = b.rowsInserted := by
  have hfilter : (heap.filter fun v => v.visible sees && selected b v) = heap.filter (wrote b) := by
    refine List.filter_congr fun v hv => ?_
    rw [hp.selected_iff hfits hv]
    cases hw : wrote b v with
    | true => rw [visible_of_wrote hw hsees (hp.rows v hv hw).2, Bool.and_self]
    | false => rw [Bool.and_false]
  have hlength := hp.rowIds.length_eq
  simp only [List.length_map, List.length_range] at hlength
  rw [Lib.updateCount, hfilter, hlength]

theorem update_eq (hp : Prewritten b heap) (hfits : Fits b fs fr) (hsees : sees b.ownerXid = true) :
    retagUpdate sees b fs fr x c heap = .ok (updateRows sees x c (selected b)
      (fun row => (assigned b fs fr row).getD row) heap) := by
  have hrange : (heap.any fun v => v.visible sees && selected b v && (assigned b fs fr v.data).isNone) = false := by
    rw [List.any_eq_false]
    intro v hv hnone
    simp only [Bool.and_eq_true] at hnone
    have hw := wrote_of_selected hnone.1.2
    rw [(hp.rows v hv hw).1.assigned_eq hfits] at hnone
    exact absurd hnone.2 (by simp)
  simp [retagUpdate, hrange, hp.updateCount hfits hsees]

theorem isRetag_update (hp : Prewritten b heap) (hfits : Fits b fs fr) (hx : sees x = true) :
    IsRetag sees b fs fr heap (updateRows sees x c (selected b)
      (fun row => (assigned b fs fr row).getD row) heap) where
  rows := by
    refine (view_updateRows_perm hx _ _).trans (.of_eq (List.map_congr_left fun v hv => ?_))
    have hmem := (List.mem_filter.mp hv).1
    rw [hp.selected_iff hfits hmem]
    cases hw : wrote b v with
    | true => simp [(hp.rows v hmem hw).1.assigned_eq hfits]
    | false => rfl
  others := by
    intro i v hv hw
    have hlen := (List.getElem?_eq_some_iff.mp hv).1
    have hnot : selected b v = false := by
      rw [hp.selected_iff hfits (List.mem_of_getElem? hv)]
      exact hw
    rw [updateRows, List.getElem?_append_left (by rwa [List.length_map]), List.getElem?_map, hv]
    simp [hnot]

end Update

/-! ## The rows after a retag -/

section After

variable {sees : Nat → Bool} {b : Batch} {fs fr x c : Nat} {heap heap' : List (Version (Row γ))}

/-- After a retag by the transaction `x`, each row of the batch is there with its final ids, in a version of the batch or of
`x`. -/
theorem Prewritten.retagged_mem (hp : Prewritten b heap) (hfits : Fits b fs fr) (hsees : sees b.ownerXid = true)
    {supportsInplace : Bool} (hrun : retagPrewrittenRows sees b fs fr supportsInplace x c heap = .ok heap')
    {v : Version (Row γ)} (hv : v ∈ heap) (hw : wrote b v = true) :
    ∃ v' ∈ heap', (v'.xmin = b.ownerXid ∨ v'.xmin = x) ∧ v'.xmax = none ∧ v'.data = retagged b fs fr v.data := by
  obtain ⟨hcandidate, hlive⟩ := hp.rows v hv hw
  unfold retagPrewrittenRows at hrun
  split at hrun
  · cases hrun
  · split at hrun
    · rename_i hpath
      simp only [Bool.and_eq_true] at hpath
      rw [inplace_eq hp hfits hsees hpath.1.1] at hrun
      cases hrun
      have hnew : rewritten b fs fr v = { v with data := retagged b fs fr v.data } := if_pos hw
      refine ⟨_, List.mem_map_of_mem hv, ?_⟩
      rw [hnew]
      exact ⟨.inl (wrote_iff.mp hw).1, hlive, rfl⟩
    · rw [update_eq hp hfits hsees] at hrun
      cases hrun
      have hfound : v ∈ heap.filter fun v => v.visible sees && selected b v := by
        refine List.mem_filter.mpr ⟨hv, ?_⟩
        rw [visible_of_wrote hw hsees hlive, hcandidate.selected hw hfits, Bool.and_self]
      refine ⟨_, List.mem_append_right _ (List.mem_map_of_mem hfound), .inr rfl, rfl, ?_⟩
      simp only [hcandidate.assigned_eq hfits, Option.getD_some]

end After

/-! ## Counting -/

section Count

variable {sees : Nat → Bool} {b : Batch} {fs fr x c : Nat} {heap heap' : List (Version (Row γ))}

theorem changedRows_inplace [DecidableEq γ] (hnodup : b.rowPointers.Nodup) (hfits : Fits b fs fr)
    (hids : fs ≠ b.candidateSnapshotId ∨ fr ≠ b.candidateRowId)
    (hrun : retagInplace sees b fs fr b.rowPointers heap = .ok heap') :
    changedRows heap heap' = b.rowPointers.length := by
  obtain ⟨hout, hin⟩ := retagInplace_ok hnodup hrun
  refine List.Perm.length_eq ?_
  rw [List.perm_ext_iff_of_nodup (List.nodup_range.filter _) hnodup]
  intro i
  simp only [List.mem_filter, List.mem_range, decide_eq_true_eq]
  by_cases hi : i ∈ b.rowPointers
  · obtain ⟨v, hv, hfetched, hnew⟩ := hin i hi
    obtain ⟨-, hcandidate⟩ := candidate_of_identity hfetched.relation hfits hfetched.identity
    refine iff_of_true ⟨(List.getElem?_eq_some_iff.mp hv).1, ?_⟩ hi
    rw [hv, hnew, hcandidate.replacement_eq hfits]
    intro heq
    exact hcandidate.retagged_ne hfits hids (congrArg Version.data (Option.some.inj heq)).symm
  · exact iff_of_false (fun h => h.2 (hout i hi).symm) hi

theorem changedRows_update [DecidableEq γ] (hx : sees x = true)
    (f : Row γ → Row γ) (p : Version (Row γ) → Bool) :
    changedRows heap (updateRows sees x c p f heap) = updateCount sees p heap := by
  have hchanged : ∀ i < heap.length, decide (heap[i]? ≠ (updateRows sees x c p f heap)[i]?) =
      (heap[i]?).any fun v => v.visible sees && p v := by
    intro i hi
    rw [updateRows, List.getElem?_append_left (by rwa [List.length_map]), List.getElem?_map]
    rw [List.getElem?_eq_getElem hi, Option.map_some, Option.any_some]
    generalize heap[i] = v
    by_cases hv : (v.visible sees && p v) = true
    · rw [if_pos hv, hv, decide_eq_true_eq]
      intro heq
      have hmax := congrArg Version.xmax (Option.some.inj heq)
      -- a version that the writer ended is not visible to it
      simp only [Bool.and_eq_true, Version.visible, Bool.not_eq_true'] at hv
      simp only at hmax
      rw [hmax, Option.any_some, hx] at hv
      exact absurd hv.1.2 (by simp)
    · rw [if_neg hv]
      simpa using hv
  have hfilter := List.filter_congr fun i hi => hchanged i (List.mem_range.mp hi)
  rw [changedRows, hfilter]
  exact length_positions _ heap

end Count

/-- Retagging moves exactly the rows of the batch. In a heap with whatever else in it, both paths give the rows that the
command wrote their final ids and leave their columns and all other rows; in any heap, a retag that does not change as many
rows as the batch has is an error. -/
theorem retag_exact [DecidableEq γ] {sees : Nat → Bool} {b : Batch} {finalSnapshotId finalRowId xid : Nat}
    {heap : List (Version (Row γ))} (hfits : Fits b finalSnapshotId finalRowId) (hsees : sees b.ownerXid = true)
    (hxid : sees xid = true)
    (hids : finalSnapshotId ≠ b.candidateSnapshotId ∨ finalRowId ≠ b.candidateRowId) :
    (b.inlineTableBound = true → Prewritten b heap → ∀ commandId, ∃ heap₁ heap₂,
      retagPrewrittenRows sees b finalSnapshotId finalRowId true xid commandId heap = .ok heap₁ ∧
      retagPrewrittenRows sees b finalSnapshotId finalRowId false xid commandId heap = .ok heap₂ ∧
      IsRetag sees b finalSnapshotId finalRowId heap heap₁ ∧ IsRetag sees b finalSnapshotId finalRowId heap heap₂ ∧
      (view sees heap₁).Perm (view sees heap₂)) ∧
    ((b.rowPointerTrackingEnabled = true → b.rowPointers.Nodup) → ∀ supportsInplace commandId heap',
      retagPrewrittenRows sees b finalSnapshotId finalRowId supportsInplace xid commandId heap = .ok heap' →
      changedRows heap heap' = b.rowsInserted) := by
  refine ⟨fun hbound hp commandId => ?_, fun hnodup supportsInplace commandId heap' hrun => ?_⟩
  · have hupdate := update_eq (x := xid) (c := commandId) hp hfits hsees
    have hsecond := isRetag_update (c := commandId) hp hfits hxid
    have hagree : ∀ {heap₁}, IsRetag sees b finalSnapshotId finalRowId heap heap₁ → (view sees heap₁).Perm
        (view sees (updateRows sees xid commandId (selected b)
          (fun row => (assigned b finalSnapshotId finalRowId row).getD row) heap)) :=
      fun hfirst => hfirst.rows.trans hsecond.rows.symm
    by_cases hpath : (b.rowPointerTrackingEnabled && b.rowPointers.length == b.rowsInserted) = true
    · have htracked := (Bool.and_eq_true_iff.mp hpath).1
      refine ⟨_, _, ?_, ?_, isRetag_rewritten, hsecond, hagree isRetag_rewritten⟩
      · simp only [retagPrewrittenRows, hbound, hpath, Bool.not_true, Bool.false_eq_true, if_false, Bool.and_self, if_true]
        exact inplace_eq hp hfits hsees htracked
      · simp only [retagPrewrittenRows, hbound, Bool.not_true, Bool.and_false, Bool.false_eq_true, if_false]
        exact hupdate
    · refine ⟨_, _, ?_, ?_, hsecond, hsecond, hagree hsecond⟩
      · simp only [retagPrewrittenRows, hbound, hpath, Bool.not_true, Bool.false_and, Bool.false_eq_true, if_false]
        exact hupdate
      · simp only [retagPrewrittenRows, hbound, Bool.not_true, Bool.and_false, Bool.false_eq_true, if_false]
        exact hupdate
  · unfold retagPrewrittenRows at hrun
    split at hrun
    · cases hrun
    · split at hrun
      · rename_i hpath
        simp only [Bool.and_eq_true, beq_iff_eq] at hpath
        rw [changedRows_inplace (hnodup hpath.1.1) hfits hids hrun, hpath.1.2]
      · unfold retagUpdate at hrun
        split at hrun
        · cases hrun
        · split at hrun
          · cases hrun
          · rename_i hcount
            cases hrun
            rw [changedRows_update hxid]
            simpa using hcount

/-- One row at row id 10, candidate for snapshot 5. -/
def sharedBatch : Batch :=
  { Batch.empty 1 0 7 with
    candidateSnapshotId := 5
    candidateRowId := 10
    inlineTableBound := true
    rowPointers := [1]
    rowsInserted := 1 }

/-- A committed row of another writer with the same ids, then the row of the batch. -/
def sharedHeap : List (Version (Row String)) :=
  [⟨3, 0, none, 1, 0, some (.ofU64 10), some (.ofU64 5), "theirs"⟩,
    ⟨7, 0, none, 1, 0, some (.ofU64 10), some (.ofU64 5), "ours"⟩]

theorem prewritten_shared : Prewritten sharedBatch sharedHeap where
  rows := by
    intro v hv hw
    simp only [sharedHeap, List.mem_cons, List.not_mem_nil, or_false] at hv
    rcases hv with rfl | rfl
    · cases hw
    · exact ⟨⟨rfl, ⟨.ofU64 10, rfl, by decide, by decide⟩, ⟨.ofU64 5, rfl, rfl⟩⟩, rfl⟩
  rowIds := .of_eq rfl
  pointers := by
    refine fun _ => ⟨by decide, fun i => ?_⟩
    rcases i with _ | _ | n
    · decide
    · decide
    · simp [sharedBatch, sharedHeap]

theorem retag_exact_shared : ∃ heap₁ heap₂,
    retagPrewrittenRows ([3, 7, 8].contains ·) sharedBatch 6 11 true 8 1 sharedHeap = .ok heap₁ ∧
    retagPrewrittenRows ([3, 7, 8].contains ·) sharedBatch 6 11 false 8 1 sharedHeap = .ok heap₂ ∧
    IsRetag ([3, 7, 8].contains ·) sharedBatch 6 11 sharedHeap heap₁ ∧
    IsRetag ([3, 7, 8].contains ·) sharedBatch 6 11 sharedHeap heap₂ ∧
    (view ([3, 7, 8].contains ·) heap₁).Perm (view ([3, 7, 8].contains ·) heap₂) :=
  (retag_exact ⟨by decide, by decide, by decide, by decide⟩ (by decide) (by decide) (by decide)).1 rfl prewritten_shared 1

end PgDucklake.Payload
