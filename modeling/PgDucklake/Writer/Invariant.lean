import PgDucklake.Writer.Protocol

/-!
# The invariant of the publication protocol

What the committed catalog is, in terms of the history of publications: `recordCount`, `nextRowId` and `expectedStats`
give a table's statistics row, `Sequential` its row ranges. The invariant `Inv` says that the catalog agrees with the
history, that uncommitted claims are all of the snapshot id after the latest and all of one transaction, and what each
phase of a writer has read and written (`PhaseInv`).
-/

namespace PgDucklake.Writer

open Lib Relation

/-! ## Counters -/

/-- The catalog a run starts from: its oldest snapshot id, record count and next row id of each table that has a
statistics row, and the first transaction id of the run. -/
structure Base where
  firstSnapshotId : Nat
  stats : Nat → Option (Nat × Nat)
  firstXid : Nat

def Base.recordCount (base : Base) (t : Nat) : Nat := ((base.stats t).map (·.1)).getD 0

def Base.nextRowId (base : Base) (t : Nat) : Nat := ((base.stats t).map (·.2)).getD 0

def ranges (history : List Publication) : List (Range Nat) := history.map (·.range)

/-- The table has a statistics row. -/
def touched (base : Base) (history : List Publication) (t : Nat) : Bool :=
  (base.stats t).isSome || history.any (·.range.key == t)

/-- Every committed batch counts once. -/
def recordCount (base : Base) (history : List Publication) (t : Nat) : Nat :=
  base.recordCount t + allotted (ranges history) t

def nextRowId (base : Base) (history : List Publication) (t : Nat) : Nat :=
  counter base.nextRowId (ranges history) t

/-- The statistics rows of a table. -/
def expectedStats (base : Base) (history : List Publication) (t : Nat) : List TableStatsRow :=
  if touched base history t then [⟨t, recordCount base history t, nextRowId base history t⟩] else []

section Counters

variable {base : Base} {history : List Publication} {e : Publication} {t : Nat}

theorem touched_cons : touched base (e :: history) t = (e.range.key == t || touched base history t) := by
  simp only [touched, List.any_cons]
  cases (base.stats t).isSome <;> cases e.range.key == t <;> rfl

theorem allotted_untouched (h : touched base history t = false) : allotted (ranges history) t = 0 := by
  have hnone : (ranges history).filter (·.key == t) = [] := by
    simp only [touched, Bool.or_eq_false_iff, List.any_eq_false] at h
    rw [List.filter_eq_nil_iff]
    intro r hr
    obtain ⟨e, he, rfl⟩ := List.mem_map.mp hr
    exact h.2 e he
  simp [allotted, hnone]

theorem base_untouched (h : touched base history t = false) : base.stats t = none := by
  simpa [touched] using (Bool.or_eq_false_iff.mp h).1

theorem recordCount_untouched (h : touched base history t = false) : recordCount base history t = 0 := by
  simp [recordCount, Base.recordCount, base_untouched h, allotted_untouched h]

theorem nextRowId_untouched (h : touched base history t = false) : nextRowId base history t = 0 := by
  simp [nextRowId, counter, Base.nextRowId, base_untouched h, allotted_untouched h]

theorem recordCount_cons : recordCount base (e :: history) t =
    recordCount base history t + if e.range.key = t then e.range.count else 0 := by
  simp only [recordCount, ranges, List.map_cons, allotted_cons]
  omega

theorem nextRowId_cons : nextRowId base (e :: history) t =
    nextRowId base history t + if e.range.key = t then e.range.count else 0 := by
  simp only [nextRowId, ranges, List.map_cons, counter_cons]

theorem expectedStats_cons_ne (h : e.range.key ≠ t) :
    expectedStats base (e :: history) t = expectedStats base history t := by
  simp [expectedStats, touched_cons, recordCount_cons, nextRowId_cons, h]

theorem expectedStats_cons_eq (h : e.range.key = t) : expectedStats base (e :: history) t =
    [⟨t, recordCount base history t + e.range.count, nextRowId base history t + e.range.count⟩] := by
  simp [expectedStats, touched_cons, recordCount_cons, nextRowId_cons, h]

end Counters

/-! ## What the phases of a writer know -/

/-- The committed snapshots. -/
def Store.snapshots (s : Store) : List SnapshotRow := view s.isCommitted s.catalog.snapshot

/-- The latest committed snapshot id. -/
def latest (base : Base) (s : Store) : Nat := base.firstSnapshotId + s.snapshots.length - 1

/-- The prewritten rows of a batch, with the candidate values. -/
def Batch.prewritten (b : Batch) : List (Version InlinedRow) :=
  (rowsAt b.tableId b.schemaVersion b.candidateRowId b.candidateSnapshotId b.rowsInserted).map
    fun row => ⟨b.ownerXid, b.ownerCommandId, none, row⟩

/-- The rows of the transaction are its prewritten rows, and the row pointers, while they are tracked, point to them. -/
structure Prewritten (s : Store) (b : Batch) : Prop where
  rows : (s.catalog.inlined.filter fun v => v.xmin == b.ownerXid) = b.prewritten
  pointers : b.rowPointerTrackingEnabled = true →
    b.rowPointers.map (fun i => s.catalog.inlined[i]?) = b.prewritten.map some
  noPointers : b.rowsInserted = 0 → b.rowPointers = []

/-- The rows of the transaction have the ids it publishes. -/
def Retagged (s : Store) (b : Batch) (st : PublicationState) : Prop :=
  viewOf (s.sees b.ownerXid) b.ownerXid s.catalog.inlined =
    rowsAt b.tableId b.schemaVersion (finalRowId st) (finalSnapshotId st) b.rowsInserted

/-- Nothing but rows was written. -/
structure OnlyRows (s : Store) (b : Batch) : Prop where
  rows : Prewritten s b
  snapshot : Untouched b.ownerXid s.catalog.snapshot
  tableStats : Untouched b.ownerXid s.catalog.tableStats

/-- The state a publication read is of a snapshot that was the latest; what it says of the counters (`P`) still holds if
it is so now. -/
structure ReadAt (base : Base) (s : Store) (st : PublicationState) (P : Prop) : Prop where
  first : base.firstSnapshotId ≤ st.snapshotId
  le_latest : st.snapshotId ≤ latest base s
  fresh : st.snapshotId = latest base s → P

/-- The counters in the state are the table's. -/
structure Counters (base : Base) (s : Store) (t : Nat) (st : PublicationState) : Prop where
  has : st.hasTableStats = touched base s.history t
  records : st.recordCount = recordCount base s.history t
  nextRow : st.nextRowId = nextRowId base s.history t

/-- The transaction holds the claim of the snapshot after the latest, which is the one it read. -/
structure Claimed (base : Base) (s : Store) (b : Batch) (st : PublicationState) : Prop where
  snapshot : view (s.sees b.ownerXid) s.catalog.snapshot = s.snapshots ++ [claimRow st]
  is_latest : st.snapshotId = latest base s
  counters : Counters base s b.tableId st
  own : ∃ v ∈ s.catalog.snapshot, v.xmin = b.ownerXid ∧ v.data.snapshotId = finalSnapshotId st

/-- The transaction sees the statistics as they are after its publication. -/
def StatsWritten (base : Base) (s : Store) (b : Batch) (st : PublicationState) : Prop :=
  ∀ t, ((view (s.sees b.ownerXid) s.catalog.tableStats).filter fun r => r.tableId == t) =
    expectedStats base (publicationOf b st :: s.history) t

/-- What a phase has read and written. -/
def PhaseInv (base : Base) (s : Store) (b : Batch) : Phase → Prop
  | .prepareRead | .prepareDerive _ | .prepared _ | .returned => OnlyRows s b ∧ b.rowsInserted = 0
  | .prewriting => OnlyRows s b
  | .publishRead _ _ => OnlyRows s b ∧ 0 < b.rowsInserted
  | .publishDerive _ _ st =>
    OnlyRows s b ∧ 0 < b.rowsInserted ∧
      ReadAt base s st (st.hasTableStats = false ∧ touched base s.history b.tableId = false)
  | .publishCheck _ _ st | .claim _ _ st =>
    OnlyRows s b ∧ 0 < b.rowsInserted ∧ ReadAt base s st (Counters base s b.tableId st)
  | .retag _ st => Claimed base s b st ∧ Prewritten s b ∧ Untouched b.ownerXid s.catalog.tableStats
  | .tableStats _ st => Claimed base s b st ∧ Retagged s b st ∧ Untouched b.ownerXid s.catalog.tableStats
  | .changeRecord _ st | .markPublished _ st | .published _ st =>
    Claimed base s b st ∧ Retagged s b st ∧ StatsWritten base s b st
  | .failed _ | .ended _ => True

/-- The transaction of the writer has ended. -/
def Phase.isEnded : Phase → Bool
  | .ended _ => true
  | _ => false

/-! ## The invariant -/

/-- Every transaction id in the heap was handed out. -/
def XidsBelow {α : Type} (n : Nat) (heap : List (Version α)) : Prop :=
  ∀ v ∈ heap, v.xmin < n ∧ ∀ y, v.xmax = some y → y < n

/-- Rows of transaction `x` are ended by none or by it. -/
def OwnEnds (x : Nat) (heap : List (Version InlinedRow)) : Prop :=
  ∀ v ∈ heap, v.xmin = x → ∀ y, v.xmax = some y → y = x

/-- The committed catalog agrees with the history. -/
structure CommittedInv (base : Base) (s : Store) : Prop where
  nonempty : 0 < s.snapshots.length
  contiguous : s.snapshots.map (·.snapshotId) = List.range' base.firstSnapshotId s.snapshots.length
  stats : ∀ t, ((view s.isCommitted s.catalog.tableStats).filter fun r => r.tableId == t) =
    expectedStats base s.history t
  sequential : Sequential base.nextRowId (ranges s.history)
  rows : ∀ v ∈ s.catalog.inlined, v.visible s.isCommitted = true →
    v.xmin < base.firstXid ∧ (base.stats v.data.tableId).isSome = true ∨
      ∃ e ∈ s.history, e.xid = v.xmin ∧ e.range.key = v.data.tableId

section Committed

variable {base : Base} {s : Store} (h : CommittedInv base s) {v : Version InlinedRow} (hv : v ∈ s.catalog.inlined)
  (hvis : v.visible s.isCommitted = true)
include h hv hvis

theorem CommittedInv.touched_of_row : touched base s.history v.data.tableId = true := by
  simp only [touched, Bool.or_eq_true, List.any_eq_true, beq_iff_eq]
  rcases h.rows v hv hvis with ⟨_, hb⟩ | ⟨e, he, _, hk⟩
  · exact Or.inl hb
  · exact Or.inr ⟨e, he, hk⟩

theorem CommittedInv.owners (hx : base.firstXid ≤ v.xmin) :
    ∃ e ∈ s.history, e.xid = v.xmin ∧ e.range.key = v.data.tableId := by
  rcases h.rows v hv hvis with ⟨hlt, _⟩ | he
  · omega
  · exact he

end Committed

/-- A native publication is what its transaction wrote. -/
structure NativeInv (s : Store) (e : Publication) : Prop where
  committed : s.status e.xid = .committed
  snapshot : ∃ v ∈ s.catalog.snapshot, v.xmin = e.xid ∧ v.data.snapshotId = e.snapshotId
  rows : viewOf s.isCommitted e.xid s.catalog.inlined =
    rowsAt e.range.key e.schemaVersion e.range.start e.snapshotId e.range.count
  ends : OwnEnds e.xid s.catalog.inlined

/-- Transaction ids are used once. -/
structure XidInv (s : State) : Prop where
  snapshot : XidsBelow s.nextXid s.catalog.snapshot
  tableStats : XidsBelow s.nextXid s.catalog.tableStats
  inlined : XidsBelow s.nextXid s.catalog.inlined
  fresh : ∀ x, s.nextXid ≤ x → s.status x = .inProgress
  writer : ∀ w b, s.writers w = some b → b.batch.ownerXid < s.nextXid
  active : ∀ w b, s.writers w = some b → b.phase.isEnded = false → s.status b.batch.ownerXid = .inProgress
  distinct : ∀ w w' b b', s.writers w = some b → s.writers w' = some b' → b.batch.ownerXid = b'.batch.ownerXid → w = w'

/-- Uncommitted claims are of the snapshot after the latest, by one transaction. Rows of a running transaction are ended
only by itself. -/
structure HeapInv (base : Base) (s : Store) : Prop where
  ownEnds : ∀ x, s.status x = .inProgress → OwnEnds x s.catalog.inlined
  claims : ∀ v ∈ s.catalog.snapshot, s.status v.xmin = .inProgress → v.data.snapshotId = latest base s + 1
  oneClaim : ∀ v ∈ s.catalog.snapshot, ∀ v' ∈ s.catalog.snapshot, s.status v.xmin = .inProgress →
    s.status v'.xmin = .inProgress → v.xmin = v'.xmin

/-- **The invariant.** -/
structure Inv (base : Base) (s : State) : Prop where
  xids : XidInv s
  committed : CommittedInv base s.toStore
  heaps : HeapInv base s.toStore
  natives : ∀ e ∈ s.history, e.native = true → NativeInv s.toStore e
  once : s.history.Pairwise fun e e' => e.native = true → e'.native = true → e.xid ≠ e'.xid
  phase : ∀ w b, s.writers w = some b → PhaseInv base s.toStore b.batch b.phase

end PgDucklake.Writer
