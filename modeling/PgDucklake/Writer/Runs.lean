import PgDucklake.Writer.External

/-!
# Runs of the publication protocol

`inv_next` puts the steps together: every action keeps the invariant. A run starts from a catalog in which nobody writes
(`Start`). In every state it reaches, the committed catalog is that of the publications, each counted once (`Published`):
`runs_published`.
-/

namespace PgDucklake.Writer

open Lib Relation

variable {base : Base} {env : Env} {s t : State} {w : Nat} {b : Backend} {st : PublicationState}

/-! ## Reads and checks -/

theorem afterRead_inv {s : Store} {batch : Batch} {derive done : PublicationState → Phase}
    {result : Except WriterError PublicationState}
    (hderive : ∀ st, result = .ok st → st.hasTableStats = false → PhaseInv base s batch (derive st))
    (hdone : ∀ st, result = .ok st → st.hasTableStats = true → PhaseInv base s batch (done st)) :
    PhaseInv base s batch (afterRead derive done result) := by
  cases result with
  | error e => exact trivial
  | ok st =>
    cases hhas : st.hasTableStats with
    | false => simpa [afterRead, hhas] using hderive st rfl hhas
    | true => simpa [afterRead, hhas] using hdone st rfl hhas

theorem afterCheck_inv {s : Store} {batch : Batch} (done : Phase) (result : Except WriterError Unit)
    (hdone : PhaseInv base s batch done) : PhaseInv base s batch (afterCheck done result) := by
  cases result with
  | error e => exact trivial
  | ok u => exact hdone

theorem publishRead_inv {s : Store} {batch : Batch} {attempt : Nat} {valid : Bool} (hc : CommittedInv base s)
    (ho : OnlyRows s batch) (hpos : 0 < batch.rowsInserted) :
    PhaseInv base s batch (afterRead (.publishDerive attempt valid) (.publishCheck attempt valid)
      (readPublicationState s.catalog (s.sees batch.ownerXid) batch batch.startSnapshotId)) := by
  refine afterRead_inv (fun st hr hhas => ?_) fun st hr hhas => ?_
  · obtain ⟨hid, htouched, _⟩ := ho.read hc hr
    exact ⟨ho, hpos, hid ▸ latest_ge_first hc, Nat.le_of_eq hid, fun _ => ⟨hhas, htouched ▸ hhas⟩⟩
  · obtain ⟨hid, _, hcount⟩ := ho.read hc hr
    exact ⟨ho, hpos, hid ▸ latest_ge_first hc, Nat.le_of_eq hid, fun _ => hcount hhas⟩

theorem publishDerive_inv {s : Store} {batch : Batch} (hc : CommittedInv base s) (ho : OnlyRows s batch)
    (hpos : 0 < batch.rowsInserted)
    (hread : ReadAt base s st (st.hasTableStats = false ∧ touched base s.history batch.tableId = false)) :
    ReadAt base s { st with recordCount := 0, nextRowId := deriveNextRowId s.catalog (s.sees batch.ownerXid) batch }
      (Counters base s batch.tableId
        { st with recordCount := 0, nextRowId := deriveNextRowId s.catalog (s.sees batch.ownerXid) batch }) := by
  refine ⟨hread.first, hread.le_latest, fun hid => ?_⟩
  obtain ⟨hhas, htouched⟩ := hread.fresh hid
  refine ⟨hhas.trans htouched.symm, (recordCount_untouched htouched).symm, ?_⟩
  exact (ho.derive hc hpos htouched).trans (nextRowId_untouched htouched).symm

/-! ## Phases before the claim -/

theorem publishPhase_inv {s : Store} {batch : Batch} (ho : OnlyRows s batch) (answer : Bool) :
    PhaseInv base s batch (publishPhase batch answer) := by
  unfold publishPhase
  split
  · rename_i hz
    exact ⟨ho, by simpa using hz⟩
  · rename_i hz
    split
    · exact trivial
    · exact ⟨ho, Nat.pos_of_ne_zero (by simpa using hz)⟩

theorem lostPhase_inv {s : Store} {batch : Batch} (ho : OnlyRows s batch) (hpos : 0 < batch.rowsInserted)
    (attempt : Nat) : PhaseInv base s batch (lostPhase env attempt) := by
  unfold lostPhase
  split
  · exact trivial
  · exact ⟨ho, hpos⟩

theorem Prewritten.ofEmpty {s : Store} {batch batch' : Batch} (h : Prewritten s batch) (hz : batch.rowsInserted = 0)
    (hx : batch'.ownerXid = batch.ownerXid) (hz' : batch'.rowsInserted = 0) (hp : batch'.rowPointers = batch.rowPointers) :
    Prewritten s batch' := by
  have hnone : batch'.prewritten = batch.prewritten := by simp [Batch.prewritten, rowsAt, hz, hz']
  have hpointers := h.noPointers hz
  refine ⟨?_, fun _ => ?_, fun _ => hp.trans hpointers⟩
  · rw [hx, hnone]
    exact h.rows
  · rw [hp, hpointers]
    simp [Batch.prewritten, rowsAt, hz']

theorem OnlyRows.ofEmpty {s : Store} {batch batch' : Batch} (h : OnlyRows s batch) (hz : batch.rowsInserted = 0)
    (hx : batch'.ownerXid = batch.ownerXid) (hz' : batch'.rowsInserted = 0) (hp : batch'.rowPointers = batch.rowPointers) :
    OnlyRows s batch' :=
  ⟨h.rows.ofEmpty hz hx hz' hp, hx ▸ h.snapshot, hx ▸ h.tableStats⟩

theorem Inv.prewrite (h : Inv base s) (hw : s.writers w = some b) (hb : b.phase = .prewriting) (count : Nat) :
    Inv base ({ s with catalog := { s.catalog with inlined := prewriteRows b.batch count s.catalog.inlined } }.setWriter w
      ⟨b.batch.recordChunk s.catalog.inlined.length count, .prewriting⟩) := by
  have hne : b.phase.isEnded = false := by rw [hb]; rfl
  have hphase := h.phase w b hw
  rw [hb] at hphase
  refine h.ownStep hw hne _ _ (recordChunk_ownerXid _ _ _) rfl (.refl _ _ _) (prewrite_ownRows (h.ownEnds hw hne) count)
    (Or.inl rfl) ?_
  have hx := recordChunk_ownerXid b.batch s.catalog.inlined.length count
  exact ⟨Prewritten.chunk hphase.rows count, hx.symm ▸ hphase.snapshot, hx.symm ▸ hphase.tableStats⟩

/-! ## Steps -/

/-- **Every step of a writer keeps the invariant.** -/
theorem inv_writerStep (h : Inv base s) (hw : s.writers w = some b) {a : Action}
    (hn : writerStep env s w b a = some t) : Inv base t := by
  have hphase := h.phase w b hw
  have hne : ∀ {p : Phase}, b.phase = p → p.isEnded = false → b.phase.isEnded = false := fun hb hp => hb ▸ hp
  unfold writerStep at hn
  dsimp only at hn
  split at hn
  case h_1 hb => -- the first query of `PrepareNativeInlineWrite`
    cases hn
    rw [hb] at hphase
    exact h.setPhase hw (hne hb rfl) _ rfl (afterRead_inv (fun _ _ _ => hphase) fun _ _ _ => hphase)
  case h_2 hb =>
    cases hn
    rw [hb] at hphase
    exact h.setPhase hw (hne hb rfl) _ rfl hphase
  case h_3 hb =>
    cases hn
    rw [hb] at hphase
    exact h.setPhase hw (hne hb rfl) _ rfl
      (afterCheck_inv .prewriting _ (hphase.1.ofEmpty hphase.2 rfl hphase.2 rfl))
  case h_4 hb =>
    split at hn
    · rename_i hz
      cases hn
      rw [hb] at hphase
      exact h.setPhase hw (hne hb rfl) _ rfl (OnlyRows.ofEmpty hphase (by simpa using hz) rfl (by simpa using hz) rfl)
    · cases hn
  case h_5 hb =>
    split at hn
    · cases hn
      exact h.prewrite hw hb _
    · cases hn
  case h_6 hb => -- `PublishNativeInlineWrite`
    cases hn
    rw [hb] at hphase
    exact h.setPhase hw (hne hb rfl) _ rfl (publishPhase_inv hphase _)
  case h_7 hb =>
    cases hn
    rw [hb] at hphase
    exact h.setPhase hw (hne hb rfl) _ rfl (publishRead_inv h.committed hphase.1 hphase.2)
  case h_8 hb =>
    cases hn
    rw [hb] at hphase
    exact h.setPhase hw (hne hb rfl) _ rfl
      ⟨hphase.1, hphase.2.1, publishDerive_inv h.committed hphase.1 hphase.2.1 hphase.2.2⟩
  case h_9 hb =>
    cases hn
    rw [hb] at hphase
    exact h.setPhase hw (hne hb rfl) _ rfl (afterCheck_inv _ _ hphase)
  case h_10 hb => -- the claim
    split at hn
    · cases hn
    · cases hn
      rw [hb] at hphase
      exact h.setPhase hw (hne hb rfl) _ rfl (lostPhase_inv hphase.1 hphase.2.1 _)
    · rename_i hcl
      cases hn
      exact h.claim hw hb hcl _
  case h_11 hb =>
    split at hn
    · cases hn
      exact h.setPhase hw (hne hb rfl) _ rfl trivial
    · rename_i hr
      cases hn
      exact h.retag hw hb hr
  case h_12 hb =>
    split at hn
    · cases hn
      exact h.setPhase hw (hne hb rfl) _ rfl trivial
    · rename_i hr
      cases hn
      exact h.tableStats hw hb hr
  case h_13 hb =>
    cases hn
    exact h.changeRecord hw hb _
  case h_14 hb =>
    cases hn
    rw [hb] at hphase
    exact h.setPhase hw (hne hb rfl) _ rfl hphase
  case h_15 hb => -- the end of the transaction
    cases hn
    exact h.commit hw hb
  case h_16 hb =>
    cases hn
    exact h.commitNothing hw hb
  case h_17 hb =>
    cases hn
    exact h.callback w
  case h_18 => cases hn
  case h_19 hended =>
    cases hn
    refine h.abort hw ?_
    cases hp : b.phase with
    | ended c => exact absurd hp (hended c)
    | _ => rfl
  case h_20 => cases hn

/-- **Every action keeps the invariant.** -/
theorem inv_next (h : Inv base s) {a : Action} (hn : next env s a = some t) : Inv base t := by
  cases a with
  | prepare w tableId schemaVersion isTransactionBlock usesXactSnapshot nestLevel =>
    simp only [next] at hn
    split at hn
    · cases hn
    · cases hn
      refine h.prepare w tableId schemaVersion ?_
      unfold preparePhase
      split
      · exact Or.inr ⟨_, rfl⟩
      · split
        · exact Or.inr ⟨_, rfl⟩
        · exact Or.inl rfl
  | external e =>
    simp only [next] at hn
    split at hn
    · cases hn
    · rename_i i row hmax
      split at hn
      · rename_i hcl
        cases hn
        obtain ⟨hrow, _, hle⟩ := maxBy_some hmax
        have hid := range'_last h.committed.contiguous rfl (List.mem_of_getElem? hrow) fun r hr => hle r hr rfl
        exact h.external e hid (by simpa using hcl)
      · cases hn
  | _ =>
    simp only [next, Action.writer, Option.bind_eq_some_iff] at hn
    obtain ⟨b, hw, hn⟩ := hn
    exact inv_writerStep h hw hn

/-! ## Runs -/

/-- A catalog in which nobody writes: committed snapshots are contiguous, every table has its statistics row or none, and
a table without one has no inlined rows. -/
structure Start (base : Base) (s : State) : Prop where
  idle : ∀ w, s.writers w = none
  noHistory : s.history = []
  firstXid : base.firstXid = s.nextXid
  snapshotXids : XidsBelow s.nextXid s.catalog.snapshot
  statsXids : XidsBelow s.nextXid s.catalog.tableStats
  inlinedXids : XidsBelow s.nextXid s.catalog.inlined
  settled : ∀ x, x < s.nextXid → s.status x ≠ .inProgress
  fresh : ∀ x, s.nextXid ≤ x → s.status x = .inProgress
  nonempty : 0 < s.snapshots.length
  contiguous : s.snapshots.map (·.snapshotId) = List.range' base.firstSnapshotId s.snapshots.length
  stats : ∀ t, ((view s.isCommitted s.catalog.tableStats).filter fun r => r.tableId == t) =
    ((base.stats t).map fun c => TableStatsRow.mk t c.1 c.2).toList
  rows : ∀ v ∈ s.catalog.inlined, v.visible s.isCommitted = true → (base.stats v.data.tableId).isSome = true

theorem expectedStats_nil (base : Base) (t : Nat) :
    expectedStats base [] t = ((base.stats t).map fun c => TableStatsRow.mk t c.1 c.2).toList := by
  cases h : base.stats t <;>
    simp [expectedStats, touched, recordCount, nextRowId, counter, ranges, Base.recordCount, Base.nextRowId, h]

theorem Start.inv (h : Start base s) : Inv base s := by
  have hnone : ∀ {w : Nat} {b : Backend}, s.writers w ≠ some b := fun {w} _ => by simp [h.idle w]
  have hold : ∀ {v : Version SnapshotRow}, v ∈ s.catalog.snapshot → s.status v.xmin ≠ .inProgress :=
    fun hv => h.settled _ (h.snapshotXids _ hv).1
  constructor
  case xids =>
    exact ⟨h.snapshotXids, h.statsXids, h.inlinedXids, h.fresh, fun _ _ hw => absurd hw hnone,
      fun _ _ hw => absurd hw hnone, fun _ _ _ _ hw => absurd hw hnone⟩
  case committed =>
    refine ⟨h.nonempty, h.contiguous, fun t => ?_, ?_, fun v hv hvis => Or.inl ⟨?_, h.rows v hv hvis⟩⟩
    · rw [h.noHistory, expectedStats_nil]
      exact h.stats t
    · rw [h.noHistory]
      trivial
    · -- every row there is was written before the first transaction of the run
      have := (h.inlinedXids v hv).1
      have := h.firstXid
      omega
  case heaps =>
    refine ⟨fun x hx v hv hvx => ?_, fun v hv hp => absurd hp (hold hv), fun v hv _ _ hp => absurd hp (hold hv)⟩
    exact absurd (hvx ▸ hx) (h.settled _ (h.inlinedXids v hv).1)
  case natives => simp [h.noHistory]
  case once => simp [h.noHistory]
  case phase => exact fun _ _ hw => absurd hw hnone

/-- The committed catalog is that of the publications in the history.

`counters`: a table has its one statistics row, with what it had at the start and the rows of every publication.
`batches`: a native publication is of a committed transaction, which owns its snapshot row, and its rows are those from
its first row id on, at its snapshot. `complete`: no other rows were committed. -/
structure Published (base : Base) (s : Store) : Prop where
  contiguous : s.snapshots.map (·.snapshotId) = List.range' base.firstSnapshotId s.snapshots.length
  counters : ∀ t, ((view s.isCommitted s.catalog.tableStats).filter fun r => r.tableId == t) =
    if touched base s.history t then
      [⟨t, base.recordCount t + allotted (ranges s.history) t, base.nextRowId t + allotted (ranges s.history) t⟩]
    else []
  once : s.history.Pairwise fun e e' => e.native = true → e'.native = true → e.xid ≠ e'.xid
  batches : ∀ e ∈ s.history, e.native = true → NativeInv s e
  complete : ∀ v ∈ s.catalog.inlined, v.visible s.isCommitted = true → base.firstXid ≤ v.xmin →
    ∃ e ∈ s.history, e.xid = v.xmin ∧ e.range.key = v.data.tableId
  disjoint : s.history.Pairwise fun e e' => e.range.key = e'.range.key → e'.range.start + e'.range.count ≤ e.range.start
  below : ∀ e ∈ s.history, e.range.start + e.range.count ≤ nextRowId base s.history e.range.key

theorem Inv.published (h : Inv base s) : Published base s.toStore where
  contiguous := h.committed.contiguous
  counters := h.committed.stats
  once := h.once
  batches := h.natives
  complete := fun _ hv hvis => h.committed.owners hv hvis
  disjoint := List.pairwise_map.mp h.committed.sequential.pairwise
  below := fun e he => h.committed.sequential.below e.range (List.mem_map_of_mem he)

theorem inv_step (h : Inv base s) (hs : Step env s t) : Inv base t := by
  obtain ⟨a, ha⟩ := hs
  exact inv_next h ha

/-- **Every committed batch is published once, at its own ids**, in every run of native and external writers. -/
theorem runs_published {s₀ : State} (hstart : Start base s₀) (hrun : ReflTransGen (Step env) s₀ s) :
    Published base s.toStore :=
  Inv.published (run_invariant (fun _ _ => inv_step) hrun hstart.inv)

/-- A catalog with one snapshot and two rows of table 7. -/
def twoRows : State where
  catalog :=
    { snapshot := [⟨0, 0, none, ⟨0, 1, 1, 1⟩⟩]
      tableStats := [⟨0, 0, none, ⟨7, 2, 2⟩⟩]
      inlined := [⟨0, 0, none, ⟨7, 1, 0, 0⟩⟩, ⟨0, 0, none, ⟨7, 1, 1, 0⟩⟩]
      changes := []
      version := some "1.0"
      tableIsLive := fun _ => true
      maxInlineSchemaVersion := fun _ => some 1 }
  nextXid := 1
  status := fun x => if x = 0 then .committed else .inProgress
  history := []
  writers := fun _ => none

def twoRowsBase : Base := ⟨0, fun t => if t = 7 then some (2, 2) else none, 1⟩

theorem twoRows_start : Start twoRowsBase twoRows where
  idle := fun _ => rfl
  noHistory := rfl
  firstXid := rfl
  snapshotXids := by simp [XidsBelow, twoRows]
  statsXids := by simp [XidsBelow, twoRows]
  inlinedXids := by simp [XidsBelow, twoRows]
  settled := fun x hx => by
    have : x = 0 := Nat.lt_one_iff.mp hx
    simp [twoRows, this]
  fresh := fun x hx => by
    have : x ≠ 0 := Nat.one_le_iff_ne_zero.mp hx
    simp [twoRows, this]
  nonempty := by decide
  contiguous := by decide
  stats := fun t => by
    by_cases ht : t = 7
    · subst ht; decide
    · have hview : view twoRows.isCommitted twoRows.catalog.tableStats = [⟨7, 2, 2⟩] := by decide
      rw [hview]
      simp [twoRowsBase, ht, Ne.symm ht]
  rows := by decide

/-- The second writer loses its claim to the first and is retagged; then an external writer adds a row. -/
theorem runs_published_retag : ∃ s, ReflTransGen (Step ⟨fun _ _ => .ok, 3⟩) twoRows s ∧
    s.history.map (fun e => (e.xid, e.native, e.snapshotId, e.range)) =
      [(3, false, 3, ⟨7, 5, 1⟩), (2, true, 2, ⟨7, 3, 2⟩), (1, true, 1, ⟨7, 2, 1⟩)] ∧
      Published twoRowsBase s.toStore := by
  obtain ⟨s, hrun, hs⟩ := trace_reaches
    (fun s a t (h : next ⟨fun _ _ => .ok, 3⟩ s a = some t) => (⟨a, h⟩ : Step ⟨fun _ _ => .ok, 3⟩ s t)) twoRows
    [.prepare 0 7 1 false false 1, .prepare 1 7 1 false false 1, .read 0, .read 1, .reserve 0 0 (some (1, 2)),
      .reserve 1 0 none, .bind 0 true, .bind 1 true, .prewrite 0 1, .prewrite 1 2, .publish 0 true, .publish 1 false,
      .read 0, .read 1, .check 0 true, .check 1 true, .claim 0 1, .tableStats 0 2, .changeRecord 0 3, .markPublished 0,
      .commit 0, .claim 1 1, .read 1, .check 1 true, .claim 1 2, .retag 1 3 true, .tableStats 1 4, .changeRecord 1 5,
      .markPublished 1, .commit 1, .callback 0, .external ⟨1, 1, 1, "", [⟨7, 1, 1, true⟩], fun _ => true, fun _ => some 1⟩]
    (fun s => s.history.map (fun e => (e.xid, e.native, e.snapshotId, e.range)) ==
      [(3, false, 3, ⟨7, 5, 1⟩), (2, true, 2, ⟨7, 3, 2⟩), (1, true, 1, ⟨7, 2, 1⟩)]) (by decide +kernel)
  exact ⟨s, hrun, by simpa using hs, runs_published twoRows_start hrun⟩

end PgDucklake.Writer
