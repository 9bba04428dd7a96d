import PgDucklake.Writer.Retag

/-!
# Claiming a snapshot and publishing

A claim that is won is of the snapshot after the latest, and the only one (`Inv.claim`). So the counters the publication
read still hold when it writes the statistics (`Inv.tableStats`) and when it commits (`Inv.commit`): they were read from
other tables, but no snapshot was committed since.
-/

namespace PgDucklake.Writer

open Lib

variable {base : Base} {s : State} {w : Nat} {b : Backend} {st : PublicationState}

/-! ## The claim -/

theorem claimSnapshot_claimed {s : Store} {x snapshotId : Nat} (h : claimSnapshot s x snapshotId = .claimed) :
    (∀ v ∈ s.catalog.snapshot, v.data.snapshotId = snapshotId → v.xmin ≠ x → s.status v.xmin ≠ .inProgress) ∧
      ∀ v ∈ s.catalog.snapshot, v.data.snapshotId = snapshotId → v.visible (s.sees x) = false := by
  unfold claimSnapshot at h
  split at h
  · cases h
  · rename_i hb
    split at h
    · cases h
    · rename_i hl
      simp only [List.any_eq_true, not_exists, not_and, Bool.and_eq_true, beq_iff_eq, bne_iff_ne, ne_eq] at hb hl
      refine ⟨fun v hv hid hx => ?_, fun v hv hid => ?_⟩
      · exact hb v hv ⟨hid, hx⟩
      · simpa using hl v hv hid

theorem CommittedInv.mem_snapshot {s : Store} (hc : CommittedInv base s) (id : Nat) (hlo : base.firstSnapshotId ≤ id)
    (hhi : id ≤ latest base s) : ∃ v ∈ s.catalog.snapshot, v.data.snapshotId = id ∧ v.visible s.isCommitted = true := by
  have hin : id ∈ s.snapshots.map (·.snapshotId) := by
    have := hc.nonempty
    rw [hc.contiguous, List.mem_range'_1]
    unfold latest at hhi
    omega
  obtain ⟨r, hr, rfl⟩ := List.mem_map.mp hin
  obtain ⟨v, hv, hvis, rfl⟩ := mem_view.mp hr
  exact ⟨v, hv, rfl, hvis⟩

theorem claim_latest {s : Store} {x : Nat} {P : Prop} (hc : CommittedInv base s) (hr : ReadAt base s st P)
    (hu : Untouched x s.catalog.snapshot) (hcl : claimSnapshot s x (finalSnapshotId st) = .claimed) : st.snapshotId = latest base s := by
  by_contra hne
  have hle := hr.le_latest
  have hlo := hr.first
  obtain ⟨v, hv, hid, hcom⟩ := hc.mem_snapshot (finalSnapshotId st) (by unfold finalSnapshotId; omega)
    (by unfold finalSnapshotId; omega)
  have hfalse := (claimSnapshot_claimed hcl).2 v hv hid
  have hsame : v.visible (s.sees x) = v.visible s.isCommitted := visible_untouched (hu v hv)
  rw [hsame, hcom] at hfalse
  cases hfalse

theorem HeapInv.noClaim {s : Store} (h : HeapInv base s) {x : Nat} (hu : Untouched x s.catalog.snapshot)
    (hcl : claimSnapshot s x (latest base s + 1) = .claimed) :
    ∀ v ∈ s.catalog.snapshot, s.status v.xmin ≠ .inProgress := by
  intro v hv hp
  exact (claimSnapshot_claimed hcl).1 v hv (h.claims v hv hp) (hu v hv).1 hp

/-- **A won claim keeps the invariant.** -/
theorem Inv.claim (h : Inv base s) (hw : s.writers w = some b) {attempt : Nat} {valid : Bool}
    (hb : b.phase = .claim attempt valid st)
    (hcl : claimSnapshot s.toStore b.batch.ownerXid (finalSnapshotId st) = .claimed) (commandId : Nat) :
    Inv base ({ s with catalog := { s.catalog with
      snapshot := insertRow b.batch.ownerXid commandId (claimRow st) s.catalog.snapshot } }.setWriter w
        ⟨b.batch, claimedPhase b.batch valid st⟩) := by
  have hne : b.phase.isEnded = false := by rw [hb]; rfl
  have hnc := h.uncommitted hw hne
  have hlt := h.xids.writer w b hw
  have hphase := h.phase w b hw
  rw [hb] at hphase
  obtain ⟨honly, hpos, hread⟩ := hphase
  have hlast := claim_latest h.committed hread honly.snapshot hcl
  have hfinal : finalSnapshotId st = latest base s.toStore + 1 := by rw [finalSnapshotId, hlast]
  have hnone := h.heaps.noClaim honly.snapshot (hfinal ▸ hcl)
  have hown := OwnHeap.insertRow hnc commandId (claimRow st) s.catalog.snapshot
  set c' : Catalog := { s.catalog with
    snapshot := insertRow b.batch.ownerXid commandId (claimRow st) s.catalog.snapshot } with hc'
  have hsnaps : Store.snapshots { s.toStore with catalog := c' } = s.snapshots := hown.view
  have hlatest : latest base { s.toStore with catalog := c' } = latest base s.toStore := by
    rw [latest, latest, hsnaps]
  have hmem : ∀ v ∈ c'.snapshot, v ∈ s.catalog.snapshot ∨ v = ⟨b.batch.ownerXid, commandId, none, claimRow st⟩ := by
    intro v hv
    rcases List.mem_append.mp hv with hv | hv
    · exact Or.inl hv
    · exact Or.inr (List.mem_singleton.mp hv)
  have hsub : ∀ v ∈ s.catalog.snapshot, v ∈ c'.snapshot := fun v hv => List.mem_append_left _ hv
  constructor
  case xids =>
    exact h.xids.ownStep hw hne _ c' rfl (hown.below _ hlt h.xids.snapshot) h.xids.tableStats h.xids.inlined
  case committed =>
    refine ⟨?_, ?_, h.committed.stats, h.committed.sequential, h.committed.rows⟩
    · exact (congrArg List.length hsnaps).symm ▸ h.committed.nonempty
    · exact hsnaps.symm ▸ h.committed.contiguous
  case heaps =>
    refine ⟨h.heaps.ownEnds, fun v hv hp => ?_, fun v hv v' hv' hp hp' => ?_⟩
    · rcases hmem v hv with hv | rfl
      · exact absurd hp (hnone v hv)
      · exact hfinal.trans (congrArg (· + 1) hlatest.symm)
    · rcases hmem v hv with hv | rfl
      · exact absurd hp (hnone v hv)
      · rcases hmem v' hv' with hv' | rfl
        · exact absurd hp' (hnone v' hv')
        · rfl
  case natives =>
    intro e he hn
    obtain ⟨hc, ⟨v, hv, hvx⟩, hr, hends⟩ := h.natives e he hn
    exact ⟨hc, ⟨v, hsub v hv, hvx⟩, hr, hends⟩
  case once => exact h.once
  case phase =>
    intro v c hv
    rcases setWriter_some hv with ⟨rfl, rfl⟩ | ⟨hvw, hv⟩
    · have hclaimed : Claimed base { s.toStore with catalog := c' } b.batch st := by
        refine ⟨?_, hlast.trans hlatest.symm, (hread.fresh hlast).frame rfl, ?_⟩
        · rw [hsnaps]
          refine (view_insertRow (by simp [Store.sees]) (claimRow st)).trans ?_
          exact congrArg (· ++ [claimRow st]) (view_untouched honly.snapshot)
        · exact ⟨_, List.mem_append_right _ (List.mem_singleton.mpr rfl), rfl, rfl⟩
      have hpre : Prewritten { s.toStore with catalog := c' } b.batch :=
        ⟨honly.rows.rows, honly.rows.pointers, honly.rows.noPointers⟩
      dsimp only
      unfold claimedPhase
      split
      · exact ⟨hclaimed, hpre, honly.tableStats⟩
      · rename_i hsame
        simp only [Bool.or_eq_true, bne_iff_ne, ne_eq, not_or, Decidable.not_not] at hsame
        exact ⟨hclaimed, hpre.retagged hsame.1 hsame.2, honly.tableStats⟩
    · have hneq := h.xids.ne hw hv hvw
      cases hend : c.phase.isEnded with
      | true => exact PhaseInv.of_ended hend
      | false =>
        refine PhaseInv.frame (h.phase v c hv)
          { history := rfl, snapshots := hsnaps, rows := rfl, places := fun _ _ hi _ => hi
            snapshot := hown.others _ hneq, tableStats := id, claimed := fun hclv => ?_ }
        obtain ⟨u, hu, hux⟩ := hclv
        exact absurd (hux ▸ h.xids.active v c hv hend) (hnone u hu)

/-! ## Retag, statistics and change record -/

theorem Inv.retag (h : Inv base s) (hw : s.writers w = some b) {valid : Bool} (hb : b.phase = .retag valid st)
    {supportsInplace : Bool} {commandId : Nat} {inlined : List (Version InlinedRow)}
    (hr : retagPrewrittenRows (s.sees b.batch.ownerXid) b.batch st supportsInplace commandId s.catalog.inlined =
      .ok inlined) :
    Inv base ({ s with catalog := { s.catalog with inlined := inlined } }.setWriter w
      ⟨b.batch, .tableStats valid st⟩) := by
  have hne : b.phase.isEnded = false := by rw [hb]; rfl
  have hphase := h.phase w b hw
  rw [hb] at hphase
  obtain ⟨hcl, hpre, hun⟩ := hphase
  refine h.ownStep hw hne _ _ rfl rfl (.refl _ _ _) (retag_ownRows hpre (h.ownEnds hw hne) hr) (Or.inl rfl) ?_
  exact ⟨⟨hcl.snapshot, hcl.is_latest, hcl.counters.frame rfl, hcl.own⟩, retag_retagged hpre hr, hun⟩

/-- The statistics rows are those of the history. -/
def StatsAgree (base : Base) (sees : Nat → Bool) (heap : List (Version TableStatsRow)) (history : List Publication) :
    Prop :=
  ∀ t, ((view sees heap).filter fun r => r.tableId == t) = expectedStats base history t

section Stats

variable {sees : Nat → Bool} {heap : List (Version TableStatsRow)} {history : List Publication} {x : Nat}
  {e : Publication}

theorem StatsAgree.update (h : StatsAgree base sees heap history) (hx : sees x = true) (cmd : Nat)
    (ht : touched base history e.range.key = true) {f : TableStatsRow → TableStatsRow}
    (hf : f ⟨e.range.key, recordCount base history e.range.key, nextRowId base history e.range.key⟩ =
      ⟨e.range.key, recordCount base history e.range.key + e.range.count,
        nextRowId base history e.range.key + e.range.count⟩) :
    StatsAgree base sees (updateRows sees x cmd (fun v => v.data.tableId == e.range.key) f heap) (e :: history) := by
  intro t
  have hone := h e.range.key
  rw [expectedStats, ht, if_pos rfl] at hone
  rw [view_updateRows_data hx (fun r : TableStatsRow => r.tableId == e.range.key), List.filter_append, hone, List.map_singleton, hf]
  by_cases hk : e.range.key = t
  · -- the table's own row, in its new version
    rw [expectedStats_cons_eq hk]
    subst hk
    simp
  · rw [expectedStats_cons_ne hk, ← h t, List.filter_filter]
    have hkeep : ((view sees heap).filter fun r => r.tableId == t && !r.tableId == e.range.key) =
        (view sees heap).filter fun r => r.tableId == t := by
      refine List.filter_congr fun r _ => ?_
      by_cases hr : r.tableId = t
      · simp [hr, Ne.symm hk]
      · simp [beq_eq_false_iff_ne.mpr hr]
    rw [hkeep]
    simp [hk]

theorem StatsAgree.insert (h : StatsAgree base sees heap history) (hx : sees x = true) (cmd : Nat)
    (ht : touched base history e.range.key = false) :
    StatsAgree base sees (insertRow x cmd ⟨e.range.key, e.range.count, e.range.count⟩ heap) (e :: history) := by
  intro t
  rw [view_insertRow hx, List.filter_append, h t]
  by_cases hk : e.range.key = t
  · rw [expectedStats_cons_eq hk]
    subst hk
    simp [expectedStats, ht, recordCount_untouched ht, nextRowId_untouched ht]
  · rw [expectedStats_cons_ne hk]
    simp [hk]

end Stats

theorem writeTableStats_written {s : Store} {b : Batch} (hc : CommittedInv base s) (hcount : Counters base s b.tableId st)
    (hun : Untouched b.ownerXid s.catalog.tableStats) {commandId : Nat} {heap : List (Version TableStatsRow)}
    (hr : writeTableStats (s.sees b.ownerXid) b st commandId s.catalog.tableStats = .ok heap) :
    StatsAgree base (s.sees b.ownerXid) heap (publicationOf b st :: s.history) := by
  have hself : s.sees b.ownerXid b.ownerXid = true := by simp [Store.sees]
  have hagree : StatsAgree base (s.sees b.ownerXid) s.catalog.tableStats s.history := by
    intro t
    rw [← hc.stats t]
    exact congrArg (List.filter _) (view_untouched hun)
  unfold writeTableStats at hr
  split at hr
  · rename_i hhas
    dsimp only at hr
    split at hr
    · cases hr
    · cases hr
      refine hagree.update hself commandId (e := publicationOf b st) (hcount.has ▸ hhas) ?_
      show TableStatsRow.mk b.tableId (st.recordCount + b.rowsInserted) (st.nextRowId + b.rowsInserted) = _
      rw [hcount.records, hcount.nextRow]
      rfl
  · rename_i hhas
    cases hr
    have htouched : touched base s.history b.tableId = false := by
      rw [← hcount.has]
      simpa using hhas
    have hzero : finalRowId st = 0 := hcount.nextRow.trans (nextRowId_untouched htouched)
    have := hagree.insert (e := publicationOf b st) hself commandId htouched
    rw [hzero, Nat.zero_add]
    exact this

theorem Inv.tableStats (h : Inv base s) (hw : s.writers w = some b) {valid : Bool} (hb : b.phase = .tableStats valid st)
    {commandId : Nat} {heap : List (Version TableStatsRow)}
    (hr : writeTableStats (s.sees b.batch.ownerXid) b.batch st commandId s.catalog.tableStats = .ok heap) :
    Inv base ({ s with catalog := { s.catalog with tableStats := heap } }.setWriter w
      ⟨b.batch, .changeRecord valid st⟩) := by
  have hne : b.phase.isEnded = false := by rw [hb]; rfl
  have hphase := h.phase w b hw
  rw [hb] at hphase
  obtain ⟨hcl, hret, hun⟩ := hphase
  have hstats := writeTableStats_written h.committed hcl.counters hun hr
  have hown : OwnHeap s.isCommitted b.batch.ownerXid s.catalog.tableStats heap := by
    unfold writeTableStats at hr
    split at hr
    · dsimp only at hr
      split at hr
      · cases hr
      · cases hr
        exact OwnHeap.updateRows (h.uncommitted hw hne) commandId _ _ _
    · cases hr
      exact OwnHeap.insertRow (h.uncommitted hw hne) commandId _ _
  refine h.ownStep hw hne _ _ rfl rfl hown (.refl (h.ownEnds hw hne)) (Or.inr hcl.claims) ?_
  exact ⟨⟨hcl.snapshot, hcl.is_latest, hcl.counters.frame rfl, hcl.own⟩, hret, hstats⟩

theorem Inv.changeRecord (h : Inv base s) (hw : s.writers w = some b) {valid : Bool}
    (hb : b.phase = .changeRecord valid st) (changes : List (Version ChangeRow)) :
    Inv base ({ s with catalog := { s.catalog with changes := changes } }.setWriter w
      ⟨b.batch, .markPublished valid st⟩) := by
  have hne : b.phase.isEnded = false := by rw [hb]; rfl
  have hphase := h.phase w b hw
  rw [hb] at hphase
  obtain ⟨hcl, hret, hstats⟩ := hphase
  refine h.ownStep hw hne _ _ rfl rfl (.refl _ _ _) (.refl (h.ownEnds hw hne)) (Or.inl rfl) ?_
  exact ⟨⟨hcl.snapshot, hcl.is_latest, hcl.counters.frame rfl, hcl.own⟩, hret, hstats⟩

end PgDucklake.Writer
