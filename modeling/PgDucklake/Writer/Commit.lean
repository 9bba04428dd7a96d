import PgDucklake.Writer.Publish

/-!
# Transaction ends

The commit of a published batch makes the claim, the statistics and the rows visible at once and adds the batch to the
history (`Inv.commit`). Other ends change nothing that is committed: a transaction without rows (`Inv.commitNothing`), an
abort (`Inv.abort`), the end of the backend's work (`Inv.callback`); nor does a new transaction (`Inv.prepare`).
-/

namespace PgDucklake.Writer

open Lib

variable {base : Base} {s : State} {w : Nat} {b : Backend} {st : PublicationState}

theorem OnlyRows.congr {s s' : Store} {b : Batch} (h : OnlyRows s b) (hc : s'.catalog = s.catalog) : OnlyRows s' b := by
  obtain ⟨⟨h₁, h₂, h₃⟩, h₄, h₅⟩ := h
  rw [← hc] at h₁ h₂ h₄ h₅
  exact ⟨⟨h₁, h₂, h₃⟩, h₄, h₅⟩

theorem XidInv.finish (h : XidInv s) (hw : s.writers w = some b) (result : XidStatus) (history : List Publication)
    (c : Bool) :
    XidInv ({ s with
      status := Function.update s.status b.batch.ownerXid result
      history := history }.setWriter w ⟨b.batch, .ended c⟩) := by
  have hown := h.writer w b hw
  refine ⟨h.snapshot, h.tableStats, h.inlined, fun x hx => ?_, fun v d hv => ?_, fun v d hv hnd => ?_,
    fun v v' d d' hv hv' he => ?_⟩
  · have hx' : s.nextXid ≤ x := hx
    have hne : x ≠ b.batch.ownerXid := by omega
    exact (Function.update_of_ne hne _ _).trans (h.fresh x hx)
  · rcases setWriter_some hv with ⟨rfl, rfl⟩ | ⟨_, hv⟩
    · exact hown
    · exact h.writer v d hv
  · rcases setWriter_some hv with ⟨rfl, rfl⟩ | ⟨hvw, hv⟩
    · cases hnd
    · exact (Function.update_of_ne (h.ne hw hv hvw) _ _).trans (h.active v d hv hnd)
  · rcases setWriter_some hv with ⟨rfl, rfl⟩ | ⟨hvw, hv₀⟩ <;>
      rcases setWriter_some hv' with ⟨rfl, rfl⟩ | ⟨hvw', hv₀'⟩
    · rfl
    · exact (h.ne hw hv₀' hvw' he.symm).elim
    · exact (h.ne hw hv₀ hvw he).elim
    · exact h.distinct v v' d d' hv₀ hv₀' he

theorem Inv.inProgress_of_finish (h : Inv base s) (hw : s.writers w = some b) (hne : b.phase.isEnded = false)
    (result : XidStatus) (x : Nat) (hx : Function.update s.status b.batch.ownerXid result x = .inProgress) :
    s.status x = .inProgress := by
  by_cases hxx : x = b.batch.ownerXid
  · rw [hxx]
    exact h.xids.active w b hw hne
  · rwa [Function.update_of_ne hxx] at hx

/-- The committed catalog after transaction `x` has published a snapshot. -/
theorem CommittedInv.publish {s s' : Store} {x : Nat} {r : SnapshotRow} (h : CommittedInv base s)
    (hsees : s'.isCommitted = s.sees x) (hsnaps : s'.snapshots = s.snapshots ++ [r])
    (hr : r.snapshotId = latest base s + 1)
    (hstats : ∀ t, ((view s'.isCommitted s'.catalog.tableStats).filter fun r => r.tableId == t) =
      expectedStats base s'.history t)
    (hseq : Sequential base.nextRowId (ranges s'.history)) (hrows : OwnRows x s.catalog.inlined s'.catalog.inlined)
    (hmono : ∀ e ∈ s.history, e ∈ s'.history)
    (hown : ∀ v ∈ s'.catalog.inlined, v.xmin = x → v.visible s'.isCommitted = true →
      ∃ e ∈ s'.history, e.xid = x ∧ e.range.key = v.data.tableId) : CommittedInv base s' := by
  have hpos := h.nonempty
  have hlen : s'.snapshots.length = s.snapshots.length + 1 := by rw [hsnaps]; simp
  have hold : ∀ v ∈ s'.catalog.inlined, v.visible s'.isCommitted = true → v.xmin ≠ x →
      v ∈ s.catalog.inlined ∧ v.visible s.isCommitted = true := by
    intro v hv hvis hvx
    rw [hsees] at hvis
    exact ⟨hrows.mem hv hvx, visible_seenBy hvis hvx⟩
  refine ⟨by omega, ?_, hstats, hseq, fun v hv hvis => ?_⟩
  · have hval : r.snapshotId = base.firstSnapshotId + 1 * s.snapshots.length := by
      rw [hr, latest]
      omega
    rw [hlen, List.range'_concat, ← h.contiguous, hsnaps, List.map_append, ← hval]
    rfl
  · by_cases hvx : v.xmin = x
    · obtain ⟨e, he, hex, hk⟩ := hown v hv hvx hvis
      exact Or.inr ⟨e, he, hex.trans hvx.symm, hk⟩
    · obtain ⟨hv₀, hvis₀⟩ := hold v hv hvis hvx
      refine (h.rows v hv₀ hvis₀).imp_right ?_
      rintro ⟨e, he, hex⟩
      exact ⟨e, hmono e he, hex⟩

/-- **The commit of a published batch keeps the invariant.** -/
theorem Inv.commit (h : Inv base s) (hw : s.writers w = some b) {valid : Bool} (hb : b.phase = .published valid st) :
    Inv base ({ s with
      status := Function.update s.status b.batch.ownerXid .committed
      history := publicationOf b.batch st :: s.history }.setWriter w ⟨b.batch, .ended true⟩) := by
  have hne : b.phase.isEnded = false := by rw [hb]; rfl
  have hactive := h.xids.active w b hw hne
  have hphase := h.phase w b hw
  rw [hb] at hphase
  obtain ⟨hcl, hret, hstats⟩ := hphase
  obtain ⟨u, hu, hux, hid⟩ := hcl.own
  set s' : Store := { s.toStore with
    status := Function.update s.status b.batch.ownerXid .committed
    history := publicationOf b.batch st :: s.history } with hs'
  have hsees : s'.isCommitted = s.sees b.batch.ownerXid := seen_commit
  have hsnaps : s'.snapshots = s.snapshots ++ [claimRow st] := by
    rw [Store.snapshots, hsees]
    exact hcl.snapshot
  have hlast : latest base s.toStore < latest base s' := by
    have := h.committed.nonempty
    simp only [latest, hsnaps, List.length_append, List.length_singleton]
    omega
  -- no other claim is in progress
  have hnone : ∀ v ∈ s.catalog.snapshot, s.status v.xmin = .inProgress → v.xmin = b.batch.ownerXid := by
    intro v hv hp
    exact (h.heaps.oneClaim v hv u hu hp (hux ▸ hactive)).trans hux
  have hnone' : ∀ v ∈ s.catalog.snapshot, s'.status v.xmin ≠ .inProgress := by
    intro v hv hp
    by_cases hvx : v.xmin = b.batch.ownerXid
    · rw [hvx] at hp
      simp [hs'] at hp
    · exact hvx (hnone v hv ((Function.update_of_ne hvx _ _).symm.trans hp))
  have hprogress := h.inProgress_of_finish hw hne XidStatus.committed
  constructor
  case xids => exact h.xids.finish hw _ _ _
  case committed =>
    show CommittedInv base s'
    refine h.committed.publish hsees hsnaps (congrArg (· + 1) hcl.is_latest) (fun t => ?_)
      ⟨hcl.counters.nextRow, h.committed.sequential⟩ (.refl (h.ownEnds hw hne))
      (fun e he => List.mem_cons_of_mem _ he) fun v hv hvx hvis => ?_
    · rw [hsees]
      exact hstats t
    · rw [hsees] at hvis
      have hm : v.data ∈ viewOf (s.sees b.batch.ownerXid) b.batch.ownerXid s.catalog.inlined :=
        List.mem_map_of_mem (List.mem_filter.mpr ⟨hv, by simp [hvx, hvis]⟩)
      rw [hret] at hm
      exact ⟨publicationOf b.batch st, List.mem_cons_self, rfl, (mem_rowsAt hm).1.symm⟩
  case heaps =>
    exact ⟨fun x hx => h.heaps.ownEnds x (hprogress x hx), fun v hv hp => absurd hp (hnone' v hv),
      fun v hv _ _ hp => absurd hp (hnone' v hv)⟩
  case natives =>
    intro e he hn
    rcases List.mem_cons.mp he with rfl | he
    · refine ⟨Function.update_self _ _ _, ⟨u, hu, hux, hid⟩, ?_, h.ownEnds hw hne⟩
      show viewOf s'.isCommitted _ s.catalog.inlined = _
      rw [hsees]
      exact hret
    · have hex := h.native_ne hw hne he hn
      exact (h.natives e he hn).keep hex (.refl (h.ownEnds hw hne)) (fun _ hv => hv)
        ((Function.update_of_ne hex _ _).trans (h.natives e he hn).committed)
  case once =>
    exact List.pairwise_cons.mpr ⟨fun e he _ hn => (h.native_ne hw hne he hn).symm, h.once⟩
  case phase =>
    intro v c hv
    rcases setWriter_some hv with ⟨rfl, rfl⟩ | ⟨hvw, hv⟩
    · exact trivial
    · cases hend : c.phase.isEnded with
      | true => exact PhaseInv.of_ended hend
      | false =>
        refine (h.phase v c hv).advance (fun ho => ho.congr rfl) hlast ?_
        rintro ⟨u', hu', hux'⟩
        exact h.xids.ne hw hv hvw (hux'.symm.trans (hnone u' hu' (hux' ▸ h.xids.active v c hv hend)))

/-! ## Ends that publish nothing -/

theorem view_congr_untouched {α : Type} {x : Nat} {sees sees' : Nat → Bool} {heap : List (Version α)}
    (h : Untouched x heap) (hs : ∀ y, y ≠ x → sees y = sees' y) : view sees heap = view sees' heap := by
  refine view_congr fun v hv => ?_
  obtain ⟨hmin, hmax⟩ := h v hv
  unfold Version.visible
  rw [hs v.xmin hmin]
  cases hm : v.xmax with
  | none => rfl
  | some y => simp [hs y (fun e => hmax (by rw [hm, e]))]

/-- **The commit of a transaction without rows keeps the invariant.** -/
theorem Inv.commitNothing (h : Inv base s) (hw : s.writers w = some b) (hb : b.phase = .returned) :
    Inv base ({ s with status := Function.update s.status b.batch.ownerXid .committed }.setWriter w
      ⟨b.batch, .ended true⟩) := by
  have hne : b.phase.isEnded = false := by rw [hb]; rfl
  have hactive := h.xids.active w b hw hne
  have hphase := h.phase w b hw
  rw [hb] at hphase
  obtain ⟨honly, hzero⟩ := hphase
  set s' : Store := { s.toStore with status := Function.update s.status b.batch.ownerXid .committed } with hs'
  have hsees : s'.isCommitted = s.sees b.batch.ownerXid := seen_commit
  have hsame : ∀ y, y ≠ b.batch.ownerXid → s'.isCommitted y = s.isCommitted y := by
    intro y hy
    show committedIn _ y = committedIn _ y
    simp [committedIn, hs', hy]
  have hsnaps : s'.snapshots = s.snapshots := view_congr_untouched honly.snapshot hsame
  have hlatest : latest base s' = latest base s.toStore := by rw [latest, latest, hsnaps]
  have hnorows : ∀ v ∈ s.catalog.inlined, v.xmin ≠ b.batch.ownerXid := by
    intro v hv hvx
    have hm : v ∈ s.catalog.inlined.filter fun v => v.xmin == b.batch.ownerXid :=
      List.mem_filter.mpr ⟨hv, by simpa using hvx⟩
    rw [honly.rows.rows, Batch.prewritten, hzero] at hm
    simp [rowsAt] at hm
  have hback : ∀ v ∈ s.catalog.inlined, v.visible s'.isCommitted = true → v.visible s.isCommitted = true := by
    intro v hv hvis
    rw [hsees] at hvis
    exact visible_seenBy hvis (hnorows v hv)
  have hprogress := h.inProgress_of_finish hw hne XidStatus.committed
  constructor
  case xids => exact h.xids.finish hw _ _ _
  case committed =>
    refine ⟨?_, ?_, fun t => ?_, h.committed.sequential, fun v hv hvis => h.committed.rows v hv (hback v hv hvis)⟩
    · exact (congrArg List.length hsnaps).symm ▸ h.committed.nonempty
    · exact hsnaps.symm ▸ h.committed.contiguous
    · exact (congrArg (List.filter _) (view_congr_untouched honly.tableStats hsame)).trans (h.committed.stats t)
  case heaps =>
    refine ⟨fun x hx => h.heaps.ownEnds x (hprogress x hx), fun v hv hp => ?_, fun v hv v' hv' hp hp' => ?_⟩
    · exact (h.heaps.claims v hv (hprogress _ hp)).trans (congrArg (· + 1) hlatest.symm)
    · exact h.heaps.oneClaim v hv v' hv' (hprogress _ hp) (hprogress _ hp')
  case natives =>
    intro e he hn
    have hex := h.native_ne hw hne he hn
    exact (h.natives e he hn).keep hex (.refl (h.ownEnds hw hne)) (fun _ hv => hv)
      ((Function.update_of_ne hex _ _).trans (h.natives e he hn).committed)
  case once => exact h.once
  case phase =>
    intro v c hv
    rcases setWriter_some hv with ⟨rfl, rfl⟩ | ⟨hvw, hv⟩
    · exact trivial
    · cases hend : c.phase.isEnded with
      | true => exact PhaseInv.of_ended hend
      | false =>
        have hseen : ∀ y, y ≠ b.batch.ownerXid → s'.sees c.batch.ownerXid y = s.sees c.batch.ownerXid y := by
          intro y hy
          exact congrArg (· || y == c.batch.ownerXid) (hsame y hy)
        refine (h.phase v c hv).frame
          { history := rfl, snapshots := hsnaps, rows := rfl, places := fun _ _ hi _ => hi, snapshot := id
            tableStats := id, claimed := fun _ => ⟨?_, ?_, ?_, fun _ hu => hu⟩ }
        · exact view_congr_untouched honly.snapshot hseen
        · exact view_congr_untouched honly.tableStats hseen
        · exact viewOf_congr_sees (h.ownEnds hv hend) (by simp [Store.sees]) (by simp [Store.sees])

/-- **An abort keeps the invariant.** -/
theorem Inv.abort (h : Inv base s) (hw : s.writers w = some b) (hne : b.phase.isEnded = false) :
    Inv base ({ s with status := Function.update s.status b.batch.ownerXid .aborted }.setWriter w
      ⟨b.batch, .ended false⟩) := by
  have hactive := h.xids.active w b hw hne
  set s' : Store := { s.toStore with status := Function.update s.status b.batch.ownerXid .aborted } with hs'
  have hcom : s'.isCommitted = s.isCommitted := seen_abort (by rw [hactive]; simp)
  have hsees : ∀ y, s'.sees y = s.sees y := by
    intro y
    funext z
    exact congrArg (· || z == y) (congrFun hcom z)
  have hsnaps : s'.snapshots = s.snapshots := by rw [Store.snapshots, hcom]; rfl
  have hlatest : latest base s' = latest base s.toStore := by rw [latest, latest, hsnaps]
  have hprogress := h.inProgress_of_finish hw hne XidStatus.aborted
  constructor
  case xids => exact h.xids.finish hw _ _ _
  case committed =>
    refine ⟨?_, ?_, fun t => ?_, h.committed.sequential, fun v hv hvis => ?_⟩
    · exact (congrArg List.length hsnaps).symm ▸ h.committed.nonempty
    · exact hsnaps.symm ▸ h.committed.contiguous
    · exact hcom.symm ▸ h.committed.stats t
    · exact h.committed.rows v hv (hcom ▸ hvis)
  case heaps =>
    refine ⟨fun x hx => h.heaps.ownEnds x (hprogress x hx), fun v hv hp => ?_, fun v hv v' hv' hp hp' => ?_⟩
    · exact (h.heaps.claims v hv (hprogress _ hp)).trans (congrArg (· + 1) hlatest.symm)
    · exact h.heaps.oneClaim v hv v' hv' (hprogress _ hp) (hprogress _ hp')
  case natives =>
    intro e he hn
    have hex := h.native_ne hw hne he hn
    exact (h.natives e he hn).keep hex (.refl (h.ownEnds hw hne)) (fun _ hv => hv)
      ((Function.update_of_ne hex _ _).trans (h.natives e he hn).committed)
  case once => exact h.once
  case phase =>
    intro v c hv
    rcases setWriter_some hv with ⟨rfl, rfl⟩ | ⟨hvw, hv⟩
    · exact trivial
    · refine (h.phase v c hv).frame
        { history := rfl, snapshots := hsnaps, rows := rfl, places := fun _ _ hi _ => hi, snapshot := id
          tableStats := id, claimed := fun _ => ⟨?_, ?_, ?_, fun _ hu => hu⟩ }
      · exact congrArg (view · s.catalog.snapshot) (hsees _)
      · exact congrArg (view · s.catalog.tableStats) (hsees _)
      · exact congrArg (viewOf · _ s.catalog.inlined) (hsees _)

/-! ## The begin and the end of a writer -/

/-- **The callback of an ended transaction keeps the invariant.** -/
theorem Inv.callback (h : Inv base s) (w : Nat) : Inv base { s with writers := Function.update s.writers w none } := by
  have hsub : ∀ {v : Nat} {c : Backend}, Function.update s.writers w none v = some c → s.writers v = some c := by
    intro v c hv
    by_cases hvw : v = w
    · subst hvw
      simp at hv
    · rwa [Function.update_of_ne hvw] at hv
  obtain ⟨hx₁, hx₂, hx₃, hfresh, hwriter, hactive, hdistinct⟩ := h.xids
  exact
    { xids := ⟨hx₁, hx₂, hx₃, hfresh, fun v c hv => hwriter v c (hsub hv), fun v c hv => hactive v c (hsub hv),
        fun v v' c c' hv hv' => hdistinct v v' c c' (hsub hv) (hsub hv')⟩
      committed := h.committed, heaps := h.heaps, natives := h.natives, once := h.once
      phase := fun v c hv => h.phase v c (hsub hv) }

theorem XidsBelow.mono {α : Type} {n m : Nat} {heap : List (Version α)} (h : XidsBelow n heap) (hnm : n ≤ m) :
    XidsBelow m heap :=
  fun v hv => ⟨Nat.lt_of_lt_of_le (h v hv).1 hnm, fun y hy => Nat.lt_of_lt_of_le ((h v hv).2 y hy) hnm⟩

theorem XidsBelow.untouched {α : Type} {n x : Nat} {heap : List (Version α)} (h : XidsBelow n heap) (hx : n ≤ x) :
    Untouched x heap := by
  intro v hv
  obtain ⟨hmin, hmax⟩ := h v hv
  refine ⟨by omega, fun he => ?_⟩
  have := hmax x he
  omega

theorem XidInv.begin (h : XidInv s) (tableId schemaVersion : Nat) :
    OnlyRows s.toStore (.empty tableId schemaVersion s.nextXid) := by
  refine ⟨⟨?_, by simp [Batch.empty, Batch.prewritten, rowsAt], fun _ => rfl⟩, h.snapshot.untouched (Nat.le_refl _),
    h.tableStats.untouched (Nat.le_refl _)⟩
  have hnone : (s.catalog.inlined.filter fun v => v.xmin == s.nextXid) = [] := by
    refine List.filter_eq_nil_iff.mpr fun v hv hx => ?_
    have := (h.inlined v hv).1
    simp only [beq_iff_eq] at hx
    omega
  exact hnone.trans (by simp [Batch.prewritten, Batch.empty, rowsAt])

/-- **A new transaction keeps the invariant.** -/
theorem Inv.prepare (h : Inv base s) (w tableId schemaVersion : Nat) {p : Phase}
    (hp : p = .prepareRead ∨ ∃ e, p = .failed e) :
    Inv base ({ s with nextXid := s.nextXid + 1 }.setWriter w ⟨.empty tableId schemaVersion s.nextXid, p⟩) := by
  have hle := Nat.le_succ s.nextXid
  have hother : ∀ {v : Nat} {c : Backend}, s.writers v = some c → c.batch.ownerXid ≠ s.nextXid := by
    intro v c hv
    exact Nat.ne_of_lt (h.xids.writer v c hv)
  constructor
  case xids =>
    refine ⟨h.xids.snapshot.mono hle, h.xids.tableStats.mono hle, h.xids.inlined.mono hle,
      fun x hx => h.xids.fresh x (Nat.le_of_succ_le hx), fun v c hv => ?_, fun v c hv hne => ?_,
      fun v v' c c' hv hv' he => ?_⟩
    · rcases setWriter_some hv with ⟨rfl, rfl⟩ | ⟨_, hv⟩
      · exact Nat.lt_succ_self _
      · exact Nat.lt_succ_of_lt (h.xids.writer v c hv)
    · rcases setWriter_some hv with ⟨rfl, rfl⟩ | ⟨_, hv⟩
      · exact h.xids.fresh _ (Nat.le_refl _)
      · exact h.xids.active v c hv hne
    · rcases setWriter_some hv with ⟨rfl, rfl⟩ | ⟨_, hv₀⟩ <;> rcases setWriter_some hv' with ⟨rfl, rfl⟩ | ⟨_, hv₀'⟩
      · rfl
      · exact absurd he.symm (hother hv₀')
      · exact absurd he (hother hv₀)
      · exact h.xids.distinct v v' c c' hv₀ hv₀' he
  case committed => exact ⟨h.committed.1, h.committed.2, h.committed.3, h.committed.4, h.committed.5⟩
  case heaps => exact ⟨h.heaps.1, h.heaps.2, h.heaps.3⟩
  case natives =>
    intro e he hn
    obtain ⟨h₁, h₂, h₃, h₄⟩ := h.natives e he hn
    exact ⟨h₁, h₂, h₃, h₄⟩
  case once => exact h.once
  case phase =>
    intro v c hv
    rcases setWriter_some hv with ⟨rfl, rfl⟩ | ⟨_, hv⟩
    · rcases hp with rfl | ⟨e, rfl⟩
      · exact ⟨(h.xids.begin tableId schemaVersion).congr rfl, rfl⟩
      · exact trivial
    · exact (h.phase v c hv).frame
        { history := rfl, snapshots := rfl, rows := rfl, places := fun _ _ hi _ => hi, snapshot := id
          tableStats := id, claimed := fun _ => ⟨rfl, rfl, rfl, fun _ hu => hu⟩ }

end PgDucklake.Writer
