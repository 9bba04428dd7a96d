import PgDucklake.Writer.Runs

/-!
# Committed snapshots never change

A reader at snapshot `k` finds the committed rows that began at or before it (`Store.readAt`). A step writes rows of a
running transaction, which no reader sees, ends a transaction, or commits one whose rows all begin at the snapshot after
the latest (`Change`). So whatever the writers do, a reader at a committed snapshot finds the same rows in the same order
(`snapshots_immutable`): claims that are lost, retags, aborts and external commits among it.
-/

namespace PgDucklake.Writer

open Lib Relation

variable {base : Base} {env : Env} {s t : State} {w : Nat} {b : Backend} {st : PublicationState}

/-- What a reader at a snapshot finds in the inlined data tables. -/
def Store.readAt (s : Store) (snapshotId : Nat) : List InlinedRow :=
  (view s.isCommitted s.catalog.inlined).filter fun row => decide (row.beginSnapshot ≤ snapshotId)

/-- A row is ended by its own transaction or by one that is over. -/
def Settled (status : Nat → XidStatus) (heap : List (Version InlinedRow)) : Prop :=
  ∀ v ∈ heap, ∀ y, v.xmax = some y → y = v.xmin ∨ status y ≠ .inProgress

/-! ## What a step does to the rows -/

/-- A step in which the running transaction `x` writes rows of its own and may end. If it commits, what it has written
begins at the snapshot after the latest. -/
structure Change (base : Base) (s t : Store) (x : Nat) : Prop where
  running : s.status x = .inProgress
  rows : OwnRows x s.catalog.inlined t.catalog.inlined
  ended : ∀ y, s.status y ≠ .inProgress → t.status y ≠ .inProgress
  seen : t.isCommitted = s.isCommitted ∨ t.isCommitted = s.sees x ∧
    ∀ v ∈ t.catalog.inlined, v.xmin = x → v.visible (s.sees x) = true → latest base s < v.data.beginSnapshot

theorem view_ownRows {x : Nat} {isCommitted : Nat → Bool} {h h' : List (Version InlinedRow)} (ho : OwnRows x h h')
    (hx : isCommitted x = false) : view isCommitted h' = view isCommitted h := by
  have hothers : ∀ l : List (Version InlinedRow),
      l.filter (·.visible isCommitted) = (l.filter fun v => v.xmin != x).filter (·.visible isCommitted) := by
    intro l
    rw [List.filter_filter]
    refine List.filter_congr fun v _ => ?_
    by_cases hv : v.xmin = x
    · simp [Version.visible, hv, hx]
    · simp [hv]
  rw [view, view, hothers h', hothers h, ho.others]

section Change

variable {s t : Store} {x k : Nat} (h : Change base s t x) (hs : Settled s.status s.catalog.inlined)
include h hs

theorem Change.settled : Settled s.status t.catalog.inlined := by
  intro v hv y hy
  by_cases hvx : v.xmin = x
  · exact Or.inl ((h.rows.ends v hv hvx y hy).trans hvx.symm)
  · exact hs v (h.rows.mem hv hvx) y hy

/-- **A step keeps what a reader at a committed snapshot finds.** -/
theorem Change.readAt_eq (hk : k ≤ latest base s) : t.readAt k = s.readAt k := by
  have hx : s.isCommitted x = false := committedIn_of_ne (by simp [h.running])
  rw [Store.readAt, Store.readAt, ← view_ownRows h.rows hx]
  rcases h.seen with hsees | ⟨hsees, hbegins⟩
  · rw [hsees]
  · rw [hsees, view, view, List.filter_map, List.filter_map, List.filter_filter, List.filter_filter]
    refine congrArg _ (List.filter_congr fun v hv => ?_)
    by_cases hvx : v.xmin = x
    · have hnot : v.visible s.isCommitted = false := by simp [Version.visible, hvx, hx]
      cases hvis : v.visible (s.sees x) with
      | false => simp [hnot]
      | true =>
        have := hbegins v hv hvx hvis
        have hlate : ¬ v.data.beginSnapshot ≤ k := by omega
        simp [hnot, hlate]
    · -- a row of another transaction was not ended by the one that commits
      have hmax : v.xmax ≠ some x := by
        intro he
        rcases h.settled hs v hv x he with hxv | hne
        · exact hvx hxv.symm
        · exact hne h.running
      rw [show v.visible (s.sees x) = v.visible s.isCommitted from visible_untouched ⟨hvx, hmax⟩]

end Change

/-! ## Steps -/

/-- The step is a change, and no snapshot is lost. -/
def Advances (base : Base) (s t : Store) : Prop := (∃ x, Change base s t x) ∧ s.snapshots.length ≤ t.snapshots.length

theorem ended_update {status : Nat → XidStatus} {result : XidStatus} (hresult : result ≠ .inProgress) (x y : Nat)
    (hy : status y ≠ .inProgress) : Function.update status x result y ≠ .inProgress := by
  by_cases hyx : y = x
  · simp [hyx, hresult]
  · simp [hyx, hy]

theorem Inv.advances_same (h : Inv base s) {t : Store} (hrows : t.catalog.inlined = s.catalog.inlined)
    (hsnapshot : t.catalog.snapshot = s.catalog.snapshot) (hstatus : t.status = s.status) : Advances base s.toStore t := by
  have hx := h.xids.fresh s.nextXid (Nat.le_refl _)
  have hsees : t.isCommitted = s.isCommitted := by rw [Store.isCommitted, hstatus]; rfl
  refine ⟨⟨s.nextXid, hx, ?_, fun y hy => by rwa [hstatus], Or.inl hsees⟩, ?_⟩
  · rw [hrows]
    exact .refl (h.heaps.ownEnds _ hx)
  · rw [Store.snapshots, Store.snapshots, hsees, hsnapshot]

theorem Retagged.begins {s : Store} {batch : Batch} (h : Retagged s batch st) (hc : Claimed base s batch st)
    {v : Version InlinedRow} (hv : v ∈ s.catalog.inlined) (hx : v.xmin = batch.ownerXid)
    (hvis : v.visible (s.sees batch.ownerXid) = true) : latest base s < v.data.beginSnapshot := by
  have hmem : v.data ∈ viewOf (s.sees batch.ownerXid) batch.ownerXid s.catalog.inlined :=
    List.mem_map_of_mem (List.mem_filter.mpr ⟨hv, by simp [hx, hvis]⟩)
  rw [h] at hmem
  have hsnapshot := (mem_rowsAt hmem).2.2.1
  have := hc.is_latest
  simp only [finalSnapshotId] at hsnapshot
  omega

theorem Inv.advances_end (h : Inv base s) (hw : s.writers w = some b) (hne : b.phase.isEnded = false) {t : Store}
    (hcatalog : t.catalog = s.catalog) {result : XidStatus} (hresult : result ≠ .inProgress)
    (hstatus : t.status = Function.update s.status b.batch.ownerXid result)
    (hbegins : result = .committed → ∀ v ∈ s.catalog.inlined, v.xmin = b.batch.ownerXid →
      v.visible (s.sees b.batch.ownerXid) = true → latest base s.toStore < v.data.beginSnapshot)
    (hsnapshots : result = .committed →
      s.snapshots.length ≤ (view (s.sees b.batch.ownerXid) s.catalog.snapshot).length) :
    Advances base s.toStore t := by
  have hx := h.xids.active w b hw hne
  have hsees : t.isCommitted = s.isCommitted ∨ result = .committed ∧ t.isCommitted = s.sees b.batch.ownerXid := by
    rw [Store.isCommitted, hstatus]
    cases result with
    | inProgress => exact absurd rfl hresult
    | committed => exact Or.inr ⟨rfl, seen_commit⟩
    | aborted => exact Or.inl (seen_abort (by simp [hx]))
  refine ⟨⟨_, hx, by rw [hcatalog]; exact .refl (h.ownEnds hw hne), fun y hy => ?_, ?_⟩, ?_⟩
  · rw [hstatus]
    exact ended_update hresult _ y hy
  · exact hsees.imp_right fun hc => ⟨hc.2, by rw [hcatalog]; exact hbegins hc.1⟩
  · rw [Store.snapshots.eq_1 t, hcatalog]
    rcases hsees with hsees | ⟨hc, hsees⟩
    · rw [hsees]
      exact Nat.le_refl _
    · rw [hsees]
      exact hsnapshots hc

theorem Inv.advances_writerStep (h : Inv base s) (hw : s.writers w = some b) {a : Action}
    (hn : writerStep env s w b a = some t) : Advances base s.toStore t.toStore := by
  have hphase := h.phase w b hw
  have hne : ∀ {p : Phase}, b.phase = p → p.isEnded = false → b.phase.isEnded = false := fun hb hp => hb ▸ hp
  unfold writerStep at hn
  dsimp only at hn
  split at hn
  case h_5 hb => -- a chunk of rows
    split at hn
    · cases hn
      have hrows := prewrite_ownRows (h.ownEnds hw (hne hb rfl))
      exact ⟨⟨_, h.xids.active w b hw (hne hb rfl), hrows _, fun _ hy => hy, Or.inl rfl⟩, Nat.le_refl _⟩
    · cases hn
  case h_10 hb => -- the claim
    split at hn
    · cases hn
    · cases hn
      exact h.advances_same rfl rfl rfl
    · cases hn
      refine ⟨(h.advances_same (t := s.toStore) rfl rfl rfl).1.imp fun x hx => ⟨hx.1, hx.2, hx.3, hx.4⟩, ?_⟩
      exact Nat.le_of_eq (congrArg List.length (view_insertRow_unseen (h.uncommitted hw (hne hb rfl)) _).symm)
  case h_11 hb => -- the retag
    split at hn
    · cases hn
      exact h.advances_same rfl rfl rfl
    · rename_i hr
      cases hn
      rw [hb] at hphase
      have hrows := retag_ownRows hphase.2.1 (h.ownEnds hw (hne hb rfl)) hr
      exact ⟨⟨_, h.xids.active w b hw (hne hb rfl), hrows, fun _ hy => hy, Or.inl rfl⟩, Nat.le_refl _⟩
  case h_15 hb => -- the end of the transaction
    cases hn
    rw [hb] at hphase
    obtain ⟨hclaimed, hretagged, -⟩ := hphase
    refine h.advances_end hw (hne hb rfl) rfl (by simp) rfl (fun _ v hv => hretagged.begins hclaimed hv) fun _ => ?_
    rw [hclaimed.snapshot]
    simp
  case h_16 hb =>
    cases hn
    rw [hb] at hphase
    obtain ⟨honly, hnone⟩ := hphase
    refine h.advances_end hw (hne hb rfl) rfl (by simp) rfl (fun _ v hv hx => ?_) fun _ => ?_
    · have hmem : v ∈ s.catalog.inlined.filter fun v => v.xmin == b.batch.ownerXid :=
        List.mem_filter.mpr ⟨hv, by simpa using hx⟩
      rw [honly.rows.rows] at hmem
      simp [Batch.prewritten, rowsAt, hnone] at hmem
    · exact Nat.le_of_eq (congrArg List.length (view_untouched honly.snapshot).symm)
  case h_19 hended =>
    cases hn
    refine h.advances_end hw ?_ rfl (show XidStatus.aborted ≠ .inProgress by simp) rfl (by simp) (by simp)
    cases hp : b.phase with
    | ended c => exact absurd hp (hended c)
    | _ => rfl
  case h_18 | h_20 => cases hn
  all_goals
    first
    | cases hn; exact h.advances_same rfl rfl rfl
    | split at hn <;> cases hn <;> exact h.advances_same rfl rfl rfl

theorem OwnRows.append {x : Nat} {h new : List (Version InlinedRow)} (hends : OwnEnds x h)
    (hnew : ∀ v ∈ new, v.xmin = x ∧ v.xmax = none) : OwnRows x h (h ++ new) := by
  refine ⟨filter_append_own _ _ fun v hv => (hnew v hv).1, fun i v hi _ => ?_, fun v hv hvx y hy => ?_⟩
  · rw [List.getElem?_append_left (List.getElem?_eq_some_iff.mp hi).1]
    exact hi
  · rcases List.mem_append.mp hv with hv | hv
    · exact hends v hv hvx y hy
    · rw [(hnew v hv).2] at hy
      cases hy

theorem externalInsert_foldl (sees : Nat → Bool) (x snapshotId : Nat) : ∀ (inserts : List ExternalInsert)
    (acc : Catalog × List Publication), (inserts.foldl (externalInsert sees x snapshotId) acc).1.snapshot = acc.1.snapshot ∧
      ∃ new, (inserts.foldl (externalInsert sees x snapshotId) acc).1.inlined = acc.1.inlined ++ new ∧
        ∀ v ∈ new, v.xmin = x ∧ v.xmax = none ∧ v.data.beginSnapshot = snapshotId := by
  intro inserts
  induction inserts with
  | nil => exact fun acc => ⟨rfl, [], by simp⟩
  | cons ins inserts ih =>
    intro acc
    obtain ⟨old, hold, hown⟩ : ∃ old, (externalInsert sees x snapshotId acc ins).1.inlined = acc.1.inlined ++ old ∧
        ∀ v ∈ old, v.xmin = x ∧ v.xmax = none ∧ v.data.beginSnapshot = snapshotId := by
      simp only [externalInsert]
      split
      · refine ⟨_, rfl, fun v hv => ?_⟩
        obtain ⟨row, hrow, rfl⟩ := List.mem_map.mp hv
        exact ⟨rfl, rfl, (mem_rowsAt hrow).2.2.1⟩
      · exact ⟨[], by simp⟩
    obtain ⟨hsnapshot, new, hrows, hnew⟩ := ih (externalInsert sees x snapshotId acc ins)
    rw [hold, List.append_assoc] at hrows
    exact ⟨hsnapshot, old ++ new, hrows, fun v hv => (List.mem_append.mp hv).elim (hown v) (hnew v)⟩

theorem Inv.advances_external (h : Inv base s) (e : ExternalCommit) :
    Advances base s.toStore (externalCommit s.toStore e (latest base s.toStore)) := by
  obtain ⟨hsnapshot, new, hrows, hnew⟩ :=
    externalInsert_foldl (s.sees s.nextXid) s.nextXid (latest base s.toStore + 1) e.inserts (s.catalog, s.history)
  have hx := h.xids.fresh s.nextXid (Nat.le_refl _)
  refine ⟨⟨s.nextXid, hx, ?_, ended_update (by simp) _, Or.inr ⟨seen_commit, fun v hv hvx _ => ?_⟩⟩, ?_⟩
  · exact hrows ▸ OwnRows.append (h.heaps.ownEnds _ hx) fun v hv => ⟨(hnew v hv).1, (hnew v hv).2.1⟩
  · have hv : v ∈ s.catalog.inlined ++ new := hrows ▸ hv
    rcases List.mem_append.mp hv with hv | hv
    · exact absurd hvx (Nat.ne_of_lt (h.xids.inlined v hv).1)
    · rw [(hnew v hv).2.2]
      exact Nat.lt_succ_self _
  · have hview : view (s.sees s.nextXid) s.catalog.snapshot = s.snapshots :=
      view_untouched (h.xids.snapshot.untouched (Nat.le_refl _))
    have hsnaps : (externalCommit s.toStore e (latest base s.toStore)).snapshots = s.snapshots ++
        [⟨latest base s.toStore + 1, e.schemaVersion, e.nextCatalogId, e.nextFileId⟩] := by
      have hself : s.sees s.nextXid s.nextXid = true := seenBy_self
      rw [← hview, ← @view_insertRow _ _ _ _ 0 hself, ← hsnapshot]
      exact congrArg (view · _) seen_commit
    rw [hsnaps]
    simp

theorem Inv.advances_step (h : Inv base s) (hs : Step env s t) : Advances base s.toStore t.toStore := by
  obtain ⟨a, hn⟩ := hs
  cases a with
  | prepare w tableId schemaVersion isTransactionBlock usesXactSnapshot nestLevel =>
    simp only [next] at hn
    split at hn
    · cases hn
    · cases hn
      exact h.advances_same rfl rfl rfl
  | external e =>
    simp only [next] at hn
    split at hn
    · cases hn
    · rename_i i row hmax
      split at hn
      · cases hn
        obtain ⟨hrow, _, hle⟩ := maxBy_some hmax
        have hid := range'_last h.committed.contiguous rfl (List.mem_of_getElem? hrow) fun r hr => hle r hr rfl
        rw [show row.snapshotId = latest base s.toStore from hid]
        exact h.advances_external e
      · cases hn
  | _ =>
    simp only [next, Action.writer, Option.bind_eq_some_iff] at hn
    obtain ⟨b, hw, hn⟩ := hn
    exact h.advances_writerStep hw hn

/-! ## Runs -/

theorem Start.settled_rows (h : Start base s) : Settled s.status s.catalog.inlined :=
  fun v hv y hy => Or.inr (h.settled y ((h.inlinedXids v hv).2 y hy))

/-- **A committed snapshot never changes**: in every run, a reader at a snapshot that was committed before finds the same
rows afterwards. -/
theorem snapshots_immutable {s₀ : State} (hstart : Start base s₀) (hrun : ReflTransGen (Step env) s₀ s)
    (hlater : ReflTransGen (Step env) s t) {k : Nat} (hk : k ≤ latest base s.toStore) : t.readAt k = s.readAt k := by
  -- a step from `u` to `v` keeps what the reader finds, as long as its snapshot is committed
  have hstep : ∀ u v, Inv base u ∧ Settled u.status u.catalog.inlined → Step env u v →
      (Inv base v ∧ Settled v.status v.catalog.inlined) ∧
        (k ≤ latest base u.toStore → k ≤ latest base v.toStore ∧ v.readAt k = u.readAt k) := by
    intro u v hu huv
    obtain ⟨⟨x, hchange⟩, hlength⟩ := hu.1.advances_step huv
    refine ⟨⟨inv_step hu.1 huv, fun r hr y hy => ?_⟩, fun hle => ⟨?_, hchange.readAt_eq hu.2 hle⟩⟩
    · exact (hchange.settled hu.2 r hr y hy).imp_right (hchange.ended y)
    · unfold latest at hle ⊢
      omega
  have hbefore := run_invariant (fun u v hu huv => (hstep u v hu huv).1) hrun ⟨hstart.inv, hstart.settled_rows⟩
  have hafter := run_invariant (P := fun u => (Inv base u ∧ Settled u.status u.catalog.inlined) ∧
    k ≤ latest base u.toStore ∧ u.readAt k = s.readAt k) (fun u v hu huv => ?_) hlater ⟨hbefore, hk, rfl⟩
  · exact hafter.2.2
  · obtain ⟨hv, hkeeps⟩ := hstep u v hu.1 huv
    exact ⟨hv, (hkeeps hu.2.1).1, (hkeeps hu.2.1).2.trans hu.2.2⟩

/-- A writer publishes a row of table 7; a reader at the first snapshot still finds the two rows. -/
theorem snapshots_immutable_publish : ∃ t, ReflTransGen (Step ⟨fun _ _ => .ok, 3⟩) twoRows t ∧ t.history.length = 1 ∧
    t.readAt 0 = [⟨7, 1, 0, 0⟩, ⟨7, 1, 1, 0⟩] := by
  obtain ⟨t, hrun, ht⟩ := trace_reaches
    (fun s a t (h : next ⟨fun _ _ => .ok, 3⟩ s a = some t) => (⟨a, h⟩ : Step ⟨fun _ _ => .ok, 3⟩ s t)) twoRows
    [.prepare 0 7 1 false false 1, .read 0, .reserve 0 0 none, .bind 0 true, .prewrite 0 1, .publish 0 true, .read 0,
      .check 0 true, .claim 0 1, .tableStats 0 2, .changeRecord 0 3, .markPublished 0, .commit 0]
    (fun s => s.history.length == 1) (by decide +kernel)
  have hlatest : 0 ≤ latest twoRowsBase twoRows.toStore := Nat.zero_le _
  exact ⟨t, hrun, by simpa using ht, (snapshots_immutable twoRows_start .refl hrun hlatest).trans (by decide)⟩

end PgDucklake.Writer
