import PgDucklake.Writer.Commit

/-!
# External commits

An external writer commits a snapshot in one step. The tables it adds rows to are handled one after the other;
`ExternalInv` is what holds after each of them (`externalInv_insert`), and `Inv.external` the invariant after the commit.
-/

namespace PgDucklake.Writer

open Lib

variable {base : Base} {s : Store} {x snapshotId : Nat} {acc : Catalog × List Publication}

theorem OwnHeap.trans {α : Type} {isCommitted : Nat → Bool} {h₁ h₂ h₃ : List (Version α)}
    (h : OwnHeap isCommitted x h₁ h₂) (h' : OwnHeap isCommitted x h₂ h₃) : OwnHeap isCommitted x h₁ h₃ :=
  ⟨h'.view.trans h.view, fun y hy hu => h'.others y hy (h.others y hy hu), fun n hn hb => h'.below n hn (h.below n hn hb)⟩

/-- The catalog and history while transaction `x` of an external writer adds rows. -/
structure ExternalInv (base : Base) (s : Store) (x : Nat) (acc : Catalog × List Publication) : Prop where
  snapshot : acc.1.snapshot = s.catalog.snapshot
  own : OwnHeap s.isCommitted x s.catalog.tableStats acc.1.tableStats
  stats : StatsAgree base (s.sees x) acc.1.tableStats acc.2
  sequential : Sequential base.nextRowId (ranges acc.2)
  rows : ∃ new, acc.1.inlined = s.catalog.inlined ++ new ∧ ∀ v ∈ new, v.xmin = x ∧ v.xmax = none ∧
    ∃ e ∈ acc.2, e.xid = x ∧ e.range.key = v.data.tableId
  history : ∃ new, acc.2 = new ++ s.history ∧ ∀ e ∈ new, e.native = false

theorem StatsAgree.next {sees : Nat → Bool} {heap : List (Version TableStatsRow)} {history : List Publication}
    (h : StatsAgree base sees heap history) (t : Nat) : tableNextRowId sees heap t = nextRowId base history t := by
  rw [tableNextRowId, find?_of_filter (h t), expectedStats]
  cases ht : touched base history t with
  | false => simp [nextRowId_untouched ht]
  | true => simp

theorem StatsAgree.bump {heap : List (Version TableStatsRow)} {history : List Publication}
    (h : StatsAgree base (s.sees x) heap history) (e : Publication) :
    StatsAgree base (s.sees x) (bumpTableStats (s.sees x) x e.range.key e.range.count heap) (e :: history) := by
  have hself : s.sees x x = true := by simp [Store.sees]
  have hany : ((view (s.sees x) heap).any fun r => r.tableId == e.range.key) = touched base history e.range.key := by
    have hfilter := h e.range.key
    cases ht : touched base history e.range.key with
    | false =>
      rw [expectedStats, ht] at hfilter
      simpa [List.filter_eq_nil_iff] using hfilter
    | true =>
      rw [expectedStats, ht, if_pos rfl] at hfilter
      have hm := List.mem_filter.mp (hfilter.symm ▸ List.mem_singleton.mpr rfl)
      exact List.any_eq_true.mpr ⟨_, hm⟩
  unfold bumpTableStats
  rw [hany]
  split
  · rename_i ht
    exact h.update hself 0 ht rfl
  · rename_i ht
    exact h.insert hself 0 (Bool.eq_false_iff.mpr ht)

theorem bump_own (hx : s.isCommitted x = false) (t rows : Nat) (heap : List (Version TableStatsRow)) :
    OwnHeap s.isCommitted x heap (bumpTableStats (s.sees x) x t rows heap) := by
  unfold bumpTableStats
  split
  · exact .updateRows hx 0 _ _ heap
  · exact .insertRow hx 0 _ heap

/-- **One table of an external commit.** -/
theorem externalInv_insert (h : ExternalInv base s x acc) (hx : s.isCommitted x = false) (ins : ExternalInsert) :
    ExternalInv base s x (externalInsert (s.sees x) x snapshotId acc ins) := by
  have hstart := h.stats.next ins.tableId
  set e : Publication := ⟨x, snapshotId, ins.schemaVersion, false,
    ⟨ins.tableId, tableNextRowId (s.sees x) acc.1.tableStats ins.tableId, ins.rows⟩⟩ with he
  obtain ⟨new, hnew, hmem⟩ := h.rows
  obtain ⟨newHist, hhist, hnative⟩ := h.history
  refine ⟨h.snapshot, h.own.trans (bump_own hx _ _ _), h.stats.bump e, ⟨hstart, h.sequential⟩, ?_, ?_⟩
  · have hlift : ∀ v ∈ new, v.xmin = x ∧ v.xmax = none ∧ ∃ e' ∈ e :: acc.2, e'.xid = x ∧ e'.range.key = v.data.tableId := by
      intro v hv
      obtain ⟨h₁, h₂, e', he', hk⟩ := hmem v hv
      exact ⟨h₁, h₂, e', List.mem_cons_of_mem e he', hk⟩
    by_cases hin : ins.inlined = true
    · refine ⟨new ++ (rowsAt ins.tableId ins.schemaVersion (tableNextRowId (s.sees x) acc.1.tableStats ins.tableId)
        snapshotId ins.rows).map fun row => ⟨x, 0, none, row⟩, ?_, fun v hv => ?_⟩
      · simp [externalInsert, hin, hnew]
      · rcases List.mem_append.mp hv with hv | hv
        · exact hlift v hv
        · obtain ⟨row, hrow, rfl⟩ := List.mem_map.mp hv
          exact ⟨rfl, rfl, e, List.mem_cons_self, rfl, (mem_rowsAt hrow).1.symm⟩
    · exact ⟨new, by simp [externalInsert, hin, hnew], hlift⟩
  · refine ⟨e :: newHist, by simp [externalInsert, hhist, he], fun e' he' => ?_⟩
    rcases List.mem_cons.mp he' with rfl | he'
    · rfl
    · exact hnative e' he'

theorem externalInv_foldl (hx : s.isCommitted x = false) : ∀ (inserts : List ExternalInsert)
    {acc : Catalog × List Publication}, ExternalInv base s x acc →
      ExternalInv base s x (inserts.foldl (externalInsert (s.sees x) x snapshotId) acc)
  | [], _, h => h
  | ins :: inserts, _, h => externalInv_foldl hx inserts (externalInv_insert h hx ins)

theorem ExternalInv.ownRows (h : ExternalInv base s x acc)
    (hends : OwnEnds x s.catalog.inlined) :
    OwnRows x s.catalog.inlined acc.1.inlined := by
  obtain ⟨new, hnew, hmem⟩ := h.rows
  rw [hnew]
  refine ⟨filter_append_own _ _ fun v hv => (hmem v hv).1, fun i v hi _ => ?_, fun v hv hvx y hy => ?_⟩
  · rw [List.getElem?_append_left (List.getElem?_eq_some_iff.mp hi).1]
    exact hi
  · rcases List.mem_append.mp hv with hv | hv
    · exact hends v hv hvx y hy
    · rw [(hmem v hv).2.1] at hy
      cases hy

/-- **An external commit keeps the invariant.** -/
theorem Inv.external {s : State} (h : Inv base s) (e : ExternalCommit) {id : Nat} (hid : id = latest base s.toStore)
    (hcl : claimSnapshot s.toStore s.nextXid (id + 1) = .claimed) :
    Inv base { s with toStore := externalCommit s.toStore e id } := by
  subst hid
  unfold externalCommit
  dsimp only
  set x := s.nextXid with hx
  have hprog : s.status x = .inProgress := h.xids.fresh x (Nat.le_refl _)
  have hnc : s.isCommitted x = false := committedIn_of_ne (by rw [hprog]; simp)
  have hsnapU := h.xids.snapshot.untouched (Nat.le_refl s.nextXid)
  have hstatsU := h.xids.tableStats.untouched (Nat.le_refl s.nextXid)
  have hnone := h.heaps.noClaim hsnapU hcl
  have hfold : ExternalInv base s.toStore x
      (e.inserts.foldl (externalInsert (s.sees x) x (latest base s.toStore + 1)) (s.catalog, s.history)) := by
    refine externalInv_foldl hnc _ ⟨rfl, .refl _ _ _, fun t => ?_, h.committed.sequential, ⟨[], by simp, by simp⟩,
      ⟨[], by simp, by simp⟩⟩
    rw [← h.committed.stats t]
    exact congrArg (List.filter _) (view_untouched hstatsU)
  revert hfold
  generalize e.inserts.foldl (externalInsert (s.sees x) x (latest base s.toStore + 1)) (s.catalog, s.history) = acc
  obtain ⟨c, history⟩ := acc
  intro hfold
  dsimp only
  set r : SnapshotRow := ⟨latest base s.toStore + 1, e.schemaVersion, e.nextCatalogId, e.nextFileId⟩ with hr
  set s' : Store := ⟨{ c with
    snapshot := insertRow x 0 r c.snapshot
    changes := insertRow x 0 ⟨latest base s.toStore + 1, some e.changesMade⟩ c.changes
    tableIsLive := e.tableIsLive
    maxInlineSchemaVersion := e.maxInlineSchemaVersion }, x + 1, Function.update s.status x .committed, history⟩ with hs'
  have hsees : s'.isCommitted = s.sees x := seen_commit
  have hsnapshot : s'.catalog.snapshot = insertRow x 0 r s.catalog.snapshot :=
    congrArg (insertRow x 0 r) hfold.snapshot
  have hown := OwnHeap.insertRow hnc 0 r s.catalog.snapshot
  have hrows := hfold.ownRows (h.heaps.ownEnds x hprog)
  have hsnaps : s'.snapshots = s.snapshots ++ [r] := by
    rw [Store.snapshots, hsees, hsnapshot, view_insertRow (by simp [Store.sees])]
    exact congrArg (· ++ [r]) (view_untouched hsnapU)
  have hlast : latest base s.toStore < latest base s' := by
    have := h.committed.nonempty
    simp only [latest, hsnaps, List.length_append, List.length_singleton]
    omega
  have hstatus : ∀ y, y ≠ x → s'.status y = s.status y := fun y hy => Function.update_of_ne hy _ _
  have hmem : ∀ v ∈ s'.catalog.snapshot, v ∈ s.catalog.snapshot ∨ v = ⟨x, 0, none, r⟩ := by
    intro v hv
    rw [hsnapshot] at hv
    rcases List.mem_append.mp hv with hv | hv
    · exact Or.inl hv
    · exact Or.inr (List.mem_singleton.mp hv)
  have hnone' : ∀ v ∈ s'.catalog.snapshot, s'.status v.xmin ≠ .inProgress := by
    intro v hv hp
    rcases hmem v hv with hv | rfl
    · have hvx := (hsnapU v hv).1
      exact hnone v hv ((hstatus _ hvx).symm.trans hp)
    · simp [hs'] at hp
  have hwriter : ∀ w b, s.writers w = some b → b.batch.ownerXid ≠ x := by
    intro w b hw
    have := h.xids.writer w b hw
    omega
  obtain ⟨newHist, hhist, hnative⟩ := hfold.history
  constructor
  case xids =>
    refine ⟨?_, ?_, ?_, fun y hy => ?_, fun w b hw => ?_, fun w b hw hne => ?_, h.xids.distinct⟩
    · show XidsBelow (x + 1) s'.catalog.snapshot
      rw [hsnapshot]
      exact hown.below _ (Nat.lt_succ_self x) (h.xids.snapshot.mono (Nat.le_succ x))
    · exact hfold.own.below _ (Nat.lt_succ_self x) (h.xids.tableStats.mono (Nat.le_succ x))
    · exact hrows.below (Nat.lt_succ_self x) (h.xids.inlined.mono (Nat.le_succ x))
    · have hy' : x + 1 ≤ y := hy
      exact (hstatus y (by omega)).trans (h.xids.fresh y (by omega))
    · exact Nat.lt_succ_of_lt (h.xids.writer w b hw)
    · exact (hstatus _ (hwriter w b hw)).trans (h.xids.active w b hw hne)
  case committed =>
    show CommittedInv base s'
    refine h.committed.publish hsees hsnaps rfl (fun t => ?_) hfold.sequential hrows ?_ fun v hv hvx _ => ?_
    · rw [hsees]
      exact hfold.stats t
    · intro e' he'
      show e' ∈ history
      rw [show history = newHist ++ s.history from hhist]
      exact List.mem_append_right _ he'
    · obtain ⟨new, hnew, hmemNew⟩ := hfold.rows
      have hv' : v ∈ s.catalog.inlined ++ new := hnew ▸ hv
      rcases List.mem_append.mp hv' with hv' | hv'
      · have := (h.xids.inlined v hv').1
        omega
      · exact (hmemNew v hv').2.2
  case heaps =>
    refine ⟨fun y hy => ?_, fun v hv hp => absurd hp (hnone' v hv), fun v hv _ _ hp => absurd hp (hnone' v hv)⟩
    have hyx : y ≠ x := by
      rintro rfl
      exact absurd ((Function.update_self _ _ _).symm.trans hy) (by simp)
    exact hrows.ownEnds (h.heaps.ownEnds y ((hstatus y hyx).symm.trans hy))
  case natives =>
    intro e' he' hn
    have he'' : e' ∈ newHist ++ s.history := (show history = newHist ++ s.history from hhist) ▸ he'
    rcases List.mem_append.mp he'' with hnew | hold
    · rw [hnative e' hnew] at hn
      cases hn
    · have hnat := h.natives e' hold hn
      have hex : e'.xid ≠ x := by
        intro hex
        rw [← hex, hnat.committed] at hprog
        cases hprog
      refine hnat.keep hex hrows (fun v hv => ?_) ((hstatus _ hex).trans hnat.committed)
      show v ∈ s'.catalog.snapshot
      rw [hsnapshot]
      exact List.mem_append_left _ hv
  case once =>
    show history.Pairwise _
    rw [show history = newHist ++ s.history from hhist]
    refine List.pairwise_append.mpr ⟨?_, h.once, fun e' he' _ _ hn => ?_⟩
    · refine List.pairwise_of_forall_mem_list fun e' he' _ _ hn => ?_
      rw [hnative e' he'] at hn
      cases hn
    · rw [hnative e' he'] at hn
      cases hn
  case phase =>
    intro w b hw
    have hne := hwriter w b hw
    cases hend : b.phase.isEnded with
    | true => exact PhaseInv.of_ended hend
    | false =>
      refine (h.phase w b hw).advance (fun ho => ?_) hlast ?_
      · refine ⟨ho.rows.frame (hrows.filter hne) fun i v hi hv => hrows.places i v hi (hv ▸ hne), ?_, ?_⟩
        · show Untouched _ s'.catalog.snapshot
          rw [hsnapshot]
          exact hown.others _ hne ho.snapshot
        · exact hfold.own.others _ hne ho.tableStats
      · rintro ⟨v, hv, hvx⟩
        exact hnone v hv (hvx ▸ h.xids.active w b hw hend)

end PgDucklake.Writer
