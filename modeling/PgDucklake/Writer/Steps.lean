import PgDucklake.Writer.Frame

/-!
# Steps that commit nothing

`Inv.ownStep` is the invariant after a step in which a running transaction writes rows of its own to the inline table or
the statistics; `Inv.setPhase` after one in which it writes nothing. With them: prewriting rows (`Inv.prewrite`), claiming a
snapshot (`Inv.claim`), retagging (`Inv.retag`), the table statistics (`Inv.tableStats`) and the change record.
-/

namespace PgDucklake.Writer

open Lib

variable {base : Base} {s : State} {w : Nat} {b : Backend}

/-! ## The writer's own record -/

theorem setWriter_some {v : Nat} {b' c : Backend} (h : (s.setWriter w b').writers v = some c) :
    (v = w ∧ c = b') ∨ (v ≠ w ∧ s.writers v = some c) := by
  by_cases hv : v = w
  · subst hv
    simp only [State.setWriter, Function.update_self, Option.some.injEq] at h
    exact Or.inl ⟨rfl, h.symm⟩
  · simp only [State.setWriter, Function.update_of_ne hv] at h
    exact Or.inr ⟨hv, h⟩

theorem XidInv.ne (h : XidInv s) {v : Nat} {c : Backend} (hw : s.writers w = some b) (hv : s.writers v = some c)
    (hne : v ≠ w) : c.batch.ownerXid ≠ b.batch.ownerXid := fun he => hne (h.distinct v w c b hv hw he)

theorem XidInv.ownStep (h : XidInv s) (hw : s.writers w = some b) (hne : b.phase.isEnded = false) (b' : Backend)
    (c' : Catalog) (hx : b'.batch.ownerXid = b.batch.ownerXid) (hsnap : XidsBelow s.nextXid c'.snapshot)
    (hstats : XidsBelow s.nextXid c'.tableStats) (hrows : XidsBelow s.nextXid c'.inlined) :
    XidInv ({ s with catalog := c' }.setWriter w b') where
  snapshot := hsnap
  tableStats := hstats
  inlined := hrows
  fresh := h.fresh
  writer := by
    intro v c hv
    rcases setWriter_some hv with ⟨rfl, rfl⟩ | ⟨_, hv⟩
    · rw [hx]; exact h.writer _ b hw
    · exact h.writer v c hv
  active := by
    intro v c hv hnc
    rcases setWriter_some hv with ⟨rfl, rfl⟩ | ⟨_, hv⟩
    · rw [hx]; exact h.active _ b hw hne
    · exact h.active v c hv hnc
  distinct := by
    intro v v' c c' hv hv' he
    rcases setWriter_some hv with ⟨rfl, rfl⟩ | ⟨hvw, hv₀⟩ <;>
      rcases setWriter_some hv' with ⟨rfl, rfl⟩ | ⟨hvw', hv₀'⟩
    · rfl
    · exact absurd (he.symm.trans hx) (h.ne hw hv₀' hvw')
    · exact absurd (he.trans hx) (h.ne hw hv₀ hvw)
    · exact h.distinct v v' c c' hv₀ hv₀' he

theorem Inv.uncommitted (h : Inv base s) (hw : s.writers w = some b) (hne : b.phase.isEnded = false) :
    s.isCommitted b.batch.ownerXid = false :=
  committedIn_of_ne (by rw [h.xids.active w b hw hne]; simp)

theorem Inv.ownEnds (h : Inv base s) (hw : s.writers w = some b) (hne : b.phase.isEnded = false) :
    OwnEnds b.batch.ownerXid s.catalog.inlined := h.heaps.ownEnds _ (h.xids.active w b hw hne)

theorem Inv.native_ne (h : Inv base s) (hw : s.writers w = some b) (hne : b.phase.isEnded = false) {e : Publication}
    (he : e ∈ s.history) (hn : e.native = true) : e.xid ≠ b.batch.ownerXid := by
  intro hex
  have hc := (h.natives e he hn).committed
  rw [hex, h.xids.active w b hw hne] at hc
  cases hc

theorem visible_committed {x : Nat} {v : Version InlinedRow} {isCommitted : Nat → Bool}
    (hv : v.visible isCommitted = true) (hx : isCommitted x = false) : v.xmin ≠ x := by
  rintro rfl
  simp [Version.visible, hx] at hv

theorem OwnRows.below {x n : Nat} {h h' : List (Version InlinedRow)} (ho : OwnRows x h h') (hx : x < n)
    (hb : XidsBelow n h) : XidsBelow n h' := by
  intro v hv
  by_cases hvx : v.xmin = x
  · exact ⟨hvx ▸ hx, fun y hy => (ho.ends v hv hvx y hy) ▸ hx⟩
  · exact hb v (ho.mem hv hvx)

/-- **A step that writes own rows keeps the invariant**; the statistics are only written under a claim. -/
theorem Inv.ownStep (h : Inv base s) (hw : s.writers w = some b) (hne : b.phase.isEnded = false) (b' : Backend)
    (c' : Catalog) (hx : b'.batch.ownerXid = b.batch.ownerXid) (hsnap : c'.snapshot = s.catalog.snapshot)
    (hstats : OwnHeap s.isCommitted b.batch.ownerXid s.catalog.tableStats c'.tableStats)
    (hrows : OwnRows b.batch.ownerXid s.catalog.inlined c'.inlined)
    (hclaim : c'.tableStats = s.catalog.tableStats ∨ ∃ v ∈ s.catalog.snapshot, v.xmin = b.batch.ownerXid)
    (hp : PhaseInv base { s.toStore with catalog := c' } b'.batch b'.phase) :
    Inv base ({ s with catalog := c' }.setWriter w b') := by
  have hnc := h.uncommitted hw hne
  have hlt := h.xids.writer w b hw
  have hactive := h.xids.active w b hw hne
  have hsnaps : Store.snapshots { s.toStore with catalog := c' } = s.snapshots := by
    simp only [Store.snapshots, hsnap]; rfl
  have hlatest : latest base { s.toStore with catalog := c' } = latest base s.toStore := by
    rw [latest, latest, hsnaps]
  constructor
  case xids =>
    exact h.xids.ownStep hw hne b' c' hx (hsnap ▸ h.xids.snapshot) (hstats.below _ hlt h.xids.tableStats)
      (hrows.below hlt h.xids.inlined)
  case committed =>
    refine ⟨?_, ?_, fun t => ?_, h.committed.sequential, fun v hv hvis => ?_⟩
    · exact (congrArg List.length hsnaps).symm ▸ h.committed.nonempty
    · exact hsnaps.symm ▸ h.committed.contiguous
    · exact (congrArg (List.filter _) hstats.view).trans (h.committed.stats t)
    · exact h.committed.rows v (hrows.mem hv (visible_committed hvis hnc)) hvis
  case heaps =>
    refine ⟨fun x hx => hrows.ownEnds (h.heaps.ownEnds x hx), fun v hv hp => ?_, fun v hv v' hv' => ?_⟩
    · exact (h.heaps.claims v (hsnap ▸ hv) hp).trans (congrArg (· + 1) hlatest.symm)
    · exact h.heaps.oneClaim v (hsnap ▸ hv) v' (hsnap ▸ hv')
  case natives =>
    intro e he hn
    exact (h.natives e he hn).keep (h.native_ne hw hne he hn) hrows (fun v hv => hsnap ▸ hv)
      (h.natives e he hn).committed
  case once => exact h.once
  case phase =>
    intro v c hv
    rcases setWriter_some hv with ⟨rfl, rfl⟩ | ⟨hvw, hv⟩
    · exact hp
    · have hpc := h.phase v c hv
      have hneq := h.xids.ne hw hv hvw
      cases hend : c.phase.isEnded with
      | true => exact PhaseInv.of_ended hend
      | false =>
        refine PhaseInv.frame hpc
          { history := rfl, snapshots := hsnaps, rows := hrows.filter hneq
            places := fun i u hi hu => hrows.places i u hi (hu ▸ hneq), snapshot := fun hu => hsnap ▸ hu
            tableStats := hstats.others _ hneq, claimed := fun hcl => ?_ }
        -- two running transactions cannot both hold a claim
        have hsame : c'.tableStats = s.catalog.tableStats := by
          rcases hclaim with hsame | ⟨u, hu, hux⟩
          · exact hsame
          · obtain ⟨u', hu', hux'⟩ := hcl
            have := h.heaps.oneClaim u' hu' u hu (by rw [hux']; exact h.xids.active v c hv hend)
              (by rw [hux]; exact hactive)
            exact absurd (hux'.symm.trans (this.trans hux)) hneq
        refine ⟨congrArg (view _) hsnap, congrArg (view _) hsame, ?_, fun u hu => hsnap ▸ hu⟩
        exact viewOf_congr_heap _ (hrows.filter hneq)

/-- **A step that writes nothing keeps the invariant.** -/
theorem Inv.setPhase (h : Inv base s) (hw : s.writers w = some b) (hne : b.phase.isEnded = false) (b' : Backend)
    (hx : b'.batch.ownerXid = b.batch.ownerXid) (hp : PhaseInv base s.toStore b'.batch b'.phase) :
    Inv base (s.setWriter w b') :=
  h.ownStep hw hne b' s.catalog hx rfl (.refl _ _ _) (.refl (h.ownEnds hw hne)) (Or.inl rfl) hp

end PgDucklake.Writer
