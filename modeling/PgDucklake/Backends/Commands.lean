import PgDucklake.Backends.Steps

/-!
# Database commands of a backend

The commands of a batch leave the queue alone. `SlotOf.command` follows the slot of a backend through them: a batch that
must be retagged has no valid slot any more, and a commit publishes what the slot says.
-/

namespace PgDucklake.Backends

open Lib Queue Writer Relation

variable {base : CatalogKey → Base} {env : Env} {s t : State} {p : BackendId}

theorem recordNativeInlineWriteRows_same (b : Batch) (pointers : List Nat) :
    (recordNativeInlineWriteRows b pointers).ownerXid = b.ownerXid ∧
      (recordNativeInlineWriteRows b pointers).tableId = b.tableId ∧
      (recordNativeInlineWriteRows b pointers).candidateSnapshotId = b.candidateSnapshotId ∧
      (recordNativeInlineWriteRows b pointers).candidateRowId = b.candidateRowId := by
  unfold recordNativeInlineWriteRows
  split
  · exact ⟨rfl, rfl, rfl, rfl⟩
  · split <;> exact ⟨rfl, rfl, rfl, rfl⟩

variable {st : Store} {b b' : Backend} {a : Writer.Action} {new : List Publication}

theorem moves_batch (h : Moves env st b a b' new) :
    b'.batch.ownerXid = b.batch.ownerXid ∧ b'.batch.tableId = b.batch.tableId := by
  cases h with
  | prewrite hb =>
    obtain ⟨hx, ht, _⟩ := recordNativeInlineWriteRows_same b.batch _
    exact ⟨hx, ht⟩
  | _ => exact ⟨rfl, rfl⟩

variable {k : CatalogKey} {w : Nat}

theorem PhaseSlot.command {pub : List PublishedBatch} {session : Session} {x : ReservationSlot}
    (h : PhaseSlot pub session b.batch x b.phase) (hx : x.owner.xid = b.batch.ownerXid)
    (ht : x.tableId = b.batch.tableId) (hk : x.catalog = k) (hmove : Moves env st b a b' new)
    (ha : isCommandOf w a = true) (hcall : session.call = .none ∨ isAbort a = true)
    (hmark : session.loc.published = true → marksPublished b.phase = true) :
    PhaseSlot (publishedAfter k b b'.phase ++ pub) { session with call := callAfter b.phase b'.phase } b'.batch x
      b'.phase := by
  cases hmove with
  | prepareRead hb => rw [hb] at h; exact h.elim
  | prepareDerive hb => rw [hb] at h; exact h.elim
  | reserve hb => cases ha
  | bind hb hz =>
    rw [hb] at h ⊢
    exact ⟨⟨h.1.assigned, h.1.snapshot, h.1.row⟩, Or.inl rfl⟩
  | prewrite hb =>
    obtain ⟨_, _, hs, hr⟩ := recordNativeInlineWriteRows_same b.batch _
    rw [hb] at h ⊢
    exact ⟨⟨h.1.assigned, h.1.snapshot.trans hs.symm, h.1.row.trans hr.symm⟩, Or.inl rfl⟩
  | publish hb => cases ha
  | publishRead hb =>
    rw [hb] at h ⊢
    obtain ⟨hc, hn, hv⟩ := h
    have hvalid := hv.resolve_right (by rcases hcall with hc | hc <;> simp_all [isAbort])
    dsimp only
    cases readPublicationState st.catalog (st.sees b.batch.ownerXid) b.batch b.batch.startSnapshotId with
    | error e => exact trivial
    | ok st' =>
      cases hhas : st'.hasTableStats <;> simp only [afterRead, hhas] <;> exact ⟨hc, hn, Or.inl hvalid⟩
  | publishDerive hb =>
    rw [hb] at h
    obtain ⟨hc, hn, hv⟩ := h
    have hvalid := hv.resolve_right (by rcases hcall with hc | hc <;> simp_all [isAbort])
    exact ⟨hc, hn, Or.inl hvalid⟩
  | check hb => cases ha
  | claimLost hb hcl =>
    rw [hb] at h ⊢
    obtain ⟨hc, hn, rfl, _⟩ := h
    dsimp only
    unfold lostPhase
    split
    · exact trivial
    · exact ⟨hc, hn, Or.inr rfl⟩
  | claimed hb hcl =>
    rw [hb] at h ⊢
    obtain ⟨hc, hn, _, hf⟩ := h
    dsimp only
    unfold claimedPhase
    split
    · -- the candidates are the final ids, so nothing is retagged
      rename_i hne
      simp [← hf.snapshot, ← hf.row, hc.snapshot, hc.row] at hne
    · exact ⟨hc, hn, hf⟩
  | retag hb hp => rw [hb] at h; exact h.elim
  | tableStats hb hp =>
    rw [hb] at h ⊢
    rcases hp with rfl | ⟨e, rfl⟩
    · exact h
    · exact trivial
  | changeRecord hb => rw [hb] at h; exact h
  | markPublished hb => cases ha
  | commit hb =>
    rw [hb] at h
    obtain ⟨hc, hn, hf⟩ := h
    intro _
    refine ⟨⟨k, b.batch, _⟩, List.mem_append_left _ ?_, hk.symm, hx.symm, ht.symm, hc, hn, hf⟩
    simp [publishedAfter, hb]
  | commitNothing hb =>
    intro hp
    have := hmark hp
    rw [hb] at this
    cases this
  | abort hb => exact trivial

theorem act_some (h : s.act env k a = some t) :
    ∃ c, Writer.next env (s.catalogs k) a = some c ∧ t = { s with catalogs := Function.update s.catalogs k c } := by
  obtain ⟨c, hc, rfl⟩ := Option.map_eq_some_iff.mp h
  exact ⟨c, hc, rfl⟩

theorem act_moves {c : Writer.State} (hw : s.writer p = some b) (hn : Writer.next env (s.catalogs p.1) a = some c)
    (ha : a.writer = some p.2)
    (hp : ∀ v tableId schemaVersion isTransactionBlock usesXactSnapshot nestLevel, a ≠ .prepare v tableId schemaVersion isTransactionBlock usesXactSnapshot nestLevel)
    (hc : ∀ v, a ≠ .callback v) :
    ∃ b' new, c.writers p.2 = some b' ∧ c.history = new ++ (s.catalogs p.1).history ∧
      Moves env (s.catalogs p.1).toStore b a b' new := by
  obtain ⟨b₀, hb₀, hs⟩ := next_writerStep hn ha hp
  obtain rfl : b₀ = b := Option.some.inj (hb₀.symm.trans hw)
  rcases writerStep_moves hs with ⟨v, hv, _⟩ | ⟨b', new, hw', hh, hmove⟩
  · exact absurd hv (hc v)
  · exact ⟨b', new, by rw [hw', Function.update_self], hh, hmove⟩

theorem isCommandOf_writer (ha : isCommandOf w a = true) : a.writer = some w := by
  cases a <;> simp_all [isCommandOf, Action.writer]

theorem Inv.publish_once (h : Inv base s) (hw : s.writer p = some b)
    (hmove : Moves env (s.catalogs p.1).toStore b a b' new) :
    (∀ c ∈ publishedAfter p.1 b b'.phase, c.catalog = p.1 ∧ publicationOf c.batch c.st ∈ new) ∧
      (publishedAfter p.1 b b'.phase ++ s.published).Pairwise fun c c' =>
        c.catalog = c'.catalog → c.batch.ownerXid ≠ c'.batch.ownerXid := by
  by_cases hnil : publishedAfter p.1 b b'.phase = []
  · rw [hnil]
    exact ⟨by simp, h.once⟩
  · obtain ⟨valid, st, hb, hb'⟩ : ∃ valid st, b.phase = .published valid st ∧ b'.phase = .ended true := by
      unfold publishedAfter at hnil
      split at hnil
      · exact ⟨_, _, ‹_›, ‹_›⟩
      · exact absurd rfl hnil
    have hpub : publishedAfter p.1 b b'.phase = [⟨p.1, b.batch, st⟩] := by simp [publishedAfter, hb, hb']
    have hne : b.phase.isEnded = false := by rw [hb]; rfl
    rw [hpub]
    refine ⟨fun c hc => ?_, List.pairwise_cons.mpr ⟨fun c hc hk hx => ?_, h.once⟩⟩
    · obtain rfl := List.mem_singleton.mp hc
      refine ⟨rfl, ?_⟩
      cases hmove with
      | commit hb₀ =>
        rw [hb] at hb₀
        cases hb₀
        exact List.mem_singleton.mpr rfl
      | _ => simp_all
    · -- what is committed is not of a running transaction
      have hmem := h.published c hc
      rw [← hk] at hmem
      exact (h.catalogs p.1).native_ne hw hne hmem rfl hx.symm

/-- **A command keeps the invariant.** -/
theorem inv_command (h : Inv base s) (hw : s.writer p = some b) (ha : isCommandOf p.2 a = true)
    (hcall : (s.sessions p).call = .none ∨ isAbort a = true) (hn : commandStep env s p b a = some t) : Inv base t := by
  obtain ⟨t₁, hact, rfl⟩ := Option.map_eq_some_iff.mp hn
  obtain ⟨c, hc, rfl⟩ := act_some hact
  have haw := isCommandOf_writer ha
  obtain ⟨b', new, hw', hh, hmove⟩ := act_moves hw hc haw (by rintro _ _ _ _ _ _ rfl; cases ha)
    (by rintro _ rfl; cases ha)
  obtain ⟨hlog, honce⟩ := h.publish_once hw hmove
  have hafter : State.writer { s with catalogs := Function.update s.catalogs p.1 c } p = some b' := by
    simp [State.writer, hw']
  rw [hafter]
  obtain ⟨hx, ht⟩ := moves_batch hmove
  have hmark : (s.sessions p).loc.published = true → marksPublished b.phase = true := by
    intro hp
    obtain ⟨b₀, hb₀, hm⟩ := h.marked p hp
    rwa [Option.some.inj (hw.symm.trans hb₀)]
  refine h.shrink _ (publishedAfter p.1 b b'.phase) (Moved.act h hc haw) rfl (.refl _) (fun _ => ⟨rfl, b', hw'⟩)
    (fun b₀ b₁ hb₀ hb₁ i x _ _ _ _ hso => ?_) (fun hp => ?_) (fun c' hc' => ?_) honce
  · obtain rfl : b₀ = b := Option.some.inj (hb₀.symm.trans hw)
    obtain rfl : b₁ = b' := Option.some.inj (hb₁.symm.trans hw')
    refine ⟨hso.pending, hso.catalog, hso.owner.trans hx.symm, hso.table.trans ht.symm,
      hso.phase.command hso.owner hso.table hso.catalog hmove ha hcall fun hp => ?_⟩
    exact hmark hp
  · have hmark' := hmark hp
    refine ⟨b', hw', ?_⟩
    cases hmove <;> simp_all [marksPublished]
  · obtain ⟨hk, hmem⟩ := hlog c' hc'
    rw [hk, Function.update_self, hh]
    exact List.mem_append_left _ hmem

/-- **A new transaction and an external commit keep the invariant.** -/
theorem inv_prepare (h : Inv base s) {tableId schemaVersion nestLevel : Nat} {isTransactionBlock usesXactSnapshot : Bool}
    (hn : next env s (.prepare p tableId schemaVersion isTransactionBlock usesXactSnapshot nestLevel) = some t) :
    Inv base t := by
  obtain ⟨t₁, hact, rfl⟩ := Option.map_eq_some_iff.mp hn
  obtain ⟨c, hc, rfl⟩ := act_some hact
  obtain ⟨hnone, _⟩ := next_prepare hc
  have hidle : ∀ t', ¬Holds (s.sessions p) t' := by
    intro t' hh
    obtain ⟨_, b, hb⟩ := h.holders p t' hh
    rw [State.writer, hnone] at hb
    cases hb
  refine h.shrink _ [] (Moved.act h hc rfl) rfl (.refl _) (fun hact => absurd ⟨hact, rfl⟩ (hidle _))
    (fun b₀ b₁ hb₀ => ?_) (fun hp => ?_) (by simp) h.once
  · rw [State.writer, hnone] at hb₀
    cases hb₀
  · obtain ⟨b, hb, _⟩ := h.marked p hp
    rw [State.writer, hnone] at hb
    cases hb

theorem inv_external (h : Inv base s) {e : ExternalCommit} (hn : next env s (.external k e) = some t) : Inv base t := by
  obtain ⟨c, hc, rfl⟩ := act_some hn
  obtain ⟨hwriters, new, hnew⟩ := next_external hc
  have hw : ∀ p, State.writer { s with catalogs := Function.update s.catalogs k c } p = s.writer p := by
    intro p
    by_cases hk : p.1 = k
    · simp [State.writer, hk, hwriters]
    · simp [State.writer, hk]
  constructor
  case catalogs =>
    intro k'
    by_cases hk : k' = k
    · subst hk
      simpa using inv_next (h.catalogs k') hc
    · simpa [hk] using h.catalogs k'
  case below => exact h.below
  case holders => exact fun p t' hh => ⟨(h.holders p t' hh).1, by rw [hw p]; exact (h.holders p t' hh).2⟩
  case distinct => exact h.distinct
  case slot => exact fun p b hb => h.slot p b (hw p ▸ hb)
  case marked => exact fun p hp => by rw [hw p]; exact h.marked p hp
  case anchors => exact h.anchors
  case published =>
    intro c' hc'
    have := h.published c' hc'
    by_cases hk : c'.catalog = k
    · subst hk
      simp [hnew, this]
    · simpa [hk] using this
  case once => exact h.once

end PgDucklake.Backends
