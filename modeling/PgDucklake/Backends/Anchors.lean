import PgDucklake.Backends.Calls
import Mathlib.Data.List.Pairwise

/-!
# Committed anchors tell the truth

`inv_next` puts the steps of the backends together. In every run from an empty queue, a valid committed slot is that of a
batch that was committed with these ids and was not retagged: `anchors_true`.
-/

namespace PgDucklake.Backends

open Lib Queue Writer Relation

variable {base : CatalogKey → Base} {env : Env} {s t : State} {p : BackendId}

/-! ## Reserve -/

theorem finishReserve_setCall (call : QueueCall) (commandId : Nat) (answer : Option (Nat × Nat)) :
    finishReserve env (s.setCall p call) p commandId answer = finishReserve env s p commandId answer := by
  simp [finishReserve, State.act, State.setCall, State.setSession, Function.comp_def]

variable {x : ReservationSlot}

theorem Owns.active {q : QueueShmem} {session : Session} (h : Owns q session x) :
    session.loc.reservation.active = true := h.2.2.1

variable {st : PublicationState} {commandId i : Nat} {owner : OwnerIdentity} {rowCount : Option Nat}
  {l : List ReservationSlot}

theorem inv_afterRegister (h : Inv base s) {b : Backend} {free : ReservationSlot} {call : QueueCall}
    (hw : s.writer p = some b) (hb : b.phase = .prepared st) (hs : Shrinks s.queue.slots l)
    (hfree : l[i]? = some free)
    (hreg : RegisteredFor (reserveArgs p.1 b.batch st commandId owner rowCount) s.queue.nextTicket x)
    (hn : afterRegister env (State.setSession { s with queue := ⟨s.queue.nextTicket + 1, l.set i x⟩ } p ⟨⟨⟨i, s.queue.nextTicket, true⟩, false⟩, call⟩) p commandId x = some t) :
    Inv base t := by
  have hlen := (List.getElem?_eq_some_iff.mp hfree).1
  -- as long as the rows are not known, the backend waits for them
  have hwait : Inv base (State.setSession { s with queue := ⟨s.queue.nextTicket + 1, l.set i x⟩ } p
      ⟨⟨⟨i, s.queue.nextTicket, true⟩, false⟩, .waitRows commandId x.candidateSnapshotId⟩) := by
    refine h.register hw hs hfree hreg.ticket_eq hreg.pending _ fun _ => ⟨hreg.pending, hreg.catalog, ?_, hreg.table, ?_⟩
    · exact congrArg OwnerIdentity.xid hreg.owner
    · rw [hb]
      exact ⟨commandId, Or.inl rfl⟩
  have hown : ∀ y, Owns ⟨s.queue.nextTicket + 1, l.set i x⟩
      ⟨⟨⟨i, s.queue.nextTicket, true⟩, false⟩, .waitRows commandId x.candidateSnapshotId⟩ y → y = x := by
    intro y hy
    have := hy.1
    rw [List.getElem?_set_self hlen] at this
    exact (Option.some.inj this).symm
  have hcall : ∀ answer, finishReserve env (State.setSession { s with queue := ⟨s.queue.nextTicket + 1, l.set i x⟩ } p
      ⟨⟨⟨i, s.queue.nextTicket, true⟩, false⟩, call⟩) p commandId answer =
        finishReserve env (State.setSession { s with queue := ⟨s.queue.nextTicket + 1, l.set i x⟩ } p
          ⟨⟨⟨i, s.queue.nextTicket, true⟩, false⟩, .waitRows commandId x.candidateSnapshotId⟩) p commandId answer := by
    intro answer
    rw [← finishReserve_setCall (.waitRows commandId x.candidateSnapshotId)]
    simp [State.setCall, State.setSession]
  unfold afterRegister at hn
  split at hn
  · rename_i hv
    rw [hcall] at hn
    refine inv_finishReserve hwait rfl (.refl _) hn fun y hy => ?_
    simp only [State.setSession, Function.update_self] at hy
    obtain rfl := hown y hy
    rw [hy.2.1.2] at hv
    cases hv
  · split at hn
    · rename_i hassigned
      rw [hcall] at hn
      refine inv_finishReserve hwait rfl (.refl _) hn fun y hy => ?_
      simp only [State.setSession, Function.update_self] at hy
      obtain rfl := hown y hy
      exact ⟨hassigned, rfl⟩
    · cases hn
      simpa [State.setCall, State.setSession] using hwait

variable {b : Batch}

theorem inv_reserve (h : Inv base s) (hw : s.writer p = some ⟨b, .prepared st⟩)
    (hact : (s.sessions p).loc.reservation.active = false)
    (hn : reserveStep env s p b st commandId owner rowCount = some t) : Inv base t := by
  have hnone : ∀ {q : QueueShmem} {x : ReservationSlot}, ¬Owns q (s.sessions p) x := by
    intro q x ho
    have := ho.active
    rw [hact] at this
    cases this
  unfold reserveStep at hn
  rcases reservePass_cases (reserveArgs p.1 b st commandId owner rowCount) s.queue with
    ⟨q', pass, heq, hpass, hs, hnext⟩ | ⟨l, i, free, _, hs, hfree, _, heq⟩
  · rw [heq] at hn
    rcases hpass with rfl | rfl
    · dsimp only at hn
      split at hn
      · cases hn
        exact h.setCall hnext hs _ fun _ _ _ ho => absurd ho hnone
      · exact inv_finishReserve h hnext hs hn fun _ ho => absurd ho hnone
    · exact inv_finishReserve h hnext hs hn fun _ ho => absurd ho hnone
  · rw [heq] at hn
    exact inv_afterRegister h hw rfl hs hfree (registeredFor _ _ _ _) hn

variable {q' : QueueShmem}

theorem Inv.shrinkQueue (h : Inv base s) (hnext : q'.nextTicket = s.queue.nextTicket)
    (hs : Shrinks s.queue.slots q'.slots) : Inv base { s with queue := q' } := by
  have := h.setCall (p := (⟨0, 0⟩, 0)) hnext hs (s.sessions (⟨0, 0⟩, 0)).call fun _ _ _ _ hso => hso.phase
  simpa [State.setCall, State.setSession] using this

variable {snapshotId : Nat} {now budgetMs : Int}

theorem inv_waitRows (h : Inv base s) (hw : s.writer p = some ⟨b, .prepared st⟩)
    (hcall : (s.sessions p).call = .waitRows commandId snapshotId)
    (hn : waitRowsStep env s p commandId snapshotId now budgetMs = some t) : Inv base t := by
  unfold waitRowsStep at hn
  have hcand : ∀ {c x}, PhaseSlot s.published (s.sessions p) c x (.prepared st) → x.candidateSnapshotId = snapshotId := by
    rintro c x ⟨_, hc | ⟨hc, _⟩⟩ <;> rw [hcall] at hc <;> cases hc
    rfl
  cases ho : (waitIteration s.queue (s.sessions p).loc.reservation false now budgetMs).2 with
  | gone =>
    dsimp only at hn
    rw [ho] at hn
    by_cases hact : (s.sessions p).loc.reservation.active = true
    · obtain ⟨heq, hdead⟩ := wait_gone hact ho
      rw [heq] at hn
      exact inv_finishReserve h rfl (.refl _) hn fun _ hx => (hx.of_dead hdead).elim
    · rw [show (waitIteration s.queue (s.sessions p).loc.reservation false now budgetMs).1 = s.queue by
        simp [waitIteration, findSlot, hact]] at hn
      exact inv_finishReserve h rfl (.refl _) hn fun _ hx => absurd hx.active hact
  | ready =>
    dsimp only at hn
    rw [ho] at hn
    cases hn
    obtain ⟨i, x, rowId, hf, hl, hq⟩ := waitRows_ready ho
    have hown : Owns s.queue (s.sessions p) x := by
      obtain ⟨hi, _, rfl, ht, ha⟩ := findSlot_some hf
      exact ⟨hi, hl, ha, ht.symm⟩
    have hso := h.owns hw hown
    rcases hq with ⟨heq, hassigned⟩ | heq
    · rw [heq]
      refine h.setCall rfl (.refl _) _ fun b' y hw' hy hso' => ?_
      obtain rfl : _ = b' := Option.some.inj (hw.symm.trans hw')
      obtain rfl : x = y := Option.some.inj (hown.1.symm.trans hy.1)
      exact ⟨commandId, Or.inr ⟨by rw [hcand hso'.phase], hassigned⟩⟩
    · rw [heq]
      refine h.setSlot hf rfl hso.pending fun b' hw' => ?_
      obtain rfl : _ = b' := Option.some.inj (hw.symm.trans hw')
      exact ⟨hso.pending, hso.catalog, hso.owner, hso.table, commandId, Or.inr ⟨by rw [← hcand hso.phase]; rfl, rfl⟩⟩
  | blocked blocker deadline =>
    dsimp only at hn
    rw [ho] at hn
    cases hn
    obtain ⟨hs, hnext⟩ := wait_blocked ho
    exact h.shrinkQueue hnext hs

theorem inv_readRows (h : Inv base s) (hw : s.writer p = some ⟨b, .prepared st⟩)
    (hcall : (s.sessions p).call = .readRows commandId snapshotId)
    (hn : readRowsStep env s p commandId snapshotId = some t) : Inv base t := by
  have hphase : ∀ {x}, Owns s.queue (s.sessions p) x → x.candidateSnapshotId = snapshotId ∧ x.rowAssigned = true := by
    intro x hx
    obtain ⟨c, hc | ⟨hc, ha⟩⟩ := (h.owns hw hx).phase
    · rw [hcall] at hc
      cases hc
    · rw [hcall] at hc
      cases hc
      exact ⟨rfl, ha⟩
  have hfound : ∀ {x}, Owns s.queue (s.sessions p) x →
      findSlot s.queue.slots (s.sessions p).loc.reservation = some ((s.sessions p).loc.reservation.slot, x) :=
    fun hx => findSlot_of_live hx.active hx.1 hx.2.1 hx.2.2.2.symm
  unfold readRowsStep at hn
  split at hn
  · rename_i i current hf
    split at hn
    · rename_i hbad
      refine inv_finishReserve h rfl (.refl _) hn fun x hx => ?_
      rw [hfound hx] at hf
      cases hf
      simp [hx.2.1.2, (hphase hx).2] at hbad
    · refine inv_finishReserve h rfl (.refl _) hn fun x hx => ?_
      rw [hfound hx] at hf
      cases hf
      obtain ⟨hsnap, ha⟩ := hphase hx
      exact ⟨ha, by rw [hsnap]⟩
  · rename_i hf
    refine inv_finishReserve h rfl (.refl _) hn fun x hx => ?_
    rw [hfound hx] at hf
    cases hf

/-! ## Publication -/

variable {attempt : Nat} {valid : Bool}

theorem publishPhase_answer (h : publishPhase b false = .publishRead attempt valid) :
    publishPhase b true = .publishRead 0 true := by
  unfold publishPhase at h ⊢
  split at h
  · cases h
  · rename_i hz
    rw [if_neg hz]
    split at h
    · cases h
    · rename_i hmax
      rw [if_neg hmax]

theorem inv_complete (h : Inv base s) (hw : s.writer p = some ⟨b, .prewriting⟩) (hn : completeStep env s p b = some t) :
    Inv base t := by
  unfold completeStep at hn
  split at hn
  · split at hn
    · rename_i hact
      cases hc : (completeNativeWriterReservation s.queue (s.sessions p).loc.reservation b.rowsInserted).2 with
      | false =>
        obtain ⟨hdead, hs, hnext⟩ := dead_complete hact hc
        rw [← Prod.mk.eta (p := completeNativeWriterReservation s.queue (s.sessions p).loc.reservation b.rowsInserted),
          hc] at hn
        exact inv_finishWait h hnext hs hn fun _ _ _ _ hx => (hx.of_dead hdead).elim
      | true =>
        obtain ⟨i, x, hf, hl, _, heq⟩ := complete_true hc
        rw [← Prod.mk.eta (p := completeNativeWriterReservation s.queue (s.sessions p).loc.reservation b.rowsInserted),
          hc, heq] at hn
        cases hn
        have hown : Owns s.queue (s.sessions p) x := by
          obtain ⟨hi, _, rfl, ht, ha⟩ := findSlot_some hf
          exact ⟨hi, hl, ha, ht.symm⟩
        have hso := h.owns hw hown
        refine h.setSlot hf rfl hso.pending fun b' hw' => ?_
        obtain rfl : _ = b' := Option.some.inj (hw.symm.trans hw')
        obtain ⟨hcand, _⟩ := hso.phase
        exact ⟨hso.pending, hso.catalog, hso.owner, hso.table, ⟨hcand.assigned, hcand.snapshot, hcand.row⟩,
          Or.inr ⟨rfl, rfl, rfl⟩⟩
    · rename_i hact
      exact inv_finishWait h rfl (.refl _) hn fun _ _ _ _ hx => absurd hx.active hact
  · rename_i hread
    refine inv_finishWait h rfl (.refl _) hn fun b' hw' hp => ?_
    obtain rfl : _ = b' := Option.some.inj (hw.symm.trans hw')
    exact absurd (publishPhase_answer hp) (hread _ _)

theorem inv_waitPublication (h : Inv base s) (hcall : (s.sessions p).call = .waitPublication)
    (hn : waitPublicationStep env s p now budgetMs = some t) : Inv base t := by
  unfold waitPublicationStep at hn
  cases ho : (waitIteration s.queue (s.sessions p).loc.reservation true now budgetMs).2 with
  | gone =>
    dsimp only at hn
    rw [ho] at hn
    by_cases hact : (s.sessions p).loc.reservation.active = true
    · obtain ⟨heq, hdead⟩ := wait_gone hact ho
      rw [heq] at hn
      exact inv_finishWait h rfl (.refl _) hn fun _ _ _ _ hx => (hx.of_dead hdead).elim
    · rw [show (waitIteration s.queue (s.sessions p).loc.reservation true now budgetMs).1 = s.queue by
        simp [waitIteration, findSlot, hact]] at hn
      exact inv_finishWait h rfl (.refl _) hn fun _ _ _ _ hx => absurd hx.active hact
  | ready =>
    dsimp only at hn
    rw [ho, (waitIteration_ready ho).1] at hn
    exact inv_finishWait h rfl (.refl _) hn fun _ _ _ _ _ => ⟨rfl, hcall⟩
  | blocked blocker deadline =>
    dsimp only at hn
    rw [ho] at hn
    cases hn
    obtain ⟨hs, hnext⟩ := wait_blocked ho
    exact h.shrinkQueue hnext hs

theorem inv_abandon (h : Inv base s) (hn : next env s (.abandon p) = some t) : Inv base t := by
  have hdead : ∀ {x}, ¬Owns (abandonReservation s.queue (s.sessions p).loc.reservation) (s.sessions p) x :=
    fun hx => hx.of_dead (dead_abandonReservation hx.active)
  have hs := shrinks_abandonReservation s.queue (s.sessions p).loc.reservation
  have hnext := abandon_nextTicket s.queue (s.sessions p).loc.reservation
  simp only [next] at hn
  split at hn
  · exact inv_finishReserve h hnext hs hn fun _ hx => absurd hx hdead
  · exact inv_finishWait h hnext hs hn fun _ _ _ _ hx => absurd hx hdead
  · cases hn

/-- **The checks of an attempt** leave a valid reservation only at the ids that are published. -/
theorem inv_act_check (h : Inv base s) {answer : Bool} (hw : s.writer p = some ⟨b, .publishCheck attempt valid st⟩)
    (hcall : (s.sessions p).call = .none) (hnext : q'.nextTicket = s.queue.nextTicket)
    (hs : Shrinks s.queue.slots q'.slots) (hn : State.act env { s with queue := q' } p.1 (.check p.2 answer) = some t)
    (hslot : checkPublicationState env b st = .ok () → valid = true → ∀ x, Owns q' (s.sessions p) x → answer = true ∧ AtFinal st x) :
    Inv base t := by
  obtain ⟨c, hc, rfl⟩ := act_some hn
  obtain ⟨b', new, hw', _, hmove⟩ := act_moves (s := s) hw hc rfl nofun nofun
  have hstep := h.shrink (s.sessions p) [] (Moved.act h hc rfl) hnext hs (fun _ => ⟨rfl, b', hw'⟩)
    (fun b₀ b₁ hb₀ hb₁ i x hx hl hh hi hso => ?_) (fun hp => ?_) (by simp) h.once
  · simpa [State.after] using hstep
  · obtain rfl : _ = b₀ := Option.some.inj (hw.symm.trans hb₀)
    obtain rfl : b₁ = b' := Option.some.inj (hb₁.symm.trans hw')
    cases hmove with
    | check hb =>
      cases hb
      refine ⟨hso.pending, hso.catalog, hso.owner, hso.table, ?_⟩
      obtain ⟨hcand, hcount, hv⟩ := hso.phase
      rw [hcall] at hv
      obtain rfl := hv.resolve_right (by simp)
      dsimp only
      cases hok : checkPublicationState env b st with
      | error e => exact trivial
      | ok u =>
        obtain ⟨rfl, hf⟩ := hslot hok rfl x ⟨hi ▸ hx, hl, hh⟩
        exact ⟨hcand, hcount, rfl, hf.snapshot, hf.row⟩
  · exact absurd hp (h.unmarked hw rfl)

theorem inv_check (h : Inv base s) (hw : s.writer p = some ⟨b, .publishCheck attempt valid st⟩)
    (hcall : (s.sessions p).call = .none) (hn : checkStep env s p b valid st = some t) : Inv base t := by
  unfold checkStep at hn
  split at hn
  · rename_i e he
    refine inv_act_check h hw hcall rfl (.refl _) hn fun hok => ?_
    rw [he] at hok
    cases hok
  · split at hn
    · rename_i hgo
      simp only [Bool.and_eq_true] at hgo
      dsimp only at hn
      refine inv_act_check h hw hcall (validate_nextTicket _ _ _ _)
        (shrinks_validateNativeWriterReservation _ _ _ _) hn fun _ _ x hx => ?_
      cases ha : (validateNativeWriterReservation s.queue (s.sessions p).loc.reservation (finalSnapshotId st)
          (finalRowId st)).2 with
      | false => exact (hx.of_dead (dead_validate hgo.2 ha)).elim
      | true =>
        obtain ⟨heq, i, y, hf, hsnap, hrow⟩ := validate_true ha
        rw [heq] at hx
        rw [findSlot_of_live hx.active hx.1 hx.2.1 hx.2.2.2.symm] at hf
        cases hf
        exact ⟨rfl, hsnap, hrow⟩
    · rename_i hgo
      refine inv_act_check h hw hcall rfl (.refl _) hn fun _ hv x hx => ?_
      simp [hv, hx.active] at hgo

theorem inv_invalidate (h : Inv base s) (hn : next env s (.invalidate p) = some t) : Inv base t := by
  simp only [next] at hn
  split at hn
  · cases hn
    refine h.setCall (invalidate_nextTicket _ _) (shrinks_invalidateNativeWriterReservation _ _) _ fun _ _ _ hx => ?_
    exact (hx.of_dead (dead_invalidateNativeWriterReservation hx.active)).elim
  · cases hn

theorem mark_reservation (loc : LocalReservation) (r : NativeWriterReservation) :
    (markNativeWriterReservationPublished loc r).reservation = loc.reservation := by
  unfold markNativeWriterReservationPublished
  split <;> rfl

theorem inv_markPublished (h : Inv base s) (hn : next env s (.markPublished p) = some t) : Inv base t := by
  simp only [next] at hn
  split at hn
  · rename_i b valid st hw hcall
    obtain ⟨t₁, hact, rfl⟩ := Option.map_eq_some_iff.mp hn
    obtain ⟨c, hc, rfl⟩ := act_some hact
    obtain ⟨b', new, hw', _, hmove⟩ := act_moves (s := s) hw hc rfl nofun nofun
    have hres := mark_reservation (s.sessions p).loc (s.sessions p).loc.reservation
    refine h.shrink _ [] (Moved.act h hc rfl) rfl (.refl _) (fun _ => ⟨hres, b', hw'⟩)
      (fun b₀ b₁ hb₀ hb₁ i x hx hl hh hi hso => ?_) (fun hp => ⟨b', hw', ?_⟩) (by simp) h.once
    · obtain rfl : _ = b₀ := Option.some.inj (hw.symm.trans hb₀)
      obtain rfl : b₁ = b' := Option.some.inj (hb₁.symm.trans hw')
      cases hmove with
      | markPublished hb =>
        cases hb
        exact ⟨hso.pending, hso.catalog, hso.owner, hso.table, hso.phase⟩
    · cases hmove with
      | markPublished hb => rfl
  · cases hn

/-! ## The end of a transaction -/

theorem mem_pruneAnchors {anchor : ReservationSlot} {j : Nat} {y : ReservationSlot}
    (hy : (pruneAnchors anchor l)[j]? = some y) (hl : Live y) : l[j]? = some y := by
  rw [pruneAnchors, List.getElem?_map, Option.map_eq_some_iff] at hy
  obtain ⟨z, hz, he⟩ := hy
  split at he
  · rw [← he] at hl
    exact absurd hl zero_not_live
  · rw [← he]
    exact hz

/-- **The callback of a commit** leaves the slot as a committed one. -/
theorem inv_commitSlot (h : Inv base s) {b : Backend} {c : Writer.State} (hw : s.writer p = some b)
    (hb : b.phase = .ended true) (hm : Moved base s p c) (hpub : (s.sessions p).loc.published = true)
    (hf : findSlot s.queue.slots (s.sessions p).loc.reservation = some (i, x)) (hv : x.valid = true) :
    Inv base (s.after p c { s.queue with slots := pruneAnchors x (s.queue.slots.set i (commitSlot x)) } ⟨.none, .none⟩
      []) := by
  obtain ⟨hi, hu, rfl, ht, ha⟩ := findSlot_some hf
  have hlen := (List.getElem?_eq_some_iff.mp hi).1
  have hhold : Holds (s.sessions p) x.ticket := ⟨ha, ht.symm⟩
  have hso := h.owns hw ⟨hi, ⟨hu, hv⟩, hhold⟩
  have htruth : Truth s.published x.core := by
    have hphase := hso.phase
    rw [hb] at hphase
    exact hphase hpub
  have hset : SameBut x.ticket s.queue.slots (s.queue.slots.set (s.sessions p).loc.reservation.slot (commitSlot x)) :=
    SameBut.of_set (x := commitSlot x)
  have hidle : ∀ t', ¬Holds ((s.after p c { s.queue with slots := pruneAnchors x (s.queue.slots.set
      (s.sessions p).loc.reservation.slot (commitSlot x)) } ⟨.none, .none⟩ []).sessions p) t' := by
    intro t' ht'
    rw [after_session] at ht'
    cases ht'.1
  refine h.step p x.ticket (hm.catalogs h) (fun p' hp => hm.writer hp) (fun p' hp => Function.update_of_ne hp _ _)
    (fun _ hc => hc) (fun c' hc' => hm.mem_history (h.published c' hc')) h.once (Nat.le_refl _)
    (hset.trans (.of_shrinks (shrinks_pruneAnchors _ _))) (h.ownTicket p hhold) (fun _ _ _ _ _ => (h.holders p _ hhold).1) (fun t' ht' => absurd ht' (hidle t'))
    (fun _ _ _ _ _ _ hh => absurd hh (hidle _)) ?_ ?_
  · rw [after_session]
    exact nofun
  · intro j y hy hl hyt _
    have hy' := mem_pruneAnchors hy hl
    by_cases hij : (s.sessions p).loc.reservation.slot = j
    · subst hij
      rw [List.getElem?_set_self hlen] at hy'
      cases hy'
      obtain ⟨c', hc', hcat, hx, htab, hcand, hcount, hfin⟩ := htruth
      exact ⟨c', hc', hcat, hx, htab, ⟨hcand.assigned, hcand.snapshot, hcand.row⟩, ⟨hcount.known, hcount.count⟩,
        hfin.snapshot, hfin.row⟩
    · rw [List.getElem?_set_ne hij] at hy'
      have := (h.slot p b hw j y hy' hl (hyt ▸ hhold)).1
      omega

theorem inv_callback (h : Inv base s) (hn : next env s (.callback p) = some t) : Inv base t := by
  simp only [next] at hn
  split at hn
  · rename_i b committed hw
    obtain ⟨t₁, hact, rfl⟩ := Option.map_eq_some_iff.mp hn
    obtain ⟨c, hc, rfl⟩ := act_some hact
    have hm := Moved.act h hc rfl
    have hrest : ∀ {q' : QueueShmem}, q'.nextTicket = s.queue.nextTicket → Shrinks s.queue.slots q'.slots →
        Inv base (s.after p c q' ⟨.none, .none⟩ []) := fun hnext hs =>
      h.shrink _ [] hm hnext hs nofun (fun _ _ _ _ _ _ _ _ hh => absurd hh.1 (by simp [LocalReservation.none]))
        nofun (by simp) h.once
    show Inv base (s.after p c (removeLocalReservation s.queue (s.sessions p).loc committed) ⟨.none, .none⟩ [])
    unfold removeLocalReservation
    split
    · exact hrest rfl (.refl _)
    · rename_i i x hf
      split
      · rename_i hcom
        simp only [Bool.and_eq_true] at hcom
        obtain ⟨⟨rfl, hpub⟩, hv⟩ := hcom
        exact inv_commitSlot h hw rfl hm hpub hf hv
      · exact hrest rfl (shrinks_removeSlot (findSlot_some hf).1)
  · cases hn

theorem inv_backendExit (h : Inv base s) (hn : next env s (.backendExit p) = some t) : Inv base t := by
  have hstep : Inv base (s.after p (s.catalogs p.1) (removeLocalReservation s.queue (s.sessions p).loc false)
      ⟨.none, .exiting⟩ []) := by
    refine h.shrink _ [] (Moved.refl h p) ?_ ?_ nofun
      (fun _ _ _ _ _ _ _ _ hh => absurd hh.1 (by simp [LocalReservation.none])) nofun (by simp) h.once
    · unfold removeLocalReservation
      split
      · rfl
      · split <;> rfl
    · unfold removeLocalReservation
      split
      · exact .refl _
      · rename_i i x hf
        rw [if_neg (by simp)]
        exact shrinks_removeSlot (findSlot_some hf).1
  simp only [next] at hn
  split at hn
  · cases hn
  · cases hn
  · cases hn
    simpa [State.after, State.setSession] using hstep

/-! ## Steps and runs -/

/-- **Every action keeps the invariant.** -/
theorem inv_next (h : Inv base s) {a : Action} (hn : next env s a = some t) : Inv base t := by
  cases a with
  | prepare p tableId schemaVersion isTransactionBlock usesXactSnapshot nestLevel => exact inv_prepare h hn
  | external k e => exact inv_external h hn
  | command p a =>
    simp only [next] at hn
    split at hn
    · rename_i b hw
      split at hn
      · rename_i hgo
        simp only [Bool.and_eq_true, Bool.or_eq_true, beq_iff_eq] at hgo
        exact inv_command h hw hgo.1 hgo.2 hn
      · cases hn
    · cases hn
  | noReserve p commandId =>
    simp only [next] at hn
    split at hn
    · rename_i b st hw hcall
      refine inv_finishReserve h rfl (.refl _) hn fun x hx => ?_
      obtain ⟨c, hc | ⟨hc, _⟩⟩ := (h.owns hw hx).phase <;> rw [hcall] at hc <;> cases hc
    · cases hn
  | reserve p commandId owner rowCount =>
    simp only [next] at hn
    split at hn
    · rename_i b st hw
      split at hn
      · cases hn
      · split at hn
        · rename_i hgo
          simp only [Bool.and_eq_true, Bool.not_eq_true'] at hgo
          exact inv_reserve h hw hgo.1 hn
        · cases hn
    · cases hn
  | waitRows p now budgetMs =>
    simp only [next] at hn
    split at hn
    · exact inv_waitRows h ‹_› ‹_› hn
    · cases hn
  | readRows p =>
    simp only [next] at hn
    split at hn
    · exact inv_readRows h ‹_› ‹_› hn
    · cases hn
  | complete p =>
    simp only [next] at hn
    split at hn
    · exact inv_complete h ‹_› hn
    · cases hn
  | waitPublication p now budgetMs =>
    simp only [next] at hn
    split at hn
    · exact inv_waitPublication h ‹_› hn
    · cases hn
  | abandon p => exact inv_abandon h hn
  | check p =>
    simp only [next] at hn
    split at hn
    · exact inv_check h ‹_› ‹_› hn
    · cases hn
  | invalidate p => exact inv_invalidate h hn
  | markPublished p => exact inv_markPublished h hn
  | callback p => exact inv_callback h hn
  | reclaim candidate =>
    simp only [next] at hn
    split at hn
    · cases hn
    · cases hn
      exact h.shrinkQueue (reclaim_nextTicket _ _) (shrinks_reclaimInactiveOwner _ _)
  | backendExit p => exact inv_backendExit h hn

/-- Catalogs in which nobody writes, an empty queue and idle backends. -/
structure Start (base : CatalogKey → Base) (s : State) : Prop where
  catalogs : ∀ k, Writer.Start (base k) (s.catalogs k)
  queue : ∃ capacity, s.queue = .startup capacity
  sessions : ∀ p, s.sessions p = ⟨.none, .none⟩
  published : s.published = []

theorem Start.inv (h : Start base s) : Inv base s := by
  obtain ⟨capacity, hq⟩ := h.queue
  have hdead : ∀ {i : Nat} {x}, s.queue.slots[i]? = some x → ¬Live x := by
    intro i x hx hl
    rw [hq] at hx
    have hz : x = .zero := List.eq_of_mem_replicate (List.mem_of_getElem? hx)
    exact zero_not_live (hz ▸ hl)
  have hidle : ∀ p t', ¬Holds (s.sessions p) t' := by
    intro p t' hh
    rw [h.sessions p] at hh
    cases hh.1
  exact
    { catalogs := fun k => (h.catalogs k).inv
      below := fun _ _ hx hl => absurd hl (hdead hx)
      holders := fun p t' hh => absurd hh (hidle p t')
      distinct := fun p _ t' hh => absurd hh (hidle p t')
      slot := fun _ _ _ _ _ hx hl => absurd hl (hdead hx)
      marked := fun p hp => by rw [h.sessions p] at hp; cases hp
      anchors := fun _ _ hx hl => absurd hl (hdead hx)
      published := by simp [h.published]
      once := by simp [h.published] }

/-- What committed slots say. `slots`: a valid committed slot has the snapshot id, first row id and row count of a batch of
its owner that was published and committed with them. `retagged`: a batch that was retagged has left none. -/
structure AnchorsTrue (s : State) : Prop where
  slots : ∀ x ∈ s.queue.slots, Live x → x.committed = true → ∃ c ∈ s.published,
    c.catalog = x.catalog ∧ c.batch.ownerXid = x.owner.xid ∧
      (x.candidateSnapshotId, x.candidateRowId, x.rowCount) = (finalSnapshotId c.st, finalRowId c.st, c.batch.rowsInserted) ∧
      publicationOf c.batch c.st ∈ (s.catalogs x.catalog).history ∧
      NativeInv (s.catalogs x.catalog).toStore (publicationOf c.batch c.st)
  retagged : ∀ c ∈ s.published,
    (c.batch.candidateSnapshotId, c.batch.candidateRowId) ≠ (finalSnapshotId c.st, finalRowId c.st) →
      ∀ x ∈ s.queue.slots, Live x → x.committed = true → x.catalog = c.catalog → x.owner.xid ≠ c.batch.ownerXid

theorem Inv.anchorsTrue (h : Inv base s) : AnchorsTrue s where
  slots := by
    intro x hx hl hcom
    obtain ⟨i, hi⟩ := List.getElem?_of_mem hx
    obtain ⟨c, hc, hcat, hxid, _, hcand, hcount, hfin⟩ := h.anchors i x hi hl hcom
    have hcat' : c.catalog = x.catalog := hcat
    have hmem := h.published c hc
    rw [hcat'] at hmem
    refine ⟨c, hc, hcat', hxid, ?_, hmem, (h.catalogs x.catalog).natives _ hmem rfl⟩
    rw [← hfin.snapshot, ← hfin.row, ← hcount.count]
    rfl
  retagged := by
    intro c hc hne x hx hl hcom hcat hxid
    obtain ⟨i, hi⟩ := List.getElem?_of_mem hx
    obtain ⟨c', hc', hcat', hxid', _, hcand, _, hfin⟩ := h.anchors i x hi hl hcom
    -- there is one published batch of this transaction
    have heq : c' = c := by
      by_contra hcc
      have : Std.Symm fun c c' : PublishedBatch => c.catalog = c'.catalog → c.batch.ownerXid ≠ c'.batch.ownerXid :=
        ⟨fun _ _ hR hk => (hR hk.symm).symm⟩
      exact h.once.forall hc' hc hcc (hcat'.trans hcat) (hxid'.trans hxid)
    subst heq
    exact hne (by rw [← hcand.snapshot, ← hcand.row, ← hfin.snapshot, ← hfin.row])

theorem inv_step (h : Inv base s) (hs : Step env s t) : Inv base t := by
  obtain ⟨a, ha⟩ := hs
  exact inv_next h ha

/-- **Committed anchors tell the truth** in every run of the backends. -/
theorem anchors_true {s₀ : State} (hstart : Start base s₀) (hrun : ReflTransGen (Step env) s₀ s) : AnchorsTrue s :=
  Inv.anchorsTrue (run_invariant (fun _ _ => inv_step) hrun hstart.inv)

/-- Every catalog has one snapshot and two rows of table 7; the queue has room for two reservations. -/
def idleBackends : State := ⟨fun _ => twoRows, .startup 2, fun _ => ⟨.none, .none⟩, []⟩

theorem idleBackends_start : Start (fun _ => twoRowsBase) idleBackends :=
  ⟨fun _ => twoRows_start, ⟨2, rfl⟩, fun _ => rfl, rfl⟩

/-- The first backend commits two rows with its reservation, the second publishes without one and is retagged. -/
theorem anchors_true_retagged : ∃ s, ReflTransGen (Step ⟨fun _ _ => .ok, 3⟩) idleBackends s ∧
    s.queue.slots.map (fun x => (x.committed, x.candidateSnapshotId, x.candidateRowId, x.rowCount)) =
      [(true, 1, 2, 2), (false, 0, 0, 0)] ∧
    s.published.map (fun c => (c.batch.candidateRowId, finalRowId c.st)) = [(2, 4), (2, 2)] ∧ AnchorsTrue s := by
  obtain ⟨s, hrun, hs⟩ := trace_reaches
    (fun s a t (h : next ⟨fun _ _ => .ok, 3⟩ s a = some t) => (⟨a, h⟩ : Step ⟨fun _ _ => .ok, 3⟩ s t)) idleBackends
    [.prepare (⟨1, 1⟩, 0) 7 1 false false 1, .prepare (⟨1, 1⟩, 1) 7 1 false false 1, .command (⟨1, 1⟩, 0) (.read 0),
      .command (⟨1, 1⟩, 1) (.read 1), .reserve (⟨1, 1⟩, 0) 0 ⟨0, 0, 0, 0, 0⟩ (some 2), .noReserve (⟨1, 1⟩, 1) 0,
      .command (⟨1, 1⟩, 0) (.bind 0 true), .command (⟨1, 1⟩, 0) (.prewrite 0 2), .command (⟨1, 1⟩, 1) (.bind 1 true),
      .command (⟨1, 1⟩, 1) (.prewrite 1 1), .complete (⟨1, 1⟩, 0), .waitPublication (⟨1, 1⟩, 0) 0 10,
      .command (⟨1, 1⟩, 0) (.read 0), .check (⟨1, 1⟩, 0), .command (⟨1, 1⟩, 0) (.claim 0 1),
      .command (⟨1, 1⟩, 0) (.tableStats 0 2), .command (⟨1, 1⟩, 0) (.changeRecord 0 3), .markPublished (⟨1, 1⟩, 0),
      .command (⟨1, 1⟩, 0) (.commit 0), .callback (⟨1, 1⟩, 0), .complete (⟨1, 1⟩, 1), .command (⟨1, 1⟩, 1) (.read 1),
      .check (⟨1, 1⟩, 1), .command (⟨1, 1⟩, 1) (.claim 1 1), .command (⟨1, 1⟩, 1) (.retag 1 2 true),
      .command (⟨1, 1⟩, 1) (.tableStats 1 3), .command (⟨1, 1⟩, 1) (.changeRecord 1 4), .markPublished (⟨1, 1⟩, 1),
      .command (⟨1, 1⟩, 1) (.commit 1), .callback (⟨1, 1⟩, 1)]
    (fun s => s.queue.slots.map (fun x => (x.committed, x.candidateSnapshotId, x.candidateRowId, x.rowCount)) ==
        [(true, 1, 2, 2), (false, 0, 0, 0)] &&
      s.published.map (fun c => (c.batch.candidateRowId, finalRowId c.st)) == [(2, 4), (2, 2)]) (by decide +kernel)
  simp only [Bool.and_eq_true, beq_iff_eq] at hs
  exact ⟨s, hrun, hs.1, hs.2, anchors_true idleBackends_start hrun⟩

end PgDucklake.Backends
