import PgDucklake.Backends.Commands

/-!
# Calls of the queue

The critical sections of Reserve, the waits, Complete, Validate, Invalidate and the transaction callback, with what the
backend does next. When a call tells the backend that its reservation is not valid, its slot is dead; when it returns
candidates or ready, they are those of its slot.
-/

namespace PgDucklake.Backends

open Lib Queue Writer Relation

variable {base : CatalogKey → Base} {env : Env} {s t : State} {p : BackendId} {q' : QueueShmem}

/-- The backend holds this live slot of a queue. -/
def Owns (q : QueueShmem) (session : Session) (x : ReservationSlot) : Prop :=
  q.slots[session.loc.reservation.slot]? = some x ∧ Live x ∧ Holds session x.ticket

theorem Owns.of_dead {session : Session} {x : ReservationSlot} (hd : Dead q'.slots session.loc.reservation)
    (h : Owns q' session x) : False := hd x h.1 h.2.1 h.2.2.2.symm

theorem Inv.owns (h : Inv base s) {b : Backend} {x : ReservationSlot} (hw : s.writer p = some b)
    (ho : Owns s.queue (s.sessions p) x) : SlotOf s.published p.1 (s.sessions p) b x.core :=
  (h.slot p b hw _ x ho.1 ho.2.1 ho.2.2).2

/-! ## The ends of Reserve and of the publication wait -/

theorem Inv.unmarked (h : Inv base s) {b : Backend} (hw : s.writer p = some b) (hb : marksPublished b.phase = false) :
    (s.sessions p).loc.published ≠ true := by
  intro hp
  obtain ⟨b₀, hb₀, hm⟩ := h.marked p hp
  rw [Option.some.inj (hb₀.symm.trans hw), hb] at hm
  cases hm

/-- **Reserve returns** the candidates of the backend's slot, if it still has one. -/
theorem inv_finishReserve (h : Inv base s) (hnext : q'.nextTicket = s.queue.nextTicket)
    (hs : Shrinks s.queue.slots q'.slots) {commandId : Nat} {answer : Option (Nat × Nat)}
    (hn : finishReserve env { s with queue := q' } p commandId answer = some t)
    (hslot : ∀ x, Owns q' (s.sessions p) x →
      x.rowAssigned = true ∧ answer = some (x.candidateSnapshotId, x.candidateRowId)) : Inv base t := by
  obtain ⟨t₁, hact, rfl⟩ := Option.map_eq_some_iff.mp hn
  obtain ⟨c, hc, rfl⟩ := act_some hact
  obtain ⟨b, hw, _⟩ := next_writerStep hc rfl nofun
  obtain ⟨b', new, hw', _, hmove⟩ := act_moves (s := s) hw hc rfl nofun nofun
  refine h.shrink _ [] (Moved.act h hc rfl) hnext hs (fun _ => ⟨rfl, b', hw'⟩)
    (fun b₀ b₁ hb₀ hb₁ i x hx hl hh hi hso => ?_) (fun hp => ?_) (by simp) h.once
  · obtain rfl : b₀ = b := Option.some.inj (hb₀.symm.trans hw)
    obtain rfl : b₁ = b' := Option.some.inj (hb₁.symm.trans hw')
    obtain ⟨hassigned, rfl⟩ := hslot x ⟨hi ▸ hx, hl, hh⟩
    cases hmove with
    | reserve hb =>
      refine ⟨hso.pending, hso.catalog, hso.owner, hso.table, ?_⟩
      dsimp only
      cases checkPreparedState b₀.batch _ with
      | error e => exact trivial
      | ok u => exact ⟨⟨hassigned, rfl, rfl⟩, Or.inl rfl⟩
  · cases hmove with
    | reserve hb => exact absurd hp (h.unmarked hw (by rw [hb]; rfl))

theorem publishPhase_read {b : Batch} {answer : Bool} : publishPhase b answer = .publishRead 0 answer ∨
    publishPhase b answer = .returned ∨ ∃ e, publishPhase b answer = .failed e := by
  unfold publishPhase
  split
  · exact Or.inr (Or.inl rfl)
  · split
    · exact Or.inr (Or.inr ⟨_, rfl⟩)
    · exact Or.inl rfl

/-- **The publication loop starts** with a valid reservation only if the backend has reported its rows. -/
theorem inv_finishWait (h : Inv base s) (hnext : q'.nextTicket = s.queue.nextTicket)
    (hs : Shrinks s.queue.slots q'.slots) {answer : Bool} (hn : finishWait env { s with queue := q' } p answer = some t)
    (hslot : ∀ b, s.writer p = some b → publishPhase b.batch answer = .publishRead 0 answer →
      ∀ x, Owns q' (s.sessions p) x → answer = true ∧ (s.sessions p).call = .waitPublication) : Inv base t := by
  obtain ⟨t₁, hact, rfl⟩ := Option.map_eq_some_iff.mp hn
  obtain ⟨c, hc, rfl⟩ := act_some hact
  obtain ⟨b, hw, _⟩ := next_writerStep hc rfl nofun
  obtain ⟨b', new, hw', _, hmove⟩ := act_moves (s := s) hw hc rfl nofun nofun
  refine h.shrink _ [] (Moved.act h hc rfl) hnext hs (fun _ => ⟨rfl, b', hw'⟩)
    (fun b₀ b₁ hb₀ hb₁ i x hx hl hh hi hso => ?_) (fun hp => ?_) (by simp) h.once
  · obtain rfl : b₀ = b := Option.some.inj (hb₀.symm.trans hw)
    obtain rfl : b₁ = b' := Option.some.inj (hb₁.symm.trans hw')
    cases hmove with
    | publish hb =>
      refine ⟨hso.pending, hso.catalog, hso.owner, hso.table, ?_⟩
      dsimp only
      rcases @publishPhase_read b₀.batch answer with hp | hp | ⟨e, hp⟩
      · obtain ⟨rfl, hcall⟩ := hslot b₀ hb₀ hp x ⟨hi ▸ hx, hl, hh⟩
        have hphase := hso.phase
        rw [hb] at hphase
        rw [hp]
        rcases hphase.2 with hnone | ⟨_, hcount⟩
        · rw [hnone] at hcall
          cases hcall
        · exact ⟨hphase.1, hcount, Or.inl rfl⟩
      · rw [hp]
        exact trivial
      · rw [hp]
        exact trivial
  · cases hmove with
    | publish hb => exact absurd hp (h.unmarked hw (by rw [hb]; rfl))

/-! ## Steps without the writer -/

theorem Inv.setCall (h : Inv base s) (hnext : q'.nextTicket = s.queue.nextTicket) (hs : Shrinks s.queue.slots q'.slots)
    (call : QueueCall)
    (hslot : ∀ b x, s.writer p = some b → Owns q' (s.sessions p) x → SlotOf s.published p.1 (s.sessions p) b x.core →
      PhaseSlot s.published { s.sessions p with call := call } b.batch x.core b.phase) :
    Inv base (State.setCall { s with queue := q' } p call) := by
  have hshrink := h.shrink (p := p) { s.sessions p with call := call } [] (Moved.refl h p) hnext hs
    (fun hact => ⟨rfl, (h.holders p _ ⟨hact, rfl⟩).2⟩)
    (fun b₀ b₁ hb₀ hb₁ i x hx hl hh hi hso => by
      obtain rfl : b₀ = b₁ := Option.some.inj (hb₀.symm.trans hb₁)
      exact ⟨hso.pending, hso.catalog, hso.owner, hso.table, hslot b₀ x hb₀ ⟨hi ▸ hx, hl, hh⟩ hso⟩)
    (h.marked p) (by simp) h.once
  simpa [State.after, State.setCall, State.setSession] using hshrink

/-- **A backend changes its own slot.** -/
theorem Inv.setSlot (h : Inv base s) {i : Nat} {x x' : ReservationSlot} {call : QueueCall}
    (hf : findSlot s.queue.slots (s.sessions p).loc.reservation = some (i, x)) (ht : x'.ticket = x.ticket)
    (hpend : x'.committed = false)
    (hslot : ∀ b, s.writer p = some b → SlotOf s.published p.1 { s.sessions p with call := call } b x'.core) :
    Inv base (State.setCall { s with queue := { s.queue with slots := s.queue.slots.set i x' } } p call) := by
  obtain ⟨hi, _, hislot, htick, hact⟩ := findSlot_some hf
  have hlen := (List.getElem?_eq_some_iff.mp hi).1
  have hhold : Holds (s.sessions p) x'.ticket := ⟨hact, (ht.trans htick).symm⟩
  have hset : ∀ {j : Nat} {y : ReservationSlot}, (s.queue.slots.set i x')[j]? = some y → Live y →
      y.ticket = x'.ticket → j = i ∧ y = x' := by
    intro j y hy hl hyt
    by_cases hij : i = j
    · subst hij
      rw [List.getElem?_set_self hlen] at hy
      exact ⟨rfl, (Option.some.inj hy).symm⟩
    · rw [List.getElem?_set_ne hij] at hy
      obtain ⟨_, b, hb⟩ := h.holders p _ hhold
      have := (h.slot p b hb j y hy hl (hyt ▸ hhold)).1
      omega
  refine h.step p x'.ticket h.catalogs (fun _ _ => rfl) (fun p' hp => Function.update_of_ne hp _ _) (fun _ hc => hc)
    h.published h.once (Nat.le_refl _) .of_set (h.ownTicket p hhold) (fun _ _ _ _ _ => (h.holders p _ hhold).1)
    ?_ ?_ ?_ ?_
  · intro t' ht'
    simp only [State.setCall, State.setSession, Function.update_self] at ht'
    exact ⟨ht'.2.symm.trans hhold.2, h.holders p _ hhold⟩
  · intro b hb j y hy hl hh
    simp only [State.setCall, State.setSession, Function.update_self] at hh ⊢
    obtain ⟨rfl, rfl⟩ := hset hy hl (hh.2.symm.trans hhold.2)
    exact ⟨hislot, hslot b hb⟩
  · simp only [State.setCall, State.setSession, Function.update_self]
    exact h.marked p
  · intro j y hy hl hyt hcom
    obtain ⟨_, rfl⟩ := hset hy hl hyt
    rw [hpend] at hcom
    cases hcom

/-- **Registering a slot** for a backend that holds none. -/
theorem Inv.register (h : Inv base s) {b : Backend} {l : List ReservationSlot} {i : Nat} {free x : ReservationSlot}
    (hw : s.writer p = some b) (hs : Shrinks s.queue.slots l) (hfree : l[i]? = some free)
    (hticket : x.ticket = s.queue.nextTicket) (hpend : x.committed = false) (call : QueueCall)
    (hslot : Live x → SlotOf s.published p.1 ⟨⟨⟨i, s.queue.nextTicket, true⟩, false⟩, call⟩ b x.core) :
    Inv base (State.setSession { s with queue := ⟨s.queue.nextTicket + 1, l.set i x⟩ } p
      ⟨⟨⟨i, s.queue.nextTicket, true⟩, false⟩, call⟩) := by
  have hlen := (List.getElem?_eq_some_iff.mp hfree).1
  have hset : ∀ {j : Nat} {y : ReservationSlot}, (l.set i x)[j]? = some y → Live y →
      y.ticket = s.queue.nextTicket → j = i ∧ y = x := by
    intro j y hy hl hyt
    by_cases hij : i = j
    · subst hij
      rw [List.getElem?_set_self hlen] at hy
      exact ⟨rfl, (Option.some.inj hy).symm⟩
    · -- a ticket that was handed out is smaller
      rw [List.getElem?_set_ne hij] at hy
      obtain ⟨z, hz, hk⟩ := hs.keeps j y hy
      rcases hk with hc | ⟨hd, _⟩
      · have := h.below j z hz ((core_live hc).mp hl)
        rw [← core_ticket hc, hyt] at this
        exact absurd this (Nat.lt_irrefl _)
      · exact absurd hl hd
  have hqueue : SameBut s.queue.nextTicket s.queue.slots (l.set i x) :=
    (SameBut.of_shrinks hs).trans (hticket ▸ .of_set)
  refine h.step p s.queue.nextTicket h.catalogs (fun _ _ => rfl) (fun p' hp => Function.update_of_ne hp _ _)
    (fun _ hc => hc) h.published h.once (Nat.le_succ _) hqueue (fun p' _ => h.freshTicket p')
    (fun _ _ _ _ _ => Nat.lt_succ_self _) ?_ ?_ ?_ ?_
  · intro t' ht'
    simp only [State.setSession, Function.update_self] at ht'
    exact ⟨ht'.2.symm, Nat.lt_succ_self _, b, hw⟩
  · intro b' hb' j y hy hl hh
    obtain rfl : b = b' := Option.some.inj (hw.symm.trans hb')
    simp only [State.setSession, Function.update_self] at hh ⊢
    obtain ⟨rfl, rfl⟩ := hset hy hl hh.2.symm
    exact ⟨rfl, hslot hl⟩
  · simp [State.setSession]
  · intro j y hy hl hyt hcom
    obtain ⟨_, rfl⟩ := hset hy hl hyt
    rw [hpend] at hcom
    cases hcom

end PgDucklake.Backends
