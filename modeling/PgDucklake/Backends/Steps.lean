import PgDucklake.Backends.Invariant

/-!
# Steps that add no slot

Most steps of a backend move its writer and only take slots away: `Inv.shrink`. What is left to show of them is what the
new phase says of the backend's own slot.
-/

namespace PgDucklake.Backends

open Lib Queue Writer Relation

variable {base : CatalogKey → Base} {env : Env} {s t : State} {p : BackendId}

/-! ## The catalog of a step -/

/-- The catalog of backend `p` after a step of its writer. -/
structure Moved (base : CatalogKey → Base) (s : State) (p : BackendId) (c : Writer.State) : Prop where
  inv : Writer.Inv (base p.1) c
  others : ∀ v, v ≠ p.2 → c.writers v = (s.catalogs p.1).writers v
  history : ∀ e ∈ (s.catalogs p.1).history, e ∈ c.history

theorem Moved.refl (h : Inv base s) (p : BackendId) : Moved base s p (s.catalogs p.1) :=
  ⟨h.catalogs p.1, fun _ _ => rfl, fun _ he => he⟩

theorem Moved.act (h : Inv base s) {c : Writer.State} {a : Writer.Action}
    (hn : Writer.next env (s.catalogs p.1) a = some c) (ha : a.writer = some p.2) : Moved base s p c := by
  refine ⟨inv_next (h.catalogs p.1) hn, fun v hv => next_others hn ?_, fun e he => ?_⟩
  · rw [ha]
    exact fun hc => hv (Option.some.inj hc).symm
  · obtain ⟨new, hnew⟩ := next_history hn
    rw [hnew]
    exact List.mem_append_right _ he

section Moved

variable {c : Writer.State} (hm : Moved base s p c)
include hm

theorem Moved.catalogs (h : Inv base s) (k : CatalogKey) : Writer.Inv (base k) (Function.update s.catalogs p.1 c k) := by
  by_cases hk : k = p.1
  · subst hk
    rw [Function.update_self]
    exact hm.inv
  · rw [Function.update_of_ne hk]
    exact h.catalogs k

theorem Moved.writer {p' : BackendId} (hp : p' ≠ p) :
    (Function.update s.catalogs p.1 c p'.1).writers p'.2 = s.writer p' := by
  by_cases hk : p'.1 = p.1
  · have hv : p'.2 ≠ p.2 := fun hv => hp (Prod.ext hk hv)
    rw [hk, Function.update_self, hm.others _ hv, State.writer, hk]
  · rw [Function.update_of_ne hk]
    rfl

theorem Moved.mem_history {k : CatalogKey} {e : Publication} (he : e ∈ (s.catalogs k).history) :
    e ∈ (Function.update s.catalogs p.1 c k).history := by
  by_cases hk : k = p.1
  · subst hk
    rw [Function.update_self]
    exact hm.history e he
  · rwa [Function.update_of_ne hk]

end Moved

/-- The state after a step of backend `p`. -/
def State.after (s : State) (p : BackendId) (c : Writer.State) (queue : QueueShmem) (session : Session)
    (new : List PublishedBatch) : State :=
  ⟨Function.update s.catalogs p.1 c, queue, Function.update s.sessions p session, new ++ s.published⟩

section After

variable {c : Writer.State} {queue : QueueShmem} {session : Session} {new : List PublishedBatch}

@[simp] theorem after_writer : (s.after p c queue session new).writer p = c.writers p.2 := by
  simp [State.after, State.writer]

@[simp] theorem after_session : (s.after p c queue session new).sessions p = session := Function.update_self _ _ _

end After

/-! ## Shrinking steps -/

/-- A ticket nobody but `p` holds. -/
theorem Inv.ownTicket (h : Inv base s) (p : BackendId) {t' : Nat} (ht : Holds (s.sessions p) t') :
    ∀ p', p' ≠ p → ¬Holds (s.sessions p') t' :=
  fun p' hp hh => hp (h.distinct p' p t' hh ht)

theorem Inv.freshTicket (h : Inv base s) : ∀ p, ¬Holds (s.sessions p) s.queue.nextTicket :=
  fun p hh => Nat.lt_irrefl _ (h.holders p _ hh).1

/-- **A step that only takes slots away** keeps the invariant if the backend's slot fits its new phase. -/
theorem Inv.shrink (h : Inv base s) {c : Writer.State} {q' : QueueShmem} (session : Session) (new : List PublishedBatch)
    (hm : Moved base s p c) (hnext : q'.nextTicket = s.queue.nextTicket) (hs : Shrinks s.queue.slots q'.slots)
    (hres : session.loc.reservation.active = true →
      session.loc.reservation = (s.sessions p).loc.reservation ∧ ∃ b, c.writers p.2 = some b)
    (hslot : ∀ b b', s.writer p = some b → c.writers p.2 = some b' → ∀ (i : Nat) x, q'.slots[i]? = some x → Live x →
      Holds session x.ticket → i = session.loc.reservation.slot → SlotOf s.published p.1 (s.sessions p) b x.core →
        SlotOf (new ++ s.published) p.1 session b' x.core)
    (hmarked : session.loc.published = true → ∃ b, c.writers p.2 = some b ∧ marksPublished b.phase = true)
    (hlog : ∀ c' ∈ new, publicationOf c'.batch c'.st ∈ (Function.update s.catalogs p.1 c c'.catalog).history)
    (honce : (new ++ s.published).Pairwise fun c c' => c.catalog = c'.catalog → c.batch.ownerXid ≠ c'.batch.ownerXid) :
    Inv base (s.after p c q' session new) := by
  have hold : ∀ {i : Nat} {x : ReservationSlot}, q'.slots[i]? = some x → Live x →
      ∃ y, s.queue.slots[i]? = some y ∧ Live y ∧ x.core = y.core := by
    intro i x hx hl
    obtain ⟨y, hy, hk⟩ := hs.keeps i x hx
    rcases hk with hc | ⟨hd, _⟩
    · exact ⟨y, hy, (core_live hc).mp hl, hc⟩
    · exact absurd hl hd
  have hholds : ∀ t', Holds session t' → Holds (s.sessions p) t' := by
    rintro t' ⟨hact, ht'⟩
    have hsame := (hres hact).1
    exact ⟨hsame ▸ hact, hsame ▸ ht'⟩
  -- the backend's ticket, or one that nobody has when it holds none
  obtain ⟨ticket, hother, hticket⟩ : ∃ ticket, (∀ p', p' ≠ p → ¬Holds (s.sessions p') ticket) ∧
      ∀ t', Holds session t' → t' = ticket := by
    by_cases hact : session.loc.reservation.active = true
    · exact ⟨session.loc.reservation.ticket, h.ownTicket p (hholds _ ⟨hact, rfl⟩), fun t' ht' => ht'.2.symm⟩
    · exact ⟨s.queue.nextTicket, fun p' _ => h.freshTicket p', fun t' ht' => absurd ht'.1 hact⟩
  refine h.step p ticket (hm.catalogs h) (fun p' hp => hm.writer hp)
    (fun p' hp => Function.update_of_ne hp _ _) (fun c' hc' => List.mem_append_right _ hc') ?_ honce
    (Nat.le_of_eq hnext.symm) (.of_shrinks hs) hother ?_ ?_ ?_ ?_ ?_
  · intro c' hc'
    rcases List.mem_append.mp hc' with hc' | hc'
    · exact hlog c' hc'
    · exact hm.mem_history (h.published c' hc')
  · intro i x hx hl ht
    obtain ⟨y, hy, hly, hc⟩ := hold hx hl
    have := h.below i y hy hly
    rw [← core_ticket hc, ht] at this
    exact hnext ▸ this
  · intro t' ht'
    rw [after_session] at ht'
    rw [after_writer]
    have hlt := (h.holders p t' (hholds t' ht')).1
    exact ⟨hticket t' ht', hticket t' ht' ▸ hnext ▸ hlt, (hres ht'.1).2⟩
  · intro b' hb' i x hx hl hh
    rw [after_session] at hh ⊢
    rw [after_writer] at hb'
    obtain ⟨y, hy, hly, hc⟩ := hold hx hl
    have hh' := hholds _ hh
    rw [core_ticket hc] at hh'
    obtain ⟨_, b, hb⟩ := h.holders p _ hh'
    obtain ⟨hi, hso⟩ := h.slot p b hb i y hy hly hh'
    have hi' : i = session.loc.reservation.slot := by rw [(hres hh.1).1]; exact hi
    exact ⟨hi', hslot b b' hb hb' i x hx hl hh hi' (hc ▸ hso)⟩
  · rw [after_session, after_writer]
    exact hmarked
  · intro i x hx hl _ hcom
    obtain ⟨y, hy, hly, hc⟩ := hold hx hl
    rw [hc]
    exact (h.anchors i y hy hly ((core_committed hc).symm.trans hcom)).mono fun c' hc' => List.mem_append_right _ hc'

end PgDucklake.Backends
