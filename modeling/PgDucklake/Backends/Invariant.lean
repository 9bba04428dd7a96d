import PgDucklake.Backends.Model

/-!
# What a backend knows of its slot

A valid slot whose ticket a backend holds is that backend's, and its contents are tied to the phase of the writer
(`SlotOf`): from the candidates it was reserved, through the row count it reported, to the ids it publishes. A valid
committed slot is that of a published batch (`Truth`). `Inv` says so of every slot; `Inv.step` is the invariant after a
step of one backend, in terms of what the step did to slots with its own ticket.
-/

namespace PgDucklake.Backends

open Lib Queue Writer Relation

/-! ## Slots and phases -/

/-- The batch has the candidates of the slot. -/
structure Candidates (b : Batch) (x : ReservationSlot) : Prop where
  assigned : x.rowAssigned = true
  snapshot : x.candidateSnapshotId = b.candidateSnapshotId
  row : x.candidateRowId = b.candidateRowId

/-- The batch has reported its row count. -/
structure Counted (b : Batch) (x : ReservationSlot) : Prop where
  known : x.rowCountKnown = true
  count : x.rowCount = b.rowsInserted

/-- The slot's candidates are the ids a publication from `st` uses. -/
structure AtFinal (st : PublicationState) (x : ReservationSlot) : Prop where
  snapshot : x.candidateSnapshotId = finalSnapshotId st
  row : x.candidateRowId = finalRowId st

/-- The slot is that of a published batch: its snapshot id, first row id and row count are the published ones, and the
batch was not retagged. -/
def Truth (published : List PublishedBatch) (x : ReservationSlot) : Prop :=
  ∃ c ∈ published, c.catalog = x.catalog ∧ c.batch.ownerXid = x.owner.xid ∧ c.batch.tableId = x.tableId ∧
    Candidates c.batch x ∧ Counted c.batch x ∧ AtFinal c.st x

/-- What the phase of a writer says of its valid slot. A retagged batch has none, nor has one whose reservation is not
valid any more. -/
def PhaseSlot (published : List PublishedBatch) (session : Session) (b : Batch) (x : ReservationSlot) : Phase → Prop
  | .prepareRead | .prepareDerive _ | .retag _ _ => False
  | .prepared _ =>
    ∃ c, session.call = .waitRows c x.candidateSnapshotId ∨
      session.call = .readRows c x.candidateSnapshotId ∧ x.rowAssigned = true
  | .prewriting => Candidates b x ∧ (session.call = .none ∨ session.call = .waitPublication ∧ Counted b x)
  | .publishRead _ valid | .publishDerive _ valid _ | .publishCheck _ valid _ =>
    Candidates b x ∧ Counted b x ∧ (valid = true ∨ session.call = .invalidate)
  | .claim _ valid st => Candidates b x ∧ Counted b x ∧ valid = true ∧ AtFinal st x
  | .tableStats _ st | .changeRecord _ st | .markPublished _ st | .published _ st =>
    Candidates b x ∧ Counted b x ∧ AtFinal st x
  | .returned | .failed _ | .ended false => True
  | .ended true => session.loc.published = true → Truth published x

/-- The valid slot of a backend. -/
structure SlotOf (published : List PublishedBatch) (k : CatalogKey) (session : Session) (b : Backend)
    (x : ReservationSlot) : Prop where
  pending : x.committed = false
  catalog : x.catalog = k
  owner : x.owner.xid = b.batch.ownerXid
  table : x.tableId = b.batch.tableId
  phase : PhaseSlot published session b.batch x b.phase

/-- The backend has a reservation with this ticket. -/
def Holds (session : Session) (ticket : Nat) : Prop :=
  session.loc.reservation.active = true ∧ session.loc.reservation.ticket = ticket

/-- A published batch that was not withdrawn is marked in the phases after its publication only. -/
def marksPublished : Phase → Bool
  | .published _ _ | .ended _ => true
  | _ => false

/-! ## The invariant -/

/-- The invariant of the backends and the queue. -/
structure Inv (base : CatalogKey → Base) (s : State) : Prop where
  catalogs : ∀ k, Writer.Inv (base k) (s.catalogs k)
  below : ∀ (i : Nat) x, s.queue.slots[i]? = some x → Live x → x.ticket < s.queue.nextTicket
  holders : ∀ p t, Holds (s.sessions p) t → t < s.queue.nextTicket ∧ ∃ b, s.writer p = some b
  distinct : ∀ p p' t, Holds (s.sessions p) t → Holds (s.sessions p') t → p = p'
  slot : ∀ p b, s.writer p = some b → ∀ (i : Nat) x, s.queue.slots[i]? = some x → Live x → Holds (s.sessions p) x.ticket →
    i = (s.sessions p).loc.reservation.slot ∧ SlotOf s.published p.1 (s.sessions p) b x.core
  marked : ∀ p, (s.sessions p).loc.published = true → ∃ b, s.writer p = some b ∧ marksPublished b.phase = true
  anchors : ∀ (i : Nat) x, s.queue.slots[i]? = some x → Live x → x.committed = true → Truth s.published x.core
  published : ∀ c ∈ s.published, publicationOf c.batch c.st ∈ (s.catalogs c.catalog).history
  once : s.published.Pairwise fun c c' => c.catalog = c'.catalog → c.batch.ownerXid ≠ c'.batch.ownerXid

/-! ## Frames -/

section Frames

variable {published published' : List PublishedBatch} {session : Session} {b : Batch} {x : ReservationSlot}

theorem Truth.mono (h : Truth published x) (hp : ∀ c ∈ published, c ∈ published') : Truth published' x := by
  obtain ⟨c, hc, h⟩ := h
  exact ⟨c, hp c hc, h⟩

theorem PhaseSlot.mono {ph : Phase} (h : PhaseSlot published session b x ph) (hp : ∀ c ∈ published, c ∈ published') :
    PhaseSlot published' session b x ph := by
  cases ph with
  | ended c =>
    cases c with
    | false => exact trivial
    | true => exact fun hm => (h hm).mono hp
  | _ => exact h

theorem SlotOf.mono {k : CatalogKey} {b : Backend} (h : SlotOf published k session b x)
    (hp : ∀ c ∈ published, c ∈ published') : SlotOf published' k session b x :=
  ⟨h.pending, h.catalog, h.owner, h.table, h.phase.mono hp⟩

end Frames

/-- Every live slot of `l'` is one of `l`, up to its waits, or has the ticket `t`. -/
def SameBut (t : Nat) (l l' : List ReservationSlot) : Prop :=
  ∀ (i : Nat) x, l'[i]? = some x → Live x → x.ticket = t ∨ ∃ y, l[i]? = some y ∧ Live y ∧ x.core = y.core

theorem SameBut.of_shrinks {t : Nat} {l l' : List ReservationSlot} (h : Shrinks l l') : SameBut t l l' := by
  intro i x hx hl
  obtain ⟨y, hy, hk⟩ := h.keeps i x hx
  rcases hk with hc | ⟨hd, _⟩
  · exact Or.inr ⟨y, hy, (core_live hc).mp hl, hc⟩
  · exact absurd hl hd

theorem SameBut.of_set {l : List ReservationSlot} {i : Nat} {x : ReservationSlot} :
    SameBut x.ticket l (l.set i x) := by
  intro j y hy hl
  by_cases hij : i = j
  · subst hij
    rw [List.getElem?_set_self (by
      have := (List.getElem?_eq_some_iff.mp hy).1
      simpa using this)] at hy
    cases hy
    exact Or.inl rfl
  · exact Or.inr ⟨y, (List.getElem?_set_ne hij).symm.trans hy, hl, rfl⟩

theorem SameBut.trans {t : Nat} {l₁ l₂ l₃ : List ReservationSlot} (h₁ : SameBut t l₁ l₂) (h₂ : SameBut t l₂ l₃) :
    SameBut t l₁ l₃ := by
  intro i x hx hl
  rcases h₂ i x hx hl with ht | ⟨y, hy, hly, hc⟩
  · exact Or.inl ht
  · rcases h₁ i y hy hly with ht | ⟨z, hz, hlz, hc'⟩
    · exact Or.inl ((core_ticket hc).trans ht)
    · exact Or.inr ⟨z, hz, hlz, hc.trans hc'⟩

section Step

variable {base : CatalogKey → Base} {s t : State}

/-- **A step of one backend keeps the invariant** if it does so for slots of the backend's own ticket. -/
theorem Inv.step (h : Inv base s) (p : BackendId) (ticket : Nat) (hcat : ∀ k, Writer.Inv (base k) (t.catalogs k))
    (hwriters : ∀ p', p' ≠ p → t.writer p' = s.writer p') (hsessions : ∀ p', p' ≠ p → t.sessions p' = s.sessions p')
    (hpub : ∀ c ∈ s.published, c ∈ t.published)
    (hlog : ∀ c ∈ t.published, publicationOf c.batch c.st ∈ (t.catalogs c.catalog).history)
    (honce : t.published.Pairwise fun c c' => c.catalog = c'.catalog → c.batch.ownerXid ≠ c'.batch.ownerXid)
    (hnext : s.queue.nextTicket ≤ t.queue.nextTicket) (hqueue : SameBut ticket s.queue.slots t.queue.slots)
    (hother : ∀ p', p' ≠ p → ¬Holds (s.sessions p') ticket)
    (hbelow : ∀ (i : Nat) x, t.queue.slots[i]? = some x → Live x → x.ticket = ticket → ticket < t.queue.nextTicket)
    (hholds : ∀ t', Holds (t.sessions p) t' → t' = ticket ∧ ticket < t.queue.nextTicket ∧ ∃ b, t.writer p = some b)
    (hslot : ∀ b, t.writer p = some b → ∀ (i : Nat) x, t.queue.slots[i]? = some x → Live x →
      Holds (t.sessions p) x.ticket →
        i = (t.sessions p).loc.reservation.slot ∧ SlotOf t.published p.1 (t.sessions p) b x.core)
    (hmarked : (t.sessions p).loc.published = true → ∃ b, t.writer p = some b ∧ marksPublished b.phase = true)
    (hanchor : ∀ (i : Nat) x, t.queue.slots[i]? = some x → Live x → x.ticket = ticket → x.committed = true →
      Truth t.published x.core) : Inv base t where
  catalogs := hcat
  below := by
    intro i x hx hl
    rcases hqueue i x hx hl with ht | ⟨y, hy, hly, hc⟩
    · rw [ht]
      exact hbelow i x hx hl ht
    · rw [core_ticket hc]
      exact Nat.lt_of_lt_of_le (h.below i y hy hly) hnext
  holders := by
    intro p' t' hh
    by_cases hp : p' = p
    · subst hp
      obtain ⟨rfl, hlt, hb⟩ := hholds t' hh
      exact ⟨hlt, hb⟩
    · rw [hsessions p' hp] at hh
      obtain ⟨hlt, hb⟩ := h.holders p' t' hh
      exact ⟨Nat.lt_of_lt_of_le hlt hnext, by rwa [hwriters p' hp]⟩
  distinct := by
    intro p₁ p₂ t' h₁ h₂
    by_cases hp₁ : p₁ = p <;> by_cases hp₂ : p₂ = p
    · rw [hp₁, hp₂]
    · subst hp₁
      obtain ⟨rfl, _⟩ := hholds t' h₁
      exact absurd (hsessions p₂ hp₂ ▸ h₂) (hother p₂ hp₂)
    · subst hp₂
      obtain ⟨rfl, _⟩ := hholds t' h₂
      exact absurd (hsessions p₁ hp₁ ▸ h₁) (hother p₁ hp₁)
    · rw [hsessions p₁ hp₁] at h₁
      rw [hsessions p₂ hp₂] at h₂
      exact h.distinct p₁ p₂ t' h₁ h₂
  slot := by
    intro p' b hw i x hx hl hh
    by_cases hp : p' = p
    · subst hp
      exact hslot b hw i x hx hl hh
    · rw [hsessions p' hp] at hh ⊢
      rw [hwriters p' hp] at hw
      rcases hqueue i x hx hl with ht | ⟨y, hy, hly, hc⟩
      · exact absurd (ht ▸ hh) (hother p' hp)
      · rw [core_ticket hc] at hh
        obtain ⟨hi, hs⟩ := h.slot p' b hw i y hy hly hh
        exact ⟨hi, hc ▸ hs.mono hpub⟩
  marked := by
    intro p' hm
    by_cases hp : p' = p
    · subst hp
      exact hmarked hm
    · rw [hsessions p' hp] at hm
      rw [hwriters p' hp]
      exact h.marked p' hm
  anchors := by
    intro i x hx hl hcom
    rcases hqueue i x hx hl with ht | ⟨y, hy, hly, hc⟩
    · exact hanchor i x hx hl ht hcom
    · rw [hc]
      exact (h.anchors i y hy hly ((core_committed hc).symm.trans hcom)).mono hpub
  published := hlog
  once := honce

end Step

end PgDucklake.Backends
