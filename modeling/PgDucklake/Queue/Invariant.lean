import PgDucklake.Queue.Ops

/-!
# The representation invariant of the reservation queue

`RepInv` is what every critical section keeps: tickets are distinct and below `next_ticket`; in each catalog the valid
slots in ticket order are committed anchors followed by pending slots, with increasing snapshot candidates that grow by
one between neighbouring pending slots; and a valid slot's row range starts at or after the end of every earlier valid
range of its table.

Most critical sections only take slots away (`Shrinks`): slots are invalidated from a ticket on, freed when they are
invalid, or freed when they are committed. `RepInv.shrink` covers all of these. The four that do more are registering a
slot (`RepInv.register`), assigning its rows (`RepInv.assign`), reporting its row count (`RepInv.count`) and turning the
first pending slot into an anchor (`RepInv.commit`).
-/

namespace PgDucklake.Queue

open Lib

/-- In use and not invalidated. -/
def Live (slot : ReservationSlot) : Prop := slot.inUse = true ∧ slot.valid = true

instance (slot : ReservationSlot) : Decidable (Live slot) := inferInstanceAs (Decidable (_ ∧ _))

/-- The invariant of the queue. -/
structure RepInv (q : QueueShmem) : Prop where
  distinct : ∀ (i j : Nat) (a b : ReservationSlot), q.slots[i]? = some a → q.slots[j]? = some b → a.inUse = true → b.inUse = true →
    a.ticket = b.ticket → i = j
  below : ∀ a ∈ q.slots, a.inUse = true → a.ticket < q.nextTicket
  anchors : ∀ a ∈ q.slots, ∀ b ∈ q.slots, Live a → Live b → a.catalog = b.catalog → a.ticket < b.ticket →
    b.committed = true → a.committed = true
  increasing : ∀ a ∈ q.slots, ∀ b ∈ q.slots, Live a → Live b → a.catalog = b.catalog → a.ticket < b.ticket →
    a.candidateSnapshotId < b.candidateSnapshotId
  adjacent : ∀ a ∈ q.slots, ∀ b ∈ q.slots, Live a → Live b → a.catalog = b.catalog → a.ticket < b.ticket →
    a.committed = false → b.committed = false →
    (∀ c ∈ q.slots, Live c → c.catalog = a.catalog → a.ticket < c.ticket → b.ticket ≤ c.ticket) →
    b.candidateSnapshotId = a.candidateSnapshotId + 1
  ranges : ∀ a ∈ q.slots, ∀ b ∈ q.slots, Live a → Live b → a.catalog = b.catalog → a.tableId = b.tableId →
    a.ticket < b.ticket → b.rowAssigned = true →
    a.rowAssigned = true ∧ a.rowCountKnown = true ∧ a.candidateRowId + a.rowCount ≤ b.candidateRowId

theorem repInv_startup (capacity : Nat) : RepInv (.startup capacity) := by
  have hz : ∀ a ∈ (QueueShmem.startup capacity).slots, a.inUse = false := by
    intro a ha
    rw [List.eq_of_mem_replicate ha]; rfl
  have hd : ∀ a ∈ (QueueShmem.startup capacity).slots, ¬Live a := fun a ha hl => by
    rw [Live, hz a ha] at hl; cases hl.1
  exact
    { distinct := fun i j a b ha _ hua => by rw [hz a (List.mem_of_getElem? ha)] at hua; cases hua
      below := fun a ha hua => by rw [hz a ha] at hua; cases hua
      anchors := fun a ha _ _ hl => absurd hl (hd a ha)
      increasing := fun a ha _ _ hl => absurd hl (hd a ha)
      adjacent := fun a ha _ _ hl => absurd hl (hd a ha)
      ranges := fun a ha _ _ hl => absurd hl (hd a ha) }

/-! ## Taking slots away -/

/-- The slot without the bookkeeping of its waits. -/
def ReservationSlot.core (slot : ReservationSlot) : ReservationSlot :=
  { slot with queueWaitBlockerTicket := 0, queueWaitDeadline := 0 }

/-- `s'` is `s` up to its waits, or is dead under the same ticket or none. -/
def Keeps (s s' : ReservationSlot) : Prop :=
  s'.core = s.core ∨ (¬Live s' ∧ (s'.inUse = true → s.inUse = true ∧ s'.ticket = s.ticket))

/-- `l'` is `l` with slots taken away; where a pending slot goes, every later slot of its catalog goes too. -/
structure Shrinks (l l' : List ReservationSlot) : Prop where
  len : l'.length = l.length
  keeps : ∀ (i : Nat) s', l'[i]? = some s' → ∃ s, l[i]? = some s ∧ Keeps s s'
  tail : ∀ a ∈ l', Live a → ∀ (i : Nat) c, l[i]? = some c → Live c → c.committed = false → c.catalog = a.catalog →
    (∀ c', l'[i]? = some c' → ¬Live c') → a.ticket < c.ticket

section Core

variable {s s' : ReservationSlot} (h : s'.core = s.core)
include h

theorem core_field {β : Type} (f : ReservationSlot → β) (hf : ∀ s, f s.core = f s) : f s' = f s := by
  rw [← hf s', ← hf s, h]

theorem core_live : Live s' ↔ Live s := by
  have h1 : s'.inUse = s.inUse := core_field h (·.inUse) fun _ => rfl
  have h2 : s'.valid = s.valid := core_field h (·.valid) fun _ => rfl
  rw [Live, Live, h1, h2]

theorem core_catalog : s'.catalog = s.catalog := core_field h (·.catalog) fun _ => rfl

theorem core_ticket : s'.ticket = s.ticket := core_field h (·.ticket) fun _ => rfl

theorem core_committed : s'.committed = s.committed := core_field h (·.committed) fun _ => rfl

theorem eq_of_core : ∃ blocker deadline,
    s' = { s with queueWaitBlockerTicket := blocker, queueWaitDeadline := deadline } := by
  refine ⟨s'.queueWaitBlockerTicket, s'.queueWaitDeadline, ?_⟩
  cases s
  cases s'
  simpa [ReservationSlot.core] using h

end Core

theorem Keeps.used {s s' : ReservationSlot} (h : Keeps s s') (hu : s'.inUse = true) :
    s.inUse = true ∧ s'.ticket = s.ticket := by
  rcases h with hc | ⟨_, ht⟩
  · obtain ⟨_, _, rfl⟩ := eq_of_core hc
    exact ⟨hu, rfl⟩
  · exact ht hu

theorem Shrinks.live {l l' : List ReservationSlot} (h : Shrinks l l') {a' : ReservationSlot} (ha : a' ∈ l')
    (hl : Live a') : ∃ a ∈ l, Live a ∧ a'.core = a.core := by
  obtain ⟨i, hi⟩ := List.getElem?_of_mem ha
  obtain ⟨a, hai, hk⟩ := h.keeps i a' hi
  rcases hk with hc | ⟨hd, _⟩
  · exact ⟨a, List.mem_of_getElem? hai, (core_live hc).mp hl, hc⟩
  · exact absurd hl hd

theorem Shrinks.refl (l : List ReservationSlot) : Shrinks l l where
  len := rfl
  keeps := fun _ s' hs => ⟨s', hs, Or.inl rfl⟩
  tail := fun _ _ _ _ c hc hl _ _ hdead => absurd hl (hdead c hc)

theorem Shrinks.live_or_dead {l l' : List ReservationSlot} (h : Shrinks l l') {i : Nat} {c : ReservationSlot}
    (hc : l[i]? = some c) :
    (∃ c', l'[i]? = some c' ∧ Live c' ∧ c'.core = c.core) ∨ ∀ c', l'[i]? = some c' → ¬Live c' := by
  by_cases hlive : ∃ c', l'[i]? = some c' ∧ Live c'
  · obtain ⟨c', hc', hl⟩ := hlive
    obtain ⟨s, hs, hk⟩ := h.keeps i c' hc'
    cases hc.symm.trans hs
    exact .inl ⟨c', hc', hl, hk.resolve_right fun hd => hd.1 hl⟩
  · exact .inr fun c' hc' hl => hlive ⟨c', hc', hl⟩

theorem Shrinks.trans {l₁ l₂ l₃ : List ReservationSlot} (h₁ : Shrinks l₁ l₂) (h₂ : Shrinks l₂ l₃) :
    Shrinks l₁ l₃ where
  len := h₂.len.trans h₁.len
  keeps := by
    intro i s'' hs''
    obtain ⟨s', hs', hk₂⟩ := h₂.keeps i s'' hs''
    obtain ⟨s, hs, hk₁⟩ := h₁.keeps i s' hs'
    have hused : s''.inUse = true → s.inUse = true ∧ s''.ticket = s.ticket := by
      intro hu
      have hused := hk₂.used hu
      exact ⟨(hk₁.used hused.1).1, hused.2.trans (hk₁.used hused.1).2⟩
    refine ⟨s, hs, ?_⟩
    rcases hk₂, hk₁ with ⟨hc₂ | ⟨hd₂, _⟩, hc₁ | ⟨hd₁, _⟩⟩
    · exact .inl (hc₂.trans hc₁)
    · exact .inr ⟨fun hl => hd₁ ((core_live hc₂).mp hl), hused⟩
    · exact .inr ⟨hd₂, hused⟩
    · exact .inr ⟨hd₂, hused⟩
  tail := by
    intro a ha hla i c hc hlc hpc hcat hdead
    -- the pending slot went in the first step or in the second
    rcases h₁.live_or_dead hc with ⟨c', hc', hl', hcore⟩ | hdead'
    · have hlt := h₂.tail a ha hla i c' hc' hl' ((core_committed hcore).trans hpc) ((core_catalog hcore).trans hcat) hdead
      rwa [core_ticket hcore] at hlt
    · obtain ⟨a', ha', hla', hcore⟩ := h₂.live ha hla
      have hlt := h₁.tail a' ha' hla' i c hc hlc hpc (hcat.trans (core_catalog hcore)) hdead'
      rwa [← core_ticket hcore] at hlt

/-- **Taking slots away keeps the invariant.** -/
theorem RepInv.shrink {q : QueueShmem} (h : RepInv q) {l' : List ReservationSlot} (hs : Shrinks q.slots l') :
    RepInv { q with slots := l' } where
  distinct := by
    intro i j a b ha hb hua hub ht
    obtain ⟨a₀, ha₀, hka⟩ := hs.keeps i a ha
    obtain ⟨b₀, hb₀, hkb⟩ := hs.keeps j b hb
    obtain ⟨hua₀, hta⟩ := hka.used hua
    obtain ⟨hub₀, htb⟩ := hkb.used hub
    exact h.distinct i j a₀ b₀ ha₀ hb₀ hua₀ hub₀ (by rw [← hta, ← htb, ht])
  below := by
    intro a ha hua
    obtain ⟨i, hi⟩ := List.getElem?_of_mem ha
    obtain ⟨s, hsi, hk⟩ := hs.keeps i a hi
    obtain ⟨hu, ht⟩ := hk.used hua
    exact ht ▸ h.below s (List.mem_of_getElem? hsi) hu
  anchors := by
    intro a ha b hb hla hlb
    obtain ⟨a₀, ha₀, hla₀, hca⟩ := hs.live ha hla
    obtain ⟨b₀, hb₀, hlb₀, hcb⟩ := hs.live hb hlb
    obtain ⟨_, _, rfl⟩ := eq_of_core hca
    obtain ⟨_, _, rfl⟩ := eq_of_core hcb
    exact h.anchors a₀ ha₀ b₀ hb₀ hla₀ hlb₀
  increasing := by
    intro a ha b hb hla hlb
    obtain ⟨a₀, ha₀, hla₀, hca⟩ := hs.live ha hla
    obtain ⟨b₀, hb₀, hlb₀, hcb⟩ := hs.live hb hlb
    obtain ⟨_, _, rfl⟩ := eq_of_core hca
    obtain ⟨_, _, rfl⟩ := eq_of_core hcb
    exact h.increasing a₀ ha₀ b₀ hb₀ hla₀ hlb₀
  adjacent := by
    intro a ha b hb hla hlb hcat ht hpa hpb hadj
    obtain ⟨a₀, ha₀, hla₀, hca⟩ := hs.live ha hla
    obtain ⟨b₀, hb₀, hlb₀, hcb⟩ := hs.live hb hlb
    obtain ⟨_, _, rfl⟩ := eq_of_core hca
    obtain ⟨_, _, rfl⟩ := eq_of_core hcb
    refine h.adjacent a₀ ha₀ b₀ hb₀ hla₀ hlb₀ hcat ht hpa hpb ?_
    intro c hc hlc hcc htc
    -- a slot between the two is pending, and cannot have gone without the later of the two
    have hpc : c.committed = false := by
      by_contra hcc'
      have hpa₀ := h.anchors a₀ ha₀ c hc hla₀ hlc hcc.symm htc (by simpa using hcc')
      exact absurd (hpa₀.symm.trans hpa) nofun
    obtain ⟨i, hi⟩ := List.getElem?_of_mem hc
    rcases hs.live_or_dead hi with ⟨c', hc', hl', hcore⟩ | hdead
    · have hmem := List.mem_of_getElem? hc'
      obtain ⟨_, _, rfl⟩ := eq_of_core hcore
      have hle := hadj _ hmem hl' hcc htc
      exact hle
    · exact (hs.tail _ hb hlb i c hi hlc hpc (hcc.trans hcat) hdead).le
  ranges := by
    intro a ha b hb hla hlb
    obtain ⟨a₀, ha₀, hla₀, hca⟩ := hs.live ha hla
    obtain ⟨b₀, hb₀, hlb₀, hcb⟩ := hs.live hb hlb
    obtain ⟨_, _, rfl⟩ := eq_of_core hca
    obtain ⟨_, _, rfl⟩ := eq_of_core hcb
    exact h.ranges a₀ ha₀ b₀ hb₀ hla₀ hlb₀

end PgDucklake.Queue
