import PgDucklake.Queue.Invariant

/-!
# Critical sections that only take slots away

`Shrinks` holds of every helper that invalidates or frees slots (`shrinks_invalidateFrom`, `shrinks_reclaimInvalidSlots`,
`shrinks_removeSlot`, `shrinks_pruneAnchors`, `shrinks_dropStale`, `shrinks_takeFreeSlot`) and of the bookkeeping of
waits (`shrinks_waitBlocked`).
-/

namespace PgDucklake.Queue

open Lib

theorem zero_not_live : ¬Live .zero := fun h => by cases h.1

theorem keeps_zero (s : ReservationSlot) : Keeps s .zero := Or.inr ⟨zero_not_live, fun h => by cases h⟩

theorem keeps_invalid (s : ReservationSlot) : Keeps s { s with valid := false } :=
  Or.inr ⟨fun h => Bool.false_ne_true h.2, fun h => ⟨h, rfl⟩⟩

variable {l : List ReservationSlot}

theorem shrinks_map {f : ReservationSlot → ReservationSlot} (hk : ∀ s ∈ l, Keeps s (f s))
    (ht : ∀ a ∈ l, Live (f a) → ∀ c ∈ l, Live c → c.committed = false → c.catalog = a.catalog → ¬Live (f c) → a.ticket < c.ticket) :
    Shrinks l (l.map f) where
  len := List.length_map f
  keeps := by
    intro i s' hs'
    rw [List.getElem?_map, Option.map_eq_some_iff] at hs'
    obtain ⟨s, hs, rfl⟩ := hs'
    exact ⟨s, hs, hk s (List.mem_of_getElem? hs)⟩
  tail := by
    intro a ha hla i c hc hlc hpc hcat hdead
    obtain ⟨a₀, ha₀, rfl⟩ := List.mem_map.mp ha
    have hcore : (f a₀).core = a₀.core := by
      rcases hk a₀ ha₀ with h | ⟨h, _⟩
      · exact h
      · exact absurd hla h
    have hdc : ¬Live (f c) := hdead (f c) (by rw [List.getElem?_map, hc]; rfl)
    have := ht a₀ ha₀ hla c (List.mem_of_getElem? hc) hlc hpc (hcat.trans (core_catalog hcore)) hdc
    rwa [core_ticket hcore]

variable {i : Nat} {s : ReservationSlot}

theorem shrinks_set {s' : ReservationSlot} (hi : l[i]? = some s) (hk : Keeps s s')
    (ht : ¬Live s' → Live s → s.committed = true) : Shrinks l (l.set i s') where
  len := List.length_set
  keeps := by
    intro j t ht
    by_cases hij : i = j
    · subst hij
      rw [List.getElem?_set_self (List.getElem?_eq_some_iff.mp hi).1] at ht
      cases ht
      exact ⟨s, hi, hk⟩
    · rw [List.getElem?_set_ne hij] at ht
      exact ⟨t, ht, Or.inl rfl⟩
  tail := by
    intro a ha hla j c hc hlc hpc hcat hdead
    by_cases hij : i = j
    · subst hij
      rw [hi] at hc
      cases hc
      have := ht (hdead s' (List.getElem?_set_self (List.getElem?_eq_some_iff.mp hi).1)) hlc
      rw [hpc] at this; cases this
    · exact absurd hlc (hdead c (by rw [List.getElem?_set_ne hij]; exact hc))

theorem shrinks_free (hi : l[i]? = some s) (hs : Live s → s.committed = true) : Shrinks l (l.set i .zero) :=
  shrinks_set hi (keeps_zero s) fun _ => hs

/-! ## The helpers -/

theorem invalidateSlot_live {catalog : CatalogKey} {ticket : Nat} :
    Live (invalidateSlot catalog ticket s) ↔ Live s ∧ ¬(s.catalog = catalog ∧ ticket ≤ s.ticket) := by
  unfold invalidateSlot
  by_cases hl : Live s
  · simp only [hl.1, hl.2, Bool.and_self, Bool.true_and, Bool.and_eq_true, beq_iff_eq, decide_eq_true_eq]
    split
    · exact ⟨fun h => absurd h.2 Bool.false_ne_true, fun h => absurd ‹_› h.2⟩
    · exact ⟨fun h => ⟨h, ‹_›⟩, fun h => h.1⟩
  · refine ⟨fun h => ?_, fun h => absurd h.1 hl⟩
    split at h
    · cases h.2
    · exact absurd h hl

theorem shrinks_invalidateFrom (catalog : CatalogKey) (ticket : Nat) (l : List ReservationSlot) :
    Shrinks l (invalidateFrom catalog ticket l) := by
  refine shrinks_map (fun s _ => ?_) (fun a _ hla c _ hlc _ hcat hdc => ?_)
  · unfold invalidateSlot
    split
    · exact keeps_invalid s
    · exact Or.inl rfl
  · have h₁ : ¬(a.catalog = catalog ∧ ticket ≤ a.ticket) := (invalidateSlot_live.mp hla).2
    have h₂ : c.catalog = catalog ∧ ticket ≤ c.ticket := by
      by_contra h
      exact hdc (invalidateSlot_live.mpr ⟨hlc, h⟩)
    have : ¬ticket ≤ a.ticket := fun h => h₁ ⟨hcat ▸ h₂.1, h⟩
    omega

theorem shrinks_reclaimInvalidSlots (l : List ReservationSlot) : Shrinks l (reclaimInvalidSlots l) := by
  refine shrinks_map (fun s _ => ?_) (fun a _ _ c _ hlc _ _ hdc => ?_)
  · split
    · exact keeps_zero s
    · exact Or.inl rfl
  · rw [if_neg (by simp [hlc.2])] at hdc
    exact absurd hlc hdc

theorem shrinks_pruneAnchors (anchor : ReservationSlot) (l : List ReservationSlot) :
    Shrinks l (pruneAnchors anchor l) := by
  refine shrinks_map (fun s _ => ?_) (fun a _ _ c _ hlc hpc _ hdc => ?_)
  · split
    · exact keeps_zero s
    · exact Or.inl rfl
  · rw [if_neg (by simp [hpc])] at hdc
    exact absurd hlc hdc

/-- After `InvalidateFrom` at a slot's own ticket the slot is dead. -/
theorem invalidateFrom_self (hi : l[i]? = some s) :
    ∃ s', (invalidateFrom s.catalog s.ticket l)[i]? = some s' ∧ ¬Live s' := by
  refine ⟨invalidateSlot s.catalog s.ticket s, by rw [invalidateFrom, List.getElem?_map, hi]; rfl, fun h => ?_⟩
  exact (invalidateSlot_live.mp h).2 ⟨rfl, Nat.le_refl _⟩

theorem shrinks_removeSlot (hi : l[i]? = some s) :
    Shrinks l (removeSlot l i s) := by
  obtain ⟨s', hs', hd⟩ := invalidateFrom_self hi
  exact (shrinks_invalidateFrom s.catalog s.ticket l).trans (shrinks_free hs' fun h => absurd h hd)

theorem shrinks_dropStale (a : ReserveArgs) (l : List ReservationSlot) : Shrinks l (dropStale a l) := by
  have hr := shrinks_reclaimInvalidSlots l
  have hc : Shrinks l (reclaimInvalidSlots (invalidateCatalog a.catalog (reclaimInvalidSlots l))) :=
    (hr.trans (shrinks_invalidateFrom _ _ _)).trans (shrinks_reclaimInvalidSlots _)
  unfold dropStale
  dsimp only
  split
  · exact hr
  · split
    · exact hc
    · split
      · exact hr
      · split
        · exact hc
        · exact hr

theorem shrinks_reclaimOldestCommittedAnchor {l' : List ReservationSlot}
    (h : reclaimOldestCommittedAnchor l = some l') : Shrinks l l' := by
  obtain ⟨⟨i, s⟩, hs, rfl⟩ := Option.map_eq_some_iff.mp h
  obtain ⟨hi, hp, _⟩ := minBy_some hs
  exact shrinks_free hi fun _ => (Bool.and_eq_true_iff.mp hp).2

theorem freeSlot_some (h : freeSlot l = some i) :
    ∃ s, l[i]? = some s ∧ s.inUse = false := by
  obtain ⟨hi, hs, _⟩ := List.findIdx?_eq_some_iff_getElem.mp h
  exact ⟨l[i], List.getElem?_eq_getElem hi, by simpa using hs⟩

theorem shrinks_takeFreeSlot (l : List ReservationSlot) : Shrinks l (takeFreeSlot l).1 := by
  unfold takeFreeSlot
  split
  · exact .refl l
  · split
    · exact shrinks_reclaimOldestCommittedAnchor ‹_›
    · exact .refl l

theorem takeFreeSlot_some {l : List ReservationSlot} {i : Nat} (h : (takeFreeSlot l).2 = some i) :
    ∃ s, (takeFreeSlot l).1[i]? = some s ∧ s.inUse = false := by
  revert h
  unfold takeFreeSlot
  split
  · rename_i j hj
    intro h
    cases h
    exact freeSlot_some hj
  · split
    · exact freeSlot_some
    · exact fun h => by cases h

/-! ## Handles -/

theorem findSlot_some {r : NativeWriterReservation} (h : findSlot l r = some (i, s)) :
    l[i]? = some s ∧ s.inUse = true ∧ i = r.slot ∧ s.ticket = r.ticket ∧
      r.active = true := by
  unfold findSlot at h
  split at h
  · split at h
    · split at h
      · cases h
      · rename_i hact _ slot hslot hc
        cases h
        simp only [Bool.or_eq_true, Bool.not_eq_true', bne_iff_ne, not_or, Bool.not_eq_false, Decidable.not_not] at hc
        exact ⟨hslot, hc.1, rfl, hc.2, hact⟩
    · cases h
  · cases h

theorem shrinks_abandonReservation (q : QueueShmem) (r : NativeWriterReservation) :
    Shrinks q.slots (abandonReservation q r).slots := by
  unfold abandonReservation
  split
  · exact shrinks_removeSlot (findSlot_some ‹_›).1
  · exact .refl _

theorem shrinks_invalidateNativeWriterReservation (q : QueueShmem) (r : NativeWriterReservation) :
    Shrinks q.slots (invalidateNativeWriterReservation q r).slots := by
  unfold invalidateNativeWriterReservation
  split
  · exact shrinks_invalidateFrom _ _ _
  · exact .refl _

theorem shrinks_validateNativeWriterReservation (q : QueueShmem) (r : NativeWriterReservation) (snapshotId rowId : Nat) :
    Shrinks q.slots (validateNativeWriterReservation q r snapshotId rowId).1.slots := by
  unfold validateNativeWriterReservation
  split
  · split
    · exact .refl _
    · exact shrinks_invalidateFrom _ _ _
  · exact .refl _

theorem best_first_some {p : ReservationSlot → Bool} (h : best p (fun _ _ => false) l = some (i, s)) :
    l[i]? = some s ∧ p s = true := by
  have hb := best_unbeaten p (fun _ _ => false) (fun _ => rfl) (fun _ _ _ h _ => by cases h) l
  rw [h] at hb
  exact ⟨List.mk_mem_zipIdx_iff_getElem?.mp hb.1, hb.2.1⟩

theorem shrinks_reclaimInactiveOwner (q : QueueShmem) (candidate : BlockingReservation) :
    Shrinks q.slots (reclaimInactiveOwner q candidate).slots := by
  unfold reclaimInactiveOwner
  split
  · exact shrinks_removeSlot (best_first_some ‹_›).1
  · exact .refl _

/-! These calls give out no ticket. -/

theorem validate_nextTicket (q : QueueShmem) (r : NativeWriterReservation) (snapshotId rowId : Nat) :
    (validateNativeWriterReservation q r snapshotId rowId).1.nextTicket = q.nextTicket := by
  unfold validateNativeWriterReservation
  split
  · split <;> rfl
  · rfl

theorem abandon_nextTicket (q : QueueShmem) (r : NativeWriterReservation) :
    (abandonReservation q r).nextTicket = q.nextTicket := by
  unfold abandonReservation
  split <;> rfl

theorem invalidate_nextTicket (q : QueueShmem) (r : NativeWriterReservation) :
    (invalidateNativeWriterReservation q r).nextTicket = q.nextTicket := by
  unfold invalidateNativeWriterReservation
  split <;> rfl

theorem reclaim_nextTicket (q : QueueShmem) (candidate : BlockingReservation) :
    (reclaimInactiveOwner q candidate).nextTicket = q.nextTicket := by
  unfold reclaimInactiveOwner
  split <;> rfl

/-! ## Waits -/

theorem recordBlocker_core (s : ReservationSlot) (b : Option BlockingReservation) (now budgetMs : Int) :
    (recordBlocker s b now budgetMs).core = s.core := by
  unfold recordBlocker
  split <;> rfl

theorem shrinks_waitBlocked {q : QueueShmem} (hi : q.slots[i]? = some s) (publicationWait : Bool) (now budgetMs : Int) :
    Shrinks q.slots (waitBlocked q i s publicationWait now budgetMs).1.slots := by
  have hc := recordBlocker_core s (findBlocker q.slots s publicationWait) now budgetMs
  exact shrinks_set hi (Or.inl hc) fun hd hl => absurd ((core_live hc).mpr hl) hd

end PgDucklake.Queue
