import PgDucklake.Queue.Preserve

/-!
# The slot a reservation holds

When a call of the queue tells its caller that the reservation is not valid, there is no valid slot left for it
(`Dead`), and there will be none again.
-/

namespace PgDucklake.Queue

open Lib

/-- No valid slot is left for the reservation. -/
def Dead (slots : List ReservationSlot) (r : NativeWriterReservation) : Prop :=
  ∀ x, slots[r.slot]? = some x → Live x → x.ticket ≠ r.ticket

section Held

variable {q : QueueShmem} {slots : List ReservationSlot} {r : NativeWriterReservation} {x : ReservationSlot}

theorem findSlot_of_live (ha : r.active = true) (hx : slots[r.slot]? = some x) (hl : Live x)
    (ht : x.ticket = r.ticket) : findSlot slots r = some (r.slot, x) := by
  simp [findSlot, ha, hx, hl.1, ht]

theorem dead_of_none (ha : r.active = true) (h : findSlot slots r = none) : Dead slots r := by
  intro x hx hl ht
  rw [findSlot_of_live ha hx hl ht] at h
  cases h

theorem dead_of_invalid {i : Nat} (h : findSlot slots r = some (i, x)) (hv : x.valid = false) : Dead slots r := by
  obtain ⟨hi, _, rfl, _⟩ := findSlot_some h
  intro y hy hl
  rw [hi] at hy
  cases hy
  exact absurd hl.2 (by simp [hv])

/-- `InvalidateFrom` its own slot. -/
theorem dead_invalidateFrom {i : Nat} (h : findSlot slots r = some (i, x)) :
    Dead (invalidateFrom x.catalog x.ticket slots) r := by
  obtain ⟨hi, _, rfl, _⟩ := findSlot_some h
  obtain ⟨y, hy, hd⟩ := invalidateFrom_self hi
  intro z hz hl
  rw [hy] at hz
  cases hz
  exact absurd hl hd

theorem dead_abandonReservation (ha : r.active = true) : Dead (abandonReservation q r).slots r := by
  unfold abandonReservation
  split
  · rename_i i x h
    obtain ⟨hi, _, rfl, _⟩ := findSlot_some h
    have hlen := (List.getElem?_eq_some_iff.mp hi).1
    intro y hy hl
    rw [removeSlot, List.getElem?_set_self (by simpa [invalidateFrom] using hlen)] at hy
    cases hy
    exact absurd hl zero_not_live
  · exact dead_of_none ha ‹_›

theorem dead_invalidateNativeWriterReservation (ha : r.active = true) :
    Dead (invalidateNativeWriterReservation q r).slots r := by
  unfold invalidateNativeWriterReservation
  split
  · exact dead_invalidateFrom ‹_›
  · exact dead_of_none ha ‹_›

theorem dead_complete {rowCount : Nat} (ha : r.active = true)
    (h : (completeNativeWriterReservation q r rowCount).2 = false) :
    Dead (completeNativeWriterReservation q r rowCount).1.slots r ∧
      Shrinks q.slots (completeNativeWriterReservation q r rowCount).1.slots ∧
        (completeNativeWriterReservation q r rowCount).1.nextTicket = q.nextTicket := by
  revert h
  unfold completeNativeWriterReservation
  split
  · rename_i i x hx
    split
    · split
      · exact fun _ => ⟨dead_invalidateFrom hx, shrinks_invalidateFrom _ _ _, rfl⟩
      · exact nofun
    · rename_i hv
      exact fun _ => ⟨dead_of_invalid hx (by simpa using hv), .refl _, rfl⟩
  · exact fun _ => ⟨dead_of_none ha ‹_›, .refl _, rfl⟩

theorem complete_true {rowCount : Nat} (h : (completeNativeWriterReservation q r rowCount).2 = true) :
    ∃ i x, findSlot q.slots r = some (i, x) ∧ Live x ∧ (x.rowCountKnown = true → x.rowCount = rowCount) ∧
      (completeNativeWriterReservation q r rowCount).1 =
        { q with slots := q.slots.set i { x with rowCount := rowCount, rowCountKnown := true } } := by
  revert h
  unfold completeNativeWriterReservation
  split
  · rename_i i x hx
    split
    · rename_i hv
      split
      · exact nofun
      · rename_i hc
        intro _
        simp only [Bool.or_eq_true, Bool.and_eq_true, bne_iff_ne, ne_eq, not_or, not_and, Decidable.not_not] at hc
        exact ⟨i, x, hx, ⟨(findSlot_some hx).2.1, hv⟩, hc.1, rfl⟩
    · exact nofun
  · exact nofun

theorem dead_validate {snapshotId rowId : Nat} (ha : r.active = true)
    (h : (validateNativeWriterReservation q r snapshotId rowId).2 = false) :
    Dead (validateNativeWriterReservation q r snapshotId rowId).1.slots r := by
  revert h
  unfold validateNativeWriterReservation
  split
  · rename_i i x hx
    split
    · exact nofun
    · exact fun _ => dead_invalidateFrom hx
  · exact fun _ => dead_of_none ha ‹_›

theorem validate_true {snapshotId rowId : Nat} (h : (validateNativeWriterReservation q r snapshotId rowId).2 = true) :
    (validateNativeWriterReservation q r snapshotId rowId).1 = q ∧ ∃ i x, findSlot q.slots r = some (i, x) ∧
      x.candidateSnapshotId = snapshotId ∧ x.candidateRowId = rowId := by
  revert h
  unfold validateNativeWriterReservation
  split
  · rename_i i x hx
    split
    · rename_i hc
      simp only [Bool.and_eq_true, beq_iff_eq] at hc
      exact fun _ => ⟨rfl, i, x, hx, hc.1.2, hc.2⟩
    · exact nofun
  · exact nofun

theorem wait_gone {publicationWait : Bool} {now budgetMs : Int} (ha : r.active = true)
    (h : (waitIteration q r publicationWait now budgetMs).2 = .gone) :
    (waitIteration q r publicationWait now budgetMs).1 = q ∧ Dead q.slots r := by
  revert h
  unfold waitIteration
  split
  · exact fun _ => ⟨rfl, dead_of_none ha ‹_›⟩
  · rename_i i x hx
    split
    · rename_i hv
      exact fun _ => ⟨rfl, dead_of_invalid hx (by simpa using hv)⟩
    · unfold waitBlocked
      repeat' split
      all_goals exact nofun

theorem waitRows_ready {now budgetMs : Int} (h : (waitIteration q r false now budgetMs).2 = .ready) :
    ∃ i x rowId, findSlot q.slots r = some (i, x) ∧ Live x ∧
      ((waitIteration q r false now budgetMs).1 = q ∧ x.rowAssigned = true ∨
        (waitIteration q r false now budgetMs).1 =
          { q with slots := q.slots.set i { x with candidateRowId := rowId, rowAssigned := true } }) := by
  revert h
  unfold waitIteration waitBlocked
  split
  · exact nofun
  · rename_i i x hx
    split
    · exact nofun
    · rename_i hv
      have hl : Live x := ⟨(findSlot_some hx).2.1, by simpa using hv⟩
      rw [if_neg (by simp)]
      split
      · split
        · rename_i hassigned
          exact fun _ => ⟨i, x, 0, hx, hl, Or.inl ⟨rfl, hassigned⟩⟩
        · exact nofun
      · split
        · split
          · rename_i rowId _
            exact fun _ => ⟨i, x, rowId, hx, hl, Or.inr rfl⟩
          · exact nofun
        · exact nofun

theorem wait_blocked {publicationWait : Bool} {now budgetMs deadline : Int} {blocker : Option BlockingReservation}
    (h : (waitIteration q r publicationWait now budgetMs).2 = .blocked blocker deadline) :
    Shrinks q.slots (waitIteration q r publicationWait now budgetMs).1.slots ∧
      (waitIteration q r publicationWait now budgetMs).1.nextTicket = q.nextTicket := by
  rcases waitIteration_cases q r publicationWait now budgetMs with hs | ⟨i, x, previous, rowId, rfl, hx, hl, hp, ha, hk, hr, heq⟩
  · exact hs
  · unfold waitIteration at h
    simp [hx, hl.2, hp, ha, hk, hr] at h

end Held

/-! ## Registering a slot -/

/-- A slot that a pass of Reserve with these arguments registers under the ticket. -/
structure RegisteredFor (a : ReserveArgs) (ticket : Nat) (x : ReservationSlot) : Prop where
  inUse : x.inUse = true
  pending : x.committed = false
  ticket_eq : x.ticket = ticket
  catalog : x.catalog = a.catalog
  owner : x.owner = a.owner
  table : x.tableId = a.tableId
  known : x.rowCountKnown = a.rowCountKnown
  count : x.rowCount = a.rowCount

/-- The queue and the slot after a pass that registers. -/
def register (a : ReserveArgs) (ticket : Nat) (l : List ReservationSlot) (i : Nat) : ReservationSlot :=
  assignRows a (l.set i (freshSlot a ticket)) (assignSnapshot a (l.set i (freshSlot a ticket)) (freshSlot a ticket))

theorem registeredFor (a : ReserveArgs) (ticket : Nat) (l : List ReservationSlot) (i : Nat) :
    RegisteredFor a ticket (register a ticket l i) := by
  obtain ⟨hsame, hp, hk, hc, ho⟩ := assignRows_same a (l.set i (freshSlot a ticket))
    (assignSnapshot a (l.set i (freshSlot a ticket)) (freshSlot a ticket))
  obtain ⟨hu', ht', hcat', htab', hp', _, hk', hc', ho'⟩ := assignSnapshot_same a (l.set i (freshSlot a ticket))
    (freshSlot a ticket)
  exact ⟨hsame.inUse.trans hu', hp.trans hp', hsame.ticket.trans ht', hsame.catalog.trans hcat', ho.trans ho',
    hsame.tableId.trans htab', hk.trans hk', hc.trans hc'⟩

theorem reservePass_cases (a : ReserveArgs) (q : QueueShmem) :
    (∃ q' pass, reservePass a q = (q', pass) ∧ (pass = .full ∨ pass = .noTicket) ∧ Shrinks q.slots q'.slots ∧
      q'.nextTicket = q.nextTicket) ∨
    ∃ l i free, takeFreeSlot (dropStale a q.slots) = (l, some i) ∧ Shrinks q.slots l ∧ l[i]? = some free ∧
      free.inUse = false ∧ reservePass a q = (⟨q.nextTicket + 1, l.set i (register a q.nextTicket l i)⟩,
        .registered ⟨⟨i, q.nextTicket, true⟩, false⟩ (register a q.nextTicket l i)) := by
  have hsh := (shrinks_dropStale a q.slots).trans (shrinks_takeFreeSlot (dropStale a q.slots))
  have hfree := @takeFreeSlot_some (dropStale a q.slots)
  unfold reservePass
  revert hsh hfree
  generalize takeFreeSlot (dropStale a q.slots) = taken
  obtain ⟨l, free⟩ := taken
  intro hsh hfree
  cases free with
  | none => exact Or.inl ⟨_, _, rfl, Or.inl rfl, hsh, rfl⟩
  | some i =>
    dsimp only
    split
    · exact Or.inl ⟨_, _, rfl, Or.inr rfl, hsh, rfl⟩
    · obtain ⟨z, hz, hzu⟩ := hfree rfl
      exact Or.inr ⟨l, i, z, rfl, hsh, hz, hzu, rfl⟩

end PgDucklake.Queue
