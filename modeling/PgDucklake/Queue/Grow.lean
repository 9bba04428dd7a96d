import PgDucklake.Queue.Shrink

/-!
# Critical sections that extend the queue

Registering a slot (`RepInv.register`), and replacing a slot by one with other row fields or by its anchor
(`RepInv.replace`), keep the invariant under what the scans establish: `lastPriorSlot_some`, `lastPriorSlot_none` and
`firstPendingSlot_some` say what the scans find, `rowFrontier_eq` that an overflow test that is passed gives the end of
the range, provided the range does not wrap (`RangeFits`).
-/

namespace PgDucklake.Queue

open Lib

/-! ## Scans -/

/-- What `LastPriorSlot` looks at. -/
def Prior (current : ReservationSlot) (sameTable : Bool) (s : ReservationSlot) : Prop :=
  Live s ∧ s.catalog = current.catalog ∧ s.ticket < current.ticket ∧ (sameTable = true → s.tableId = current.tableId)

variable {current s : ReservationSlot} {sameTable : Bool}

theorem prior_iff :
    (!(!s.inUse || !s.valid || s.catalog != current.catalog || decide (current.ticket ≤ s.ticket) ||
      (sameTable && s.tableId != current.tableId))) = true ↔ Prior current sameTable s := by
  simp only [Prior, Live, Bool.not_or, Bool.not_not, bne, Bool.and_eq_true, beq_iff_eq, Bool.not_eq_true',
    decide_eq_false_iff_not, Nat.not_le, Bool.and_eq_false_imp, Bool.not_eq_false', and_assoc]

variable {l : List ReservationSlot} {p : ReservationSlot}

theorem lastPriorSlot_some (h : lastPriorSlot l current sameTable = some p) :
    p ∈ l ∧ Prior current sameTable p ∧ ∀ s ∈ l, Prior current sameTable s → s.ticket ≤ p.ticket := by
  obtain ⟨⟨i, p'⟩, hp, rfl⟩ := Option.map_eq_some_iff.mp h
  obtain ⟨hi, hpp, hmax⟩ := maxBy_some hp
  exact ⟨List.mem_of_getElem? hi, prior_iff.mp hpp, fun s hs hps => hmax s hs (prior_iff.mpr hps)⟩

theorem lastPriorSlot_none (h : lastPriorSlot l current sameTable = none) : ∀ s ∈ l, ¬Prior current sameTable s := by
  intro s hs hps
  have := maxBy_none (Option.map_eq_none_iff.mp h) s hs
  rw [prior_iff.mpr hps] at this
  cases this

/-- What `LastValidSlot` looks at. -/
def OfTable (catalog : CatalogKey) (tableId : Nat) (sameTable : Bool) (s : ReservationSlot) : Prop :=
  Live s ∧ s.catalog = catalog ∧ (sameTable = true → s.tableId = tableId)

variable {catalog : CatalogKey} {tableId : Nat}

theorem ofTable_iff :
    (!(!s.inUse || !s.valid || s.catalog != catalog || (sameTable && s.tableId != tableId))) = true ↔
      OfTable catalog tableId sameTable s := by
  simp only [OfTable, Live, Bool.not_or, Bool.not_not, bne, Bool.and_eq_true, beq_iff_eq, Bool.not_eq_true',
    Bool.and_eq_false_imp, Bool.not_eq_false', and_assoc]

theorem lastValidSlot_some (h : lastValidSlot l catalog tableId sameTable = some p) :
    p ∈ l ∧ OfTable catalog tableId sameTable p ∧ ∀ s ∈ l, OfTable catalog tableId sameTable s → s.ticket ≤ p.ticket := by
  obtain ⟨⟨i, p'⟩, hp, rfl⟩ := Option.map_eq_some_iff.mp h
  obtain ⟨hi, hpp, hmax⟩ := maxBy_some hp
  exact ⟨List.mem_of_getElem? hi, ofTable_iff.mp hpp, fun s hs hps => hmax s hs (ofTable_iff.mpr hps)⟩

theorem lastValidSlot_none (h : lastValidSlot l catalog tableId sameTable = none) :
    ∀ s ∈ l, ¬OfTable catalog tableId sameTable s := by
  intro s hs hps
  have := maxBy_none (Option.map_eq_none_iff.mp h) s hs
  rw [ofTable_iff.mpr hps] at this
  cases this

/-- Live and not committed, in the catalog. -/
def PendingIn (catalog : CatalogKey) (s : ReservationSlot) : Prop :=
  Live s ∧ s.committed = false ∧ s.catalog = catalog

theorem pendingIn_iff :
    (s.inUse && s.valid && !s.committed && s.catalog == catalog) = true ↔ PendingIn catalog s := by
  simp only [PendingIn, Live, Bool.and_eq_true, Bool.not_eq_true', beq_iff_eq, and_assoc]

theorem firstPendingSlot_some (h : firstPendingSlot l catalog = some p) :
    p ∈ l ∧ PendingIn catalog p ∧ ∀ s ∈ l, PendingIn catalog s → p.ticket ≤ s.ticket := by
  obtain ⟨⟨i, p'⟩, hp, rfl⟩ := Option.map_eq_some_iff.mp h
  obtain ⟨hi, hpp, hmin⟩ := minBy_some hp
  exact ⟨List.mem_of_getElem? hi, pendingIn_iff.mp hpp, fun s hs hps => hmin s hs (pendingIn_iff.mpr hps)⟩

/-! ## Row ranges -/

/-- The end of the slot's row range does not wrap past the overflow test, whose `INT64_MAX - row_count` is unsigned. -/
def RangeFits (s : ReservationSlot) : Prop := s.rowCount ≤ int64Max ∨ s.candidateRowId + s.rowCount < u64Size

instance (s : ReservationSlot) : Decidable (RangeFits s) := inferInstanceAs (Decidable (_ ∨ _))

/-- Of the slot whose rows another continues, if there is one with known rows: its range fits. -/
def continuesFits (previous : Option ReservationSlot) : Bool :=
  previous.all fun p => !(p.rowAssigned && p.rowCountKnown) || decide (RangeFits p)

theorem continuesFits_some {previous : Option ReservationSlot} (h : continuesFits previous = true)
    (hp : previous = some p) (ha : p.rowAssigned = true) (hk : p.rowCountKnown = true) : RangeFits p := by
  subst hp
  simpa [continuesFits, ha, hk] using h

variable {r : Nat}

theorem rowFrontier_eq (hs : RangeFits s) (h : rowFrontier s = some r) :
    r = s.candidateRowId + s.rowCount := by
  unfold rowFrontier at h
  split at h
  · rename_i hle
    cases h
    rcases hs with hs | hs
    · rw [u64Sub_of_le hs (by simp [int64Max, u64Size])] at hle
      exact u64Add_of_lt (by simp only [int64Max, u64Size] at *; omega)
    · exact u64Add_of_lt hs
  · cases h

theorem nextRowIdAfter_some (h : nextRowIdAfter p = some r) :
    p.rowAssigned = true ∧ p.rowCountKnown = true ∧ rowFrontier p = some r := by
  unfold nextRowIdAfter at h
  split at h
  · rename_i hp
    exact ⟨(Bool.and_eq_true_iff.mp hp).1, (Bool.and_eq_true_iff.mp hp).2, h⟩
  · cases h

variable {q : QueueShmem}

theorem RepInv.rows_after (h : RepInv q) (hl : ∀ s ∈ l, Prior current true s → s ∈ q.slots)
    (hp : lastPriorSlot l current true = some p) (hpa : p.rowAssigned = true) (hpk : p.rowCountKnown = true)
    (hfit : RangeFits p) (hr : rowFrontier p = some r) :
    ∀ a ∈ l, Prior current true a → a.rowAssigned = true ∧ a.rowCountKnown = true ∧ a.candidateRowId + a.rowCount ≤ r := by
  obtain ⟨hpm, hpp, hmax⟩ := lastPriorSlot_some hp
  have hre := rowFrontier_eq hfit hr
  intro a ha hpa'
  have hmem := hl a ha hpa'
  have hpmem := hl p hpm hpp
  rcases Nat.lt_or_eq_of_le (hmax a ha hpa') with hlt | heq
  · have := h.ranges a hmem p hpmem hpa'.1 hpp.1 (hpa'.2.1.trans hpp.2.1.symm)
      ((hpa'.2.2.2 rfl).trans (hpp.2.2.2 rfl).symm) hlt hpa
    exact ⟨this.1, this.2.1, by omega⟩
  · -- same ticket, same slot
    obtain ⟨i, hi⟩ := List.getElem?_of_mem hmem
    obtain ⟨j, hj⟩ := List.getElem?_of_mem hpmem
    have := h.distinct i j a p hi hj hpa'.1.1 hpp.1.1 heq
    subst this
    rw [hi] at hj
    cases hj
    exact ⟨hpa, hpk, by omega⟩

/-! ## Registering a slot -/

variable {i : Nat} {s' x : ReservationSlot}

theorem mem_set_cases (hx : x ∈ l.set i s') :
    x = s' ∨ x ∈ l := (List.mem_or_eq_of_mem_set hx).symm

variable {z : ReservationSlot}

theorem mem_set_of_live (hi : l[i]? = some z) (hz : z.inUse = false) (hx : x ∈ l) (hl : x.inUse = true) :
    x ∈ l.set i s' := by
  obtain ⟨j, hj⟩ := List.getElem?_of_mem hx
  have hij : i ≠ j := by
    rintro rfl
    rw [hi] at hj
    cases hj
    rw [hz] at hl; cases hl
  exact List.mem_of_getElem? ((List.getElem?_set_ne hij).trans hj)

/-- **A registered slot keeps the invariant**: it has the highest ticket, its snapshot candidate follows the last valid
slot of the catalog and its rows, when assigned, start after every valid range of the table. -/
theorem RepInv.register (h : RepInv q) (hi : q.slots[i]? = some z) (hz : z.inUse = false)
    (hticket : s'.ticket = q.nextTicket) (hpend : s'.committed = false)
    (hsnap : Live s' → ∀ a ∈ q.slots, Live a → a.catalog = s'.catalog → a.candidateSnapshotId < s'.candidateSnapshotId ∧ ((∀ c ∈ q.slots, Live c → c.catalog = a.catalog → c.ticket ≤ a.ticket) → s'.candidateSnapshotId = a.candidateSnapshotId + 1))
    (hrows : Live s' → s'.rowAssigned = true → ∀ a ∈ q.slots, Live a → a.catalog = s'.catalog → a.tableId = s'.tableId → a.rowAssigned = true ∧ a.rowCountKnown = true ∧ a.candidateRowId + a.rowCount ≤ s'.candidateRowId) :
    RepInv ⟨q.nextTicket + 1, q.slots.set i s'⟩ := by
  have hlen := (List.getElem?_eq_some_iff.mp hi).1
  have hlt : ∀ a ∈ q.slots, a.inUse = true → a.ticket < s'.ticket := fun a ha hu => hticket ▸ h.below a ha hu
  constructor
  case distinct =>
    intro j k a b ha hb hua hub ht
    rw [List.getElem?_set] at ha hb
    grind [h.distinct j k a b, List.mem_of_getElem?]
  case below =>
    intro a ha hua
    grind [mem_set_cases ha, h.below a]
  -- of two slots one may be the new one, whose ticket is the highest
  case anchors =>
    intro a ha b hb hla hlb hcat ht hcb
    have hold := fun ha hb => h.anchors a ha b hb hla hlb hcat ht hcb
    grind [mem_set_cases ha, mem_set_cases hb, Live]
  case increasing =>
    intro a ha b hb hla hlb hcat ht
    have hold := fun ha hb => h.increasing a ha b hb hla hlb hcat ht
    grind [mem_set_cases ha, mem_set_cases hb, Live]
  case adjacent =>
    intro a ha b hb hla hlb hcat ht hpa hpb hadj
    have hold := fun ha hb => h.adjacent a ha b hb hla hlb hcat ht hpa hpb
    have hstays := fun c hc hlc => hadj c (mem_set_of_live hi hz hc (And.left hlc)) hlc
    grind [mem_set_cases ha, mem_set_cases hb, Live]
  case ranges =>
    intro a ha b hb hla hlb hcat htab ht hab
    have hold := fun ha hb => h.ranges a ha b hb hla hlb hcat htab ht hab
    grind [mem_set_cases ha, mem_set_cases hb, Live]

/-! ## Replacing a slot -/

/-- `s'` has the ticket, table, liveness and snapshot candidate of `s`. -/
structure SamePlace (s s' : ReservationSlot) : Prop where
  inUse : s'.inUse = s.inUse
  valid : s'.valid = s.valid
  ticket : s'.ticket = s.ticket
  catalog : s'.catalog = s.catalog
  tableId : s'.tableId = s.tableId
  snapshot : s'.candidateSnapshotId = s.candidateSnapshotId

theorem SamePlace.live (h : SamePlace s s') : Live s' ↔ Live s := by
  rw [Live, Live, h.inUse, h.valid]

theorem mem_set_same (hi : l[i]? = some s) (hs : SamePlace s s') (hx : x ∈ l.set i s') :
    ∃ x₀ ∈ l, SamePlace x₀ x ∧ (x = x₀ ∨ (x₀ = s ∧ x = s')) := by
  rcases mem_set_cases hx with rfl | hx
  · exact ⟨s, List.mem_of_getElem? hi, hs, Or.inr ⟨rfl, rfl⟩⟩
  · exact ⟨x, hx, ⟨rfl, rfl, rfl, rfl, rfl, rfl⟩, Or.inl rfl⟩

theorem exists_mem_set (hi : l[i]? = some s) (hs : SamePlace s s') (hx : x ∈ l) :
    ∃ x' ∈ l.set i s', SamePlace x x' := by
  obtain ⟨j, hj⟩ := List.getElem?_of_mem hx
  by_cases hij : i = j
  · subst hij
    rw [hi] at hj
    cases hj
    exact ⟨s', List.mem_of_getElem? (List.getElem?_set_self (List.getElem?_eq_some_iff.mp hi).1), hs⟩
  · exact ⟨x, List.mem_of_getElem? ((List.getElem?_set_ne hij).trans hj), ⟨rfl, rfl, rfl, rfl, rfl, rfl⟩⟩

/-- **A slot replaced in its place keeps the invariant**: it becomes an anchor only when all before it are anchors, and
its rows still lie between those of its neighbours. -/
theorem RepInv.replace (h : RepInv q) (hi : q.slots[i]? = some s) (hs : SamePlace s s')
    (hkeep : s.committed = true → s'.committed = true)
    (hanchor : s'.committed = true → ∀ a ∈ q.slots, Live a → a.catalog = s.catalog → a.ticket < s.ticket → a.committed = true)
    (hafter : Live s → s'.rowAssigned = true → ∀ a ∈ q.slots, Live a → a.catalog = s.catalog → a.tableId = s.tableId → a.ticket < s.ticket → a.rowAssigned = true ∧ a.rowCountKnown = true ∧ a.candidateRowId + a.rowCount ≤ s'.candidateRowId)
    (hbefore : Live s → ∀ b ∈ q.slots, Live b → s.catalog = b.catalog → s.tableId = b.tableId → s.ticket < b.ticket → b.rowAssigned = true → s'.rowAssigned = true ∧ s'.rowCountKnown = true ∧ s'.candidateRowId + s'.rowCount ≤ b.candidateRowId) :
    RepInv { q with slots := q.slots.set i s' } := by
  have hlen := (List.getElem?_eq_some_iff.mp hi).1
  constructor
  case distinct =>
    intro j k a b ha hb hua hub ht
    rw [List.getElem?_set] at ha hb
    grind [h.distinct j k, hs.inUse, hs.ticket]
  case below =>
    intro a ha hua
    obtain ⟨a₀, ha₀, sa, _⟩ := mem_set_same hi hs ha
    exact sa.ticket ▸ h.below a₀ ha₀ (sa.inUse ▸ hua)
  -- each of the two slots is what it was, or the replaced one in its place
  case anchors =>
    intro a ha b hb hla hlb hcat ht hcb
    obtain ⟨a₀, ha₀, sa, ea⟩ := mem_set_same hi hs ha
    obtain ⟨b₀, hb₀, sb, eb⟩ := mem_set_same hi hs hb
    have hold := h.anchors a₀ ha₀ b₀ hb₀ (sa.live.mp hla) (sb.live.mp hlb)
    grind [SamePlace, SamePlace.live]
  case increasing =>
    intro a ha b hb hla hlb
    obtain ⟨a₀, ha₀, sa, _⟩ := mem_set_same hi hs ha
    obtain ⟨b₀, hb₀, sb, _⟩ := mem_set_same hi hs hb
    rw [sa.snapshot, sb.snapshot, sa.catalog, sb.catalog, sa.ticket, sb.ticket]
    exact h.increasing a₀ ha₀ b₀ hb₀ (sa.live.mp hla) (sb.live.mp hlb)
  case adjacent =>
    intro a ha b hb hla hlb hcat ht hpa hpb hadj
    obtain ⟨a₀, ha₀, sa, ea⟩ := mem_set_same hi hs ha
    obtain ⟨b₀, hb₀, sb, eb⟩ := mem_set_same hi hs hb
    have hold := h.adjacent a₀ ha₀ b₀ hb₀ (sa.live.mp hla) (sb.live.mp hlb)
    have hstays := fun c hc => exists_mem_set (x := c) hi hs hc
    grind [SamePlace, SamePlace.live]
  case ranges =>
    intro a ha b hb hla hlb hcat htab ht hab
    obtain ⟨a₀, ha₀, sa, ea⟩ := mem_set_same hi hs ha
    obtain ⟨b₀, hb₀, sb, eb⟩ := mem_set_same hi hs hb
    have hold := h.ranges a₀ ha₀ b₀ hb₀ (sa.live.mp hla) (sb.live.mp hlb)
    grind [SamePlace, SamePlace.live]

end PgDucklake.Queue
