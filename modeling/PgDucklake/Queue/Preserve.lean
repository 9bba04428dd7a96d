import PgDucklake.Queue.Grow

/-!
# Every critical section keeps the invariant

One lemma per critical section that does more than take slots away: `RepInv.reservePass`, `RepInv.complete`,
`RepInv.waitIteration` and `RepInv.removeLocalReservation`. Registration and the row wait derive a range from the table's
last earlier slot, and need that range not to wrap (`reserveFits`, `waitFits`).
-/

namespace PgDucklake.Queue

open Lib

/-! ## Reserve -/

/-- The table's last valid range, from which a new reservation continues, does not wrap. -/
def reserveFits (a : ReserveArgs) (q : QueueShmem) : Bool :=
  continuesFits (lastValidSlot q.slots a.catalog a.tableId true)

variable {l : List ReservationSlot} {s : ReservationSlot}

theorem mem_reclaimInvalidSlots (hl : Live s) :
    s ∈ reclaimInvalidSlots l ↔ s ∈ l := by
  rw [reclaimInvalidSlots, List.mem_map]
  constructor
  · rintro ⟨t, ht, hts⟩
    split at hts
    · subst hts; exact absurd hl zero_not_live
    · subst hts; exact ht
  · intro hs
    exact ⟨s, hs, if_neg (by simp [hl.2])⟩

theorem mem_invalidateFrom {catalog : CatalogKey} {ticket : Nat} (hl : Live s) :
    s ∈ invalidateFrom catalog ticket l ↔ s ∈ l ∧ ¬(s.catalog = catalog ∧ ticket ≤ s.ticket) := by
  rw [invalidateFrom, List.mem_map]
  have key : ∀ t, invalidateSlot catalog ticket t = s → t = s := by
    intro t ht
    unfold invalidateSlot at ht
    split at ht
    · subst ht; exact absurd hl.2 Bool.false_ne_true
    · exact ht
  constructor
  · rintro ⟨t, ht, hts⟩
    obtain rfl := key t hts
    rw [← hts] at hl
    exact ⟨ht, (invalidateSlot_live.mp hl).2⟩
  · rintro ⟨hs, hn⟩
    refine ⟨s, hs, if_neg fun h => hn ?_⟩
    simp only [Bool.and_eq_true, beq_iff_eq, decide_eq_true_eq] at h
    exact ⟨h.1.2, h.2⟩

theorem dropStale_live (a : ReserveArgs) (l : List ReservationSlot) :
    (∀ s, Live s → (s ∈ dropStale a l ↔ s ∈ l)) ∨
      (∀ s, Live s → (s ∈ dropStale a l ↔ s ∈ l ∧ s.catalog ≠ a.catalog)) := by
  have hkeep : ∀ s, Live s → (s ∈ reclaimInvalidSlots l ↔ s ∈ l) := fun s hl => mem_reclaimInvalidSlots hl
  have hdrop : ∀ s, Live s → (s ∈ reclaimInvalidSlots (invalidateCatalog a.catalog (reclaimInvalidSlots l)) ↔
      s ∈ l ∧ s.catalog ≠ a.catalog) := by
    intro s hl
    rw [mem_reclaimInvalidSlots hl, invalidateCatalog, mem_invalidateFrom hl, mem_reclaimInvalidSlots hl]
    exact and_congr_right fun _ => not_congr (and_iff_left (Nat.zero_le _))
  unfold dropStale
  dsimp only
  split
  · exact Or.inl hkeep
  · split
    · exact Or.inr hdrop
    · split
      · exact Or.inl hkeep
      · split
        · exact Or.inr hdrop
        · exact Or.inl hkeep

theorem takeFreeSlot_live (l : List ReservationSlot) :
    (∀ s ∈ (takeFreeSlot l).1, Live s → s ∈ l) ∧
      ∀ s ∈ l, Live s → s ∉ (takeFreeSlot l).1 →
        s.committed = true ∧ ∀ b ∈ l, b.inUse = true → b.committed = true → s.ticket ≤ b.ticket := by
  unfold takeFreeSlot
  split
  · exact ⟨fun s hs _ => hs, fun s hs _ hn => absurd hs hn⟩
  · split
    · rename_i l' hl'
      obtain ⟨⟨i, o⟩, ho, rfl⟩ := Option.map_eq_some_iff.mp hl'
      obtain ⟨hi, hp, hmin⟩ := minBy_some ho
      refine ⟨fun s hs hl => ?_, fun s hs hl hn => ?_⟩
      · rcases mem_set_cases hs with rfl | hs
        · exact absurd hl zero_not_live
        · exact hs
      · obtain ⟨j, hj⟩ := List.getElem?_of_mem hs
        have hij : i = j := by
          by_contra hij
          exact hn (List.mem_of_getElem? ((List.getElem?_set_ne hij).trans hj))
        subst hij
        rw [hi] at hj
        cases hj
        exact ⟨(Bool.and_eq_true_iff.mp hp).2, fun b hb hu hc => hmin b hb (by simp [hu, hc])⟩
    · exact ⟨fun s hs _ => hs, fun s hs _ hn => absurd hs hn⟩

variable {q : QueueShmem}

theorem RepInv.eq_of_ticket (h : RepInv q) {a b : ReservationSlot} (ha : a ∈ q.slots) (hb : b ∈ q.slots)
    (hua : a.inUse = true) (hub : b.inUse = true) (ht : a.ticket = b.ticket) : a = b := by
  obtain ⟨i, hi⟩ := List.getElem?_of_mem ha
  obtain ⟨j, hj⟩ := List.getElem?_of_mem hb
  obtain rfl := h.distinct i j a b hi hj hua hub ht
  rw [hi] at hj
  exact Option.some.inj hj

theorem RepInv.lastValid_survives {q : QueueShmem} (h : RepInv q) {a : ReserveArgs} {p : ReservationSlot}
    (hp : p ∈ (takeFreeSlot (dropStale a q.slots)).1) (ht : OfTable a.catalog a.tableId true p)
    (hmax : ∀ s ∈ (takeFreeSlot (dropStale a q.slots)).1, OfTable a.catalog a.tableId true s → s.ticket ≤ p.ticket) :
    lastValidSlot q.slots a.catalog a.tableId true = some p := by
  have hp₁ := (takeFreeSlot_live _).1 p hp ht.1
  have hkept : ∀ s, Live s → (s ∈ dropStale a q.slots ↔ s ∈ q.slots) := by
    rcases dropStale_live a q.slots with hk | hd
    · exact hk
    · exact absurd ht.2.1 ((hd p ht.1).mp hp₁).2
  have hp₀ := (hkept p ht.1).mp hp₁
  cases hm : lastValidSlot q.slots a.catalog a.tableId true with
  | none => exact absurd ht (lastValidSlot_none hm p hp₀)
  | some m =>
    obtain ⟨hm₀, hmt, hmmax⟩ := lastValidSlot_some hm
    have hle := hmmax p hp₀ ht
    have hge : m.ticket ≤ p.ticket := by
      by_contra hlt
      have hm₁ := (hkept m hmt.1).mpr hm₀
      by_cases hm₂ : m ∈ (takeFreeSlot (dropStale a q.slots)).1
      · exact hlt (hmax m hm₂ hmt)
      · -- only the oldest anchor can go, and `p` would be an older one
        obtain ⟨hcm, hold⟩ := (takeFreeSlot_live _).2 m hm₁ hmt.1 hm₂
        have hcp := h.anchors p hp₀ m hm₀ ht.1 hmt.1 (ht.2.1.trans hmt.2.1.symm) (by omega) hcm
        have := hold p hp₁ ht.1.1 hcp
        omega
    rw [h.eq_of_ticket hm₀ hp₀ hmt.1.1 ht.1.1 (by omega)]

section Candidates

variable (a : ReserveArgs) (l : List ReservationSlot) (s : ReservationSlot)

/-- What `assignSnapshot` leaves alone. -/
theorem assignSnapshot_same : (assignSnapshot a l s).inUse = s.inUse ∧ (assignSnapshot a l s).ticket = s.ticket ∧
    (assignSnapshot a l s).catalog = s.catalog ∧ (assignSnapshot a l s).tableId = s.tableId ∧
    (assignSnapshot a l s).committed = s.committed ∧ (assignSnapshot a l s).rowAssigned = s.rowAssigned ∧
    (assignSnapshot a l s).rowCountKnown = s.rowCountKnown ∧ (assignSnapshot a l s).rowCount = s.rowCount ∧
    (assignSnapshot a l s).owner = s.owner := by
  unfold assignSnapshot
  split
  · split <;> exact ⟨rfl, rfl, rfl, rfl, rfl, rfl, rfl, rfl, rfl⟩
  · exact ⟨rfl, rfl, rfl, rfl, rfl, rfl, rfl, rfl, rfl⟩

/-- What `assignRows` leaves alone. -/
theorem assignRows_same : SamePlace s (assignRows a l s) ∧ (assignRows a l s).committed = s.committed ∧
    (assignRows a l s).rowCountKnown = s.rowCountKnown ∧ (assignRows a l s).rowCount = s.rowCount ∧
    (assignRows a l s).owner = s.owner := by
  have hsame : SamePlace s s := ⟨rfl, rfl, rfl, rfl, rfl, rfl⟩
  unfold assignRows
  split
  · exact ⟨⟨rfl, rfl, rfl, rfl, rfl, rfl⟩, rfl, rfl, rfl, rfl⟩
  · split
    · exact ⟨⟨rfl, rfl, rfl, rfl, rfl, rfl⟩, rfl, rfl, rfl, rfl⟩
    · exact ⟨hsame, rfl, rfl, rfl, rfl⟩

end Candidates

variable {a : ReserveArgs}

theorem assignSnapshot_candidate (hv : (assignSnapshot a l s).valid = true) :
    (∀ x ∈ l, ¬Prior s false x) ∨
      ∃ p, lastPriorSlot l s false = some p ∧ (assignSnapshot a l s).candidateSnapshotId = p.candidateSnapshotId + 1 := by
  revert hv
  unfold assignSnapshot
  split
  · rename_i p hp
    split
    · rename_i hlt
      refine fun _ => Or.inr ⟨p, hp, ?_⟩
      exact u64Add_of_lt (by simp only [int64Max, u64Size] at *; omega)
    · exact fun hv => absurd hv Bool.false_ne_true
  · rename_i hnone
    exact fun _ => Or.inl (lastPriorSlot_none hnone)

theorem assignRows_assigned (hs : s.rowAssigned = false) (ha : (assignRows a l s).rowAssigned = true) :
    (∀ x ∈ l, ¬Prior s true x) ∨
      ∃ p, lastPriorSlot l s true = some p ∧ nextRowIdAfter p = some (assignRows a l s).candidateRowId := by
  revert ha
  unfold assignRows
  split
  · rename_i hnone
    exact fun _ => Or.inl (lastPriorSlot_none hnone)
  · rename_i p hp
    split
    · rename_i r hr
      exact fun _ => Or.inr ⟨p, hp, hr⟩
    · exact fun ha => absurd (hs.symm.trans ha) Bool.false_ne_true

/-- **Reserve keeps the invariant.** -/
theorem RepInv.reservePass {q : QueueShmem} (h : RepInv q) {a : ReserveArgs} (hfit : reserveFits a q = true) :
    RepInv (reservePass a q).1 := by
  have hsh := (shrinks_dropStale a q.slots).trans (shrinks_takeFreeSlot (dropStale a q.slots))
  have h₂ : RepInv { q with slots := (takeFreeSlot (dropStale a q.slots)).1 } := h.shrink hsh
  have hfree := @takeFreeSlot_some (dropStale a q.slots)
  have hlast := @RepInv.lastValid_survives q h a
  unfold Queue.reservePass
  revert h₂ hfree hlast
  generalize takeFreeSlot (dropStale a q.slots) = taken
  obtain ⟨l, free⟩ := taken
  intro h₂ hfree hlast
  cases free with
  | none => exact h₂
  | some i =>
    dsimp only
    split
    · exact h₂
    · obtain ⟨z, hz, hzu⟩ := hfree rfl
      -- the new slot with its snapshot candidate, and with its rows
      set fresh := freshSlot a q.nextTicket with hfresh
      set s₁ := assignSnapshot a (l.set i fresh) fresh with hs₁
      set s₂ := assignRows a (l.set i fresh) s₁ with hs₂
      obtain ⟨hu₁, ht₁, hc₁, htab₁, hp₁, hra₁, _⟩ := assignSnapshot_same a (l.set i fresh) fresh
      obtain ⟨hsame, hp₂, _⟩ := assignRows_same a (l.set i fresh) s₁
      have hticket : s₂.ticket = q.nextTicket := hsame.ticket.trans ht₁
      have hcat : s₂.catalog = a.catalog := hsame.catalog.trans hc₁
      have htab : s₂.tableId = a.tableId := hsame.tableId.trans htab₁
      -- the slots that the scans look at are the valid slots of `l`
      have hprior : ∀ (sameTable : Bool) {x : ReservationSlot}, x ∈ l → Live x → x.catalog = a.catalog →
          (sameTable = true → x.tableId = a.tableId) → x ∈ l.set i fresh ∧ Prior fresh sameTable x :=
        fun _ x hx hl hxc hxt => ⟨mem_set_of_live hz hzu hx hl.1, hl, hxc, h₂.below x hx hl.1, hxt⟩
      have hback : ∀ {x : ReservationSlot} {sameTable : Bool}, x ∈ l.set i fresh → Prior fresh sameTable x → x ∈ l := by
        intro x _ hx hpx
        rcases mem_set_cases hx with rfl | hx
        · exact absurd hpx.2.2.1 (Nat.lt_irrefl _)
        · exact hx
      have hprior₁ : ∀ {x : ReservationSlot}, Prior s₁ true x ↔ Prior fresh true x := by
        intro x
        rw [Prior, Prior, hc₁, ht₁, htab₁]
      refine h₂.register hz hzu hticket (hp₂.trans hp₁) ?_ ?_
      · intro hl b hb hlb hbc
        have hv : s₁.valid = true := hsame.valid ▸ hl.2
        have hbp := hprior false hb hlb (hbc.trans hcat) (by simp)
        rw [hsame.snapshot]
        rcases assignSnapshot_candidate hv with hnone | ⟨p, hp, hcand⟩
        · exact absurd hbp.2 (hnone b hbp.1)
        · obtain ⟨hpm, hpp, hpmax⟩ := lastPriorSlot_some hp
          have hpl := hback hpm hpp
          have hle := hpmax b hbp.1 hbp.2
          have hcand' : s₁.candidateSnapshotId = p.candidateSnapshotId + 1 := hcand
          rcases Nat.lt_or_eq_of_le hle with hlt | heq
          · have := h₂.increasing b hb p hpl hlb hpp.1 (by rw [hbc, hcat, hpp.2.1]; rfl) hlt
            refine ⟨by omega, fun hlastb => ?_⟩
            have := hlastb p hpl hpp.1 (by rw [hbc, hcat, hpp.2.1]; rfl)
            omega
          · obtain rfl := h₂.eq_of_ticket hb hpl hlb.1 hpp.1.1 heq
            exact ⟨by omega, fun _ => hcand'⟩
      · intro hl hassigned b hb hlb hbc hbt
        have hbp := hprior true hb hlb (hbc.trans hcat) fun _ => hbt.trans htab
        rcases assignRows_assigned (hra₁.trans rfl) hassigned with hnone | ⟨p, hp, hnext⟩
        · exact absurd (hprior₁.mpr hbp.2) (hnone b hbp.1)
        · obtain ⟨hpm, hpp, hpmax⟩ := lastPriorSlot_some hp
          have hpl := hback hpm (hprior₁.mp hpp)
          obtain ⟨hpa, hpk, hpr⟩ := nextRowIdAfter_some hnext
          have hpt : OfTable a.catalog a.tableId true p :=
            ⟨hpp.1, (hprior₁.mp hpp).2.1, fun _ => (hprior₁.mp hpp).2.2.2 rfl⟩
          have hfits := continuesFits_some hfit (hlast hpl hpt fun s hs hst =>
            let hsp := hprior true hs hst.1 hst.2.1 hst.2.2
            hpmax s hsp.1 (hprior₁.mpr hsp.2)) hpa hpk
          exact h₂.rows_after (fun s hs hps => hback hs (hprior₁.mp hps)) hp hpa hpk hfits hpr b hbp.1
            (hprior₁.mpr hbp.2)

/-! ## Complete -/

/-- **Reporting the row count keeps the invariant**: where it was known it is unchanged, and where it was not, no later
slot of the table has rows yet. -/
theorem RepInv.complete (h : RepInv q) (r : NativeWriterReservation) (rowCount : Nat) :
    RepInv (completeNativeWriterReservation q r rowCount).1 := by
  unfold completeNativeWriterReservation
  split
  · rename_i i s hs
    obtain ⟨hi, hu, _⟩ := findSlot_some hs
    have hmem := List.mem_of_getElem? hi
    split
    · rename_i hv
      have hl : Live s := ⟨hu, hv⟩
      split
      · exact h.shrink (shrinks_invalidateFrom _ _ _)
      · rename_i hsame
        refine h.replace hi ⟨rfl, rfl, rfl, rfl, rfl, rfl⟩ id ?_ ?_ ?_
        · exact fun hc a ha hla hcat ht => h.anchors a ha s hmem hla hl hcat ht hc
        · exact fun _ hassigned a ha hla hcat htab ht => h.ranges a ha s hmem hla hl hcat htab ht hassigned
        · intro _ b hb hlb hcat htab ht hassigned
          obtain ⟨ha, hk, hle⟩ := h.ranges s hmem b hb hl hlb hcat htab ht hassigned
          have hcount : s.rowCount = rowCount := by
            by_contra hne
            exact hsame (by simp [hk, hne])
          exact ⟨ha, rfl, hcount ▸ hle⟩
    · exact h
  · exact h

/-! ## Waiting -/

/-- The range before the waiting slot in its table, from which its row wait continues, does not wrap. -/
def waitFits (q : QueueShmem) (r : NativeWriterReservation) : Bool :=
  continuesFits ((findSlot q.slots r).bind fun found => lastPriorSlot q.slots found.2 true)

variable {i : Nat}

/-- **Assigning rows to a waiting slot keeps the invariant.** Where the slot had rows already they started no earlier,
so the rows of later slots still follow. -/
theorem RepInv.assign (h : RepInv q) {p : ReservationSlot} (hi : q.slots[i]? = some s) (hl : Live s)
    (hp : lastPriorSlot q.slots s true = some p) (hpa : p.rowAssigned = true) (hpk : p.rowCountKnown = true)
    (hfit : RangeFits p) {rowId : Nat} (hr : rowFrontier p = some rowId) :
    RepInv { q with slots := q.slots.set i { s with candidateRowId := rowId, rowAssigned := true } } := by
  have hmem := List.mem_of_getElem? hi
  obtain ⟨hpm, hpp, _⟩ := lastPriorSlot_some hp
  refine h.replace hi ⟨rfl, rfl, rfl, rfl, rfl, rfl⟩ id ?_ ?_ ?_
  · exact fun hc a ha hla hcat ht => h.anchors a ha s hmem hla hl hcat ht hc
  · intro _ _ a ha hla hcat htab ht
    exact h.rows_after (fun _ hs _ => hs) hp hpa hpk hfit hr a ha ⟨hla, hcat, ht, fun _ => htab⟩
  · intro _ b hb hlb hcat htab ht hassigned
    obtain ⟨hsa, hk, hle⟩ := h.ranges s hmem b hb hl hlb hcat htab ht hassigned
    obtain ⟨_, _, hps⟩ := h.ranges p hpm s hmem hpp.1 hl hpp.2.1 (hpp.2.2.2 rfl) hpp.2.2.1 hsa
    have := rowFrontier_eq hfit hr
    exact ⟨rfl, hk, by dsimp only; omega⟩

theorem invalidateFrom_own (hi : l[i]? = some s) (hl : Live s) :
    (invalidateFrom s.catalog s.ticket l)[i]? = some { s with valid := false } := by
  rw [invalidateFrom, List.getElem?_map, hi, Option.map_some, invalidateSlot, if_pos (by simp [hl.1, hl.2])]

theorem waitIteration_cases (q : QueueShmem) (r : NativeWriterReservation) (publicationWait : Bool)
    (now budgetMs : Int) :
    (Shrinks q.slots (waitIteration q r publicationWait now budgetMs).1.slots ∧
      (waitIteration q r publicationWait now budgetMs).1.nextTicket = q.nextTicket) ∨
    ∃ i s p rowId, publicationWait = false ∧ findSlot q.slots r = some (i, s) ∧ Live s ∧
      lastPriorSlot q.slots s true = some p ∧ p.rowAssigned = true ∧ p.rowCountKnown = true ∧
      rowFrontier p = some rowId ∧ (waitIteration q r publicationWait now budgetMs).1 =
        { q with slots := q.slots.set i { s with candidateRowId := rowId, rowAssigned := true } } := by
  unfold waitIteration
  split
  · exact Or.inl ⟨.refl _, rfl⟩
  · rename_i i s hs
    obtain ⟨hi, hu, _⟩ := findSlot_some hs
    split
    · exact Or.inl ⟨.refl _, rfl⟩
    · rename_i hv
      have hl : Live s := ⟨hu, by simpa using hv⟩
      split
      · split
        · exact Or.inl ⟨.refl _, rfl⟩
        · exact Or.inl ⟨shrinks_waitBlocked hi _ _ _, rfl⟩
      · rename_i hpw
        split
        · split
          · exact Or.inl ⟨.refl _, rfl⟩
          · exact Or.inl ⟨shrinks_waitBlocked hi _ _ _, rfl⟩
        · rename_i p hp
          split
          · rename_i hpak
            obtain ⟨hpa, hpk⟩ := Bool.and_eq_true_iff.mp hpak
            split
            · rename_i rowId hr
              exact Or.inr ⟨i, s, p, rowId, by simpa using hpw, hs, hl, hp, hpa, hpk, hr, rfl⟩
            · exact Or.inl ⟨(shrinks_invalidateFrom s.catalog s.ticket q.slots).trans
                (shrinks_waitBlocked (q := { q with slots := invalidateFrom s.catalog s.ticket q.slots })
                  (invalidateFrom_own hi hl) _ _ _), rfl⟩
          · exact Or.inl ⟨shrinks_waitBlocked hi _ _ _, rfl⟩

/-- **A wait keeps the invariant.** -/
theorem RepInv.waitIteration {q : QueueShmem} (h : RepInv q) {r : NativeWriterReservation} {publicationWait : Bool}
    (hfit : publicationWait = false → waitFits q r = true) (now budgetMs : Int) :
    RepInv (waitIteration q r publicationWait now budgetMs).1 := by
  rcases waitIteration_cases q r publicationWait now budgetMs with ⟨hs, hn⟩ | ⟨i, s, p, rowId, hpw, hs, hl, hp, hpa, hpk,
    hr, heq⟩
  · have := h.shrink hs
    rwa [← hn] at this
  · rw [heq]
    have hbind : ((findSlot q.slots r).bind fun found => lastPriorSlot q.slots found.2 true) = some p := by
      rw [hs]; exact hp
    exact h.assign (findSlot_some hs).1 hl hp hpa hpk (continuesFits_some (hfit hpw) hbind hpa hpk) hr

/-! ## Transaction end -/

/-- No pending slot of its catalog is before the reservation's slot. -/
def IsFirst (q : QueueShmem) (r : NativeWriterReservation) : Prop :=
  ∀ i s, findSlot q.slots r = some (i, s) → Live s → ∀ b ∈ q.slots, PendingIn s.catalog b → s.ticket ≤ b.ticket

/-- **Transaction end keeps the invariant**, when only a first slot is committed as published. -/
theorem RepInv.removeLocalReservation {q : QueueShmem} (h : RepInv q) {loc : LocalReservation} {committed : Bool}
    (hfirst : committed = true → loc.published = true → IsFirst q loc.reservation) :
    RepInv (removeLocalReservation q loc committed) := by
  unfold Queue.removeLocalReservation
  split
  · exact h
  · rename_i i s hs
    obtain ⟨hi, hu, _⟩ := findSlot_some hs
    have hmem := List.mem_of_getElem? hi
    split
    · rename_i hc
      simp only [Bool.and_eq_true] at hc
      have hl : Live s := ⟨hu, hc.2⟩
      have hanchor : RepInv { q with slots := q.slots.set i (commitSlot s) } := by
        refine h.replace hi ⟨rfl, rfl, rfl, rfl, rfl, rfl⟩ (fun _ => rfl) ?_ ?_ ?_
        · intro _ a ha hla hcat ht
          cases hca : a.committed with
          | true => rfl
          | false =>
            have := hfirst hc.1.1 hc.1.2 i s hs hl a ha ⟨hla, hca, hcat⟩
            omega
        · exact fun _ hassigned a ha hla hcat htab ht => h.ranges a ha s hmem hla hl hcat htab ht hassigned
        · exact fun _ b hb hlb hcat htab ht hassigned => h.ranges s hmem b hb hl hlb hcat htab ht hassigned
      exact hanchor.shrink (shrinks_pruneAnchors s _)
    · exact h.shrink (shrinks_removeSlot hi)

end PgDucklake.Queue
