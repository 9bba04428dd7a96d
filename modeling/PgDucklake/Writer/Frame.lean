import PgDucklake.Writer.Invariant

/-!
# What one writer's step leaves of the others

A step of one transaction changes heaps by rows of its own (`OwnHeap`, `OwnRows`), which nobody else sees. `Frame` is what
another writer's phase depends on; `PhaseInv.frame` and `PhaseInv.advance` carry it along, the first when nothing was
committed, the second when a snapshot was. `Inv.ownStep` assembles the invariant after a step that commits nothing.
-/

namespace PgDucklake.Writer

open Lib

variable {base : Base}

/-! ## Heaps -/

/-- A heap changed by transaction `x`, which is not committed. -/
structure OwnHeap {α : Type} (isCommitted : Nat → Bool) (x : Nat) (h h' : List (Version α)) : Prop where
  view : view isCommitted h' = view isCommitted h
  others : ∀ y, y ≠ x → Untouched y h → Untouched y h'
  below : ∀ n, x < n → XidsBelow n h → XidsBelow n h'

theorem OwnHeap.refl {α : Type} (isCommitted : Nat → Bool) (x : Nat) (h : List (Version α)) :
    OwnHeap isCommitted x h h := ⟨rfl, fun _ _ hu => hu, fun _ _ hb => hb⟩

theorem OwnHeap.insertRow {α : Type} {isCommitted : Nat → Bool} {x : Nat} (hx : isCommitted x = false) (cmd : Nat) (a : α)
    (h : List (Version α)) : OwnHeap isCommitted x h (insertRow x cmd a h) where
  view := view_insertRow_unseen hx a
  others := fun _ hy hu => hu.insertRow (Ne.symm hy) a
  below := by
    intro n hn hb v hv
    rcases List.mem_append.mp hv with hv | hv
    · exact hb v hv
    · rw [List.mem_singleton.mp hv]
      exact ⟨hn, by simp⟩

theorem OwnHeap.updateRows {α : Type} {status : Nat → XidStatus} {x : Nat} (hx : committedIn status x = false) (cmd : Nat)
    (p : Version α → Bool) (f : α → α) (h : List (Version α)) :
    OwnHeap (committedIn status) x h (updateRows (seenBy status x) x cmd p f h) where
  view := view_updateRows_unseen hx (fun _ hy => committedIn_seenBy hy) p f
  others := fun _ hy hu => hu.updateRows (Ne.symm hy) _ p f
  below := by
    intro n hn hb v hv
    rcases List.mem_append.mp hv with hv | hv
    · obtain ⟨u, hu, rfl⟩ := List.mem_map.mp hv
      split
      · refine ⟨(hb u hu).1, fun y hy => ?_⟩
        cases hy
        exact hn
      · exact hb u hu
    · obtain ⟨u, _, rfl⟩ := List.mem_map.mp hv
      exact ⟨hn, by simp⟩

/-- The inline heap changed by transaction `x`: rows of others are as and where they were, its own are ended by none or
by it. -/
structure OwnRows (x : Nat) (h h' : List (Version InlinedRow)) : Prop where
  others : (h'.filter fun v => v.xmin != x) = h.filter fun v => v.xmin != x
  places : ∀ (i : Nat) v, h[i]? = some v → v.xmin ≠ x → h'[i]? = some v
  ends : OwnEnds x h'

section OwnRows

variable {x y : Nat} {h h' : List (Version InlinedRow)}

theorem OwnRows.mem (ho : OwnRows x h h') {v : Version InlinedRow} (hv : v ∈ h') (hx : v.xmin ≠ x) : v ∈ h := by
  have : v ∈ h'.filter fun v => v.xmin != x := List.mem_filter.mpr ⟨hv, by simpa using hx⟩
  rw [ho.others] at this
  exact List.mem_of_mem_filter this

theorem OwnRows.filter (ho : OwnRows x h h') (hy : y ≠ x) :
    (h'.filter fun v => v.xmin == y) = h.filter fun v => v.xmin == y := by
  have key : ∀ l : List (Version InlinedRow),
      (l.filter fun v => v.xmin == y) = (l.filter fun v => v.xmin != x).filter fun v => v.xmin == y := by
    intro l
    rw [List.filter_filter]
    refine List.filter_congr fun v _ => ?_
    by_cases hv : v.xmin = y
    · simp [hv, hy]
    · simp [hv]
  rw [key h', key h, ho.others]

theorem OwnRows.refl (hends : OwnEnds x h) : OwnRows x h h := ⟨rfl, fun _ _ hi _ => hi, hends⟩

theorem OwnRows.ownEnds (ho : OwnRows x h h') (hends : OwnEnds y h) : OwnEnds y h' := by
  intro v hv hvy z hz
  by_cases hvx : v.xmin = x
  · rw [← hvy, hvx]
    exact ho.ends v hv hvx z hz
  · exact hends v (ho.mem hv hvx) hvy z hz

theorem viewOf_eq (sees : Nat → Bool) (x : Nat) (h : List (Version InlinedRow)) :
    viewOf sees x h = ((h.filter fun v => v.xmin == x).filter (·.visible sees)).map (·.data) := by
  rw [viewOf, List.filter_filter]
  congr 2
  funext v
  exact Bool.and_comm _ _

theorem viewOf_congr_heap (sees : Nat → Bool)
    (hf : (h'.filter fun v => v.xmin == x) = h.filter fun v => v.xmin == x) :
    viewOf sees x h' = viewOf sees x h := by
  rw [viewOf_eq, viewOf_eq, hf]

theorem viewOf_congr_sees {sees sees' : Nat → Bool} (hends : OwnEnds x h)
    (hs : sees x = true) (hs' : sees' x = true) : viewOf sees x h = viewOf sees' x h := by
  unfold viewOf
  congr 1
  refine List.filter_congr fun v hv => ?_
  by_cases hx : v.xmin = x
  · have hvis : v.visible sees = v.visible sees' := by
      unfold Version.visible
      rw [hx, hs, hs']
      cases hm : v.xmax with
      | none => rfl
      | some y =>
        obtain rfl := hends v hv hx y hm
        simp [hs, hs']
    rw [hvis]
  · simp [beq_eq_false_iff_ne.mpr hx]

end OwnRows

/-! ## Other writers -/

/-- What the phase of a writer with transaction `y` depends on, when nothing is committed. -/
structure Frame (y : Nat) (s s' : Store) : Prop where
  history : s'.history = s.history
  snapshots : s'.snapshots = s.snapshots
  rows : (s'.catalog.inlined.filter fun v => v.xmin == y) = s.catalog.inlined.filter fun v => v.xmin == y
  places : ∀ (i : Nat) v, s.catalog.inlined[i]? = some v → v.xmin = y → s'.catalog.inlined[i]? = some v
  snapshot : Untouched y s.catalog.snapshot → Untouched y s'.catalog.snapshot
  tableStats : Untouched y s.catalog.tableStats → Untouched y s'.catalog.tableStats
  claimed : (∃ v ∈ s.catalog.snapshot, v.xmin = y) →
    view (s'.sees y) s'.catalog.snapshot = view (s.sees y) s.catalog.snapshot ∧
    view (s'.sees y) s'.catalog.tableStats = view (s.sees y) s.catalog.tableStats ∧
    viewOf (s'.sees y) y s'.catalog.inlined = viewOf (s.sees y) y s.catalog.inlined ∧
    ∀ v ∈ s.catalog.snapshot, v ∈ s'.catalog.snapshot

section Frame

variable {s s' : Store} {b : Batch} {st : PublicationState}

theorem Prewritten.frame (h : Prewritten s b)
    (hr : (s'.catalog.inlined.filter fun v => v.xmin == b.ownerXid) =
      s.catalog.inlined.filter fun v => v.xmin == b.ownerXid)
    (hplace : ∀ (i : Nat) v, s.catalog.inlined[i]? = some v → v.xmin = b.ownerXid →
      s'.catalog.inlined[i]? = some v) : Prewritten s' b := by
  refine ⟨hr.trans h.rows, fun ht => ?_, h.noPointers⟩
  rw [← h.pointers ht]
  refine List.map_congr_left fun i hi => ?_
  -- what a pointer points to is a row of the batch
  have hm : s.catalog.inlined[i]? ∈ b.prewritten.map some := by
    rw [← h.pointers ht]
    exact List.mem_map_of_mem hi
  obtain ⟨v, hv, hvi⟩ := List.mem_map.mp hm
  obtain ⟨row, _, rfl⟩ := List.mem_map.mp hv
  rw [← hvi]
  exact hplace i _ hvi.symm rfl

theorem Frame.latest_eq (hf : Frame b.ownerXid s s') : latest base s' = latest base s := by
  rw [latest, latest, hf.snapshots]

theorem OnlyRows.frame (h : OnlyRows s b) (hf : Frame b.ownerXid s s') : OnlyRows s' b :=
  ⟨h.rows.frame hf.rows hf.places, hf.snapshot h.snapshot, hf.tableStats h.tableStats⟩

theorem Counters.frame {t : Nat} (h : Counters base s t st) (hh : s'.history = s.history) : Counters base s' t st := by
  obtain ⟨h₁, h₂, h₃⟩ := h
  exact ⟨by rw [hh]; exact h₁, by rw [hh]; exact h₂, by rw [hh]; exact h₃⟩

theorem ReadAt.frame {P Q : Prop} (h : ReadAt base s st P) (hf : Frame b.ownerXid s s') (hPQ : P → Q) :
    ReadAt base s' st Q :=
  ⟨h.first, hf.latest_eq ▸ h.le_latest, fun he => hPQ (h.fresh (he.trans hf.latest_eq))⟩

theorem Claimed.frame (h : Claimed base s b st) (hf : Frame b.ownerXid s s') : Claimed base s' b st := by
  obtain ⟨v, hv, hvx, hvi⟩ := h.own
  obtain ⟨hs, _, _, hsub⟩ := hf.claimed ⟨v, hv, hvx⟩
  refine ⟨?_, h.is_latest.trans hf.latest_eq.symm, h.counters.frame hf.history, v, hsub v hv, hvx, hvi⟩
  rw [hs, hf.snapshots]
  exact h.snapshot

theorem Claimed.claims (h : Claimed base s b st) : ∃ v ∈ s.catalog.snapshot, v.xmin = b.ownerXid := by
  obtain ⟨v, hv, hvx, _⟩ := h.own
  exact ⟨v, hv, hvx⟩

theorem Retagged.frame (h : Retagged s b st) (hc : Claimed base s b st) (hf : Frame b.ownerXid s s') :
    Retagged s' b st := by
  obtain ⟨_, _, hr, _⟩ := hf.claimed hc.claims
  rw [Retagged, hr]
  exact h

theorem StatsWritten.frame (h : StatsWritten base s b st) (hc : Claimed base s b st) (hf : Frame b.ownerXid s s') :
    StatsWritten base s' b st := by
  obtain ⟨_, ht, _, _⟩ := hf.claimed hc.claims
  intro t
  rw [ht, hf.history]
  exact h t

theorem PhaseInv.frame {p : Phase} (h : PhaseInv base s b p) (hf : Frame b.ownerXid s s') : PhaseInv base s' b p := by
  cases p with
  | prepareRead => exact ⟨h.1.frame hf, h.2⟩
  | prepareDerive st => exact ⟨h.1.frame hf, h.2⟩
  | prepared st => exact ⟨h.1.frame hf, h.2⟩
  | prewriting => exact OnlyRows.frame h hf
  | returned => exact ⟨h.1.frame hf, h.2⟩
  | publishRead attempt valid => exact ⟨h.1.frame hf, h.2⟩
  | publishDerive attempt valid st =>
    refine ⟨h.1.frame hf, h.2.1, h.2.2.frame hf fun hp => ?_⟩
    rw [hf.history]
    exact hp
  | publishCheck attempt valid st => exact ⟨h.1.frame hf, h.2.1, h.2.2.frame hf fun hp => hp.frame hf.history⟩
  | claim attempt valid st => exact ⟨h.1.frame hf, h.2.1, h.2.2.frame hf fun hp => hp.frame hf.history⟩
  | retag valid st => exact ⟨h.1.frame hf, h.2.1.frame hf.rows hf.places, hf.tableStats h.2.2⟩
  | tableStats valid st => exact ⟨h.1.frame hf, h.2.1.frame h.1 hf, hf.tableStats h.2.2⟩
  | changeRecord valid st => exact ⟨h.1.frame hf, h.2.1.frame h.1 hf, h.2.2.frame h.1 hf⟩
  | markPublished valid st => exact ⟨h.1.frame hf, h.2.1.frame h.1 hf, h.2.2.frame h.1 hf⟩
  | published valid st => exact ⟨h.1.frame hf, h.2.1.frame h.1 hf, h.2.2.frame h.1 hf⟩
  | failed e => exact trivial
  | ended c => exact trivial

theorem ReadAt.advance {P Q : Prop} (h : ReadAt base s st P) (hl : latest base s < latest base s') :
    ReadAt base s' st Q := by
  refine ⟨h.first, Nat.le_of_lt (Nat.lt_of_le_of_lt h.le_latest hl), fun he => ?_⟩
  have := h.le_latest
  omega

theorem PhaseInv.advance {p : Phase} (h : PhaseInv base s b p) (ho : OnlyRows s b → OnlyRows s' b)
    (hl : latest base s < latest base s') (hn : ¬∃ v ∈ s.catalog.snapshot, v.xmin = b.ownerXid) :
    PhaseInv base s' b p := by
  cases p with
  | prepareRead => exact ⟨ho h.1, h.2⟩
  | prepareDerive st => exact ⟨ho h.1, h.2⟩
  | prepared st => exact ⟨ho h.1, h.2⟩
  | prewriting => exact ho h
  | returned => exact ⟨ho h.1, h.2⟩
  | publishRead attempt valid => exact ⟨ho h.1, h.2⟩
  | publishDerive attempt valid st => exact ⟨ho h.1, h.2.1, h.2.2.advance hl⟩
  | publishCheck attempt valid st => exact ⟨ho h.1, h.2.1, h.2.2.advance hl⟩
  | claim attempt valid st => exact ⟨ho h.1, h.2.1, h.2.2.advance hl⟩
  | retag valid st => exact absurd h.1.claims hn
  | tableStats valid st => exact absurd h.1.claims hn
  | changeRecord valid st => exact absurd h.1.claims hn
  | markPublished valid st => exact absurd h.1.claims hn
  | published valid st => exact absurd h.1.claims hn
  | failed e => exact trivial
  | ended c => exact trivial

theorem NativeInv.keep {e : Publication} {x : Nat} (h : NativeInv s e) (hex : e.xid ≠ x)
    (hrows : OwnRows x s.catalog.inlined s'.catalog.inlined)
    (hsnap : ∀ v ∈ s.catalog.snapshot, v ∈ s'.catalog.snapshot) (hst : s'.status e.xid = .committed) :
    NativeInv s' e := by
  obtain ⟨v, hv, hvx⟩ := h.snapshot
  refine ⟨hst, ⟨v, hsnap v hv, hvx⟩, ?_, hrows.ownEnds h.ends⟩
  rw [viewOf_congr_heap _ (hrows.filter hex), ← h.rows]
  refine viewOf_congr_sees h.ends ?_ ?_
  · simp [Store.isCommitted, committedIn, hst]
  · simp [Store.isCommitted, committedIn, h.committed]

theorem PhaseInv.of_ended {p : Phase} (h : p.isEnded = true) : PhaseInv base s b p := by
  cases p <;> first | exact trivial | cases h

end Frame

end PgDucklake.Writer
