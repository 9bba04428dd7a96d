import PgDucklake.Scan.Sharing

/-!
# The lock of a shared table reader

A thread holds the process lock while it fetches a batch and while it converts a column of JSONB, LIST or BIT values, and in
a scan without workers over all batches of a call. At any moment of any interleaving the holder is the one thread that is in such a place (`locked_run`). So no two threads are in
the reader at once, and a thread that has to wait does so for one that can go on (`reader_exclusive`).
-/

namespace PgDucklake.Scan

open Lib

variable {R : Type} {cfg : Config R}

/-- The code holds the lock there. -/
def LocalState.holds (cfg : Config R) (l : LocalState) : Bool :=
  match l.pc with
  | .fetch _ _ => true
  | .convert _ _ _ locked => locked || cfg.route == .inProcess
  | _ => false

section Turns

variable {g g' : Shared R} {l l' : LocalState} {thread : Nat} (hl : l.holds cfg = true ↔ g.lock = some thread)
include hl

theorem turn_lock (h : turn cfg thread g l = some (g', l')) :
    (l'.holds cfg = true ↔ g'.lock = some thread) ∧
      ∀ other, other ≠ thread → (g'.lock = some other ↔ g.lock = some other) := by
  cases hpc : l.pc with
  | idle => grind [turn, LocalState.holds, setOutputCardinality]
  | batch index => grind [turn, LocalState.holds]
  | fetch index got =>
    cases hroute : cfg.route with
    | parallel => grind [turn, LocalState.holds, fetchWorkerTuple]
    | inProcess => grind [turn, LocalState.holds, fetchInProcessTuple]
    | countOnly => grind [turn, LocalState.holds, fetchCount]
  | convert index got column locked =>
    rw [LocalState.holds, hpc] at hl
    simp only [turn, hpc] at h
    cases locked with
    | true => grind [LocalState.holds, insertTuplesIntoChunk]
    | false =>
      have hend : some (convertTuples cfg g l index got) = some (g', l') → (l'.holds cfg = true ↔ g'.lock = some thread) ∧
          ∀ other, other ≠ thread → (g'.lock = some other ↔ g.lock = some other) := by
        cases hroute : cfg.route <;> grind [LocalState.holds, convertTuples]
      grind [LocalState.holds, insertTuplesIntoChunk]
  | unregister => grind [turn, LocalState.holds, Shared.unregisterLocalState]
  | emit => grind [turn, LocalState.holds, setOutputCardinality]

theorem turn_ready (h : g.lock = none ∨ g.lock = some thread) : turn cfg thread g l ≠ none := by
  cases hpc : l.pc <;> grind [turn, LocalState.holds, insertTuplesIntoChunk]

end Turns

/-- The holder of the lock is the thread that is where the code holds it. -/
structure Locked (cfg : Config R) (s : ScanState R) : Prop where
  holder : ∀ i l, s.locals[i]? = some l → (l.holds cfg = true ↔ s.shared.lock = some i)
  inside : ∀ i, s.shared.lock = some i → i < s.locals.length

section Runs

variable {s t : ScanState R}

theorem Locked.act (hs : Locked cfg s) {thread : Nat} {l l' : LocalState} {g' : Shared R}
    (hthread : s.locals[thread]? = some l) (h : turn cfg thread s.shared l = some (g', l')) :
    Locked cfg ⟨g', s.locals.set thread l'⟩ := by
  obtain ⟨hown, hothers⟩ := turn_lock (hs.holder thread l hthread) h
  have hlt : thread < s.locals.length := (List.getElem?_eq_some_iff.mp hthread).1
  refine ⟨fun i k hk => ?_, fun i hi => ?_⟩
  · by_cases hi : i = thread
    · subst hi
      rw [List.getElem?_set_self hlt] at hk
      cases hk
      exact hown
    · rw [List.getElem?_set_ne (Ne.symm hi)] at hk
      exact (hs.holder i k hk).trans (hothers i hi).symm
  · rw [List.length_set]
    by_cases heq : i = thread
    · exact heq ▸ hlt
    · exact hs.inside i ((hothers i heq).mp hi)

theorem Locked.create (hs : Locked cfg s) (hfree : s.shared.lock = none) :
    Locked cfg ⟨s.shared.createLocalState.1, s.locals ++ [s.shared.createLocalState.2]⟩ := by
  have hlock : s.shared.createLocalState.1.lock = none ∧ s.shared.createLocalState.2.holds cfg = false := by
    unfold Shared.createLocalState
    split_ifs <;> exact ⟨hfree, rfl⟩
  refine ⟨fun i l hi => ?_, fun i hi => ?_⟩
  · rw [hlock.1]
    rcases List.mem_append.mp (List.mem_of_getElem? hi) with hl | hl
    · obtain ⟨j, hj⟩ := List.getElem?_of_mem hl
      rw [hs.holder j l hj, hfree]
      simp
    · rw [List.mem_singleton.mp hl, hlock.2]
      simp
  · rw [hlock.1] at hi
    cases hi

theorem Locked.step (hs : Locked cfg s) (h : ScanState.Step cfg s t) : Locked cfg t := by
  obtain ⟨a, ha⟩ := h
  cases a with
  | worker e =>
    simp only [ScanState.after, Option.ite_none_left_eq_some, Option.map_eq_some_iff] at ha
    obtain ⟨-, reader, -, rfl⟩ := ha
    exact ⟨hs.holder, hs.inside⟩
  | create =>
    simp only [ScanState.after, Option.ite_none_right_eq_some, Option.some.injEq] at ha
    obtain ⟨⟨hfree, -⟩, rfl⟩ := ha
    exact hs.create hfree
  | act thread =>
    simp only [ScanState.after] at ha
    split at ha
    · cases ha
    · rename_i l hthread
      obtain ⟨⟨g', l'⟩, hturn, rfl⟩ := Option.map_eq_some_iff.1 ha
      exact hs.act hthread hturn

theorem locked_run (h : Relation.ReflTransGen (ScanState.Step cfg) (.start cfg) s) : Locked cfg s :=
  run_invariant (fun _ _ hs hstep => hs.step hstep) h ⟨fun _ _ hi => by simp [ScanState.start] at hi, fun _ hi => by simp [ScanState.start] at hi⟩

theorem Locked.ready (hs : Locked cfg s) {i : Nat} {l : LocalState} (hi : s.locals[i]? = some l)
    (hlock : s.shared.lock = none ∨ s.shared.lock = some i) : ∃ t, s.after cfg (.act i) = some t := by
  obtain ⟨p, hp⟩ := Option.ne_none_iff_exists'.mp (turn_ready (hs.holder i l hi) hlock)
  exact ⟨_, by simp only [ScanState.after, hi, hp, Option.map_some]; rfl⟩

end Runs

end PgDucklake.Scan
