import PgDucklake.Maintenance.Slots

/-!
# Who owns a maintenance slot

In every state the slots of a database are as many as those who are to give one back, which is one at most: the launcher
between claim and registration, a worker before its release, or a worker that died before it (`Inv`). Hence every slot in
use has a live owner exactly if no worker has died (`slots_owned`); `died_worker_keeps_slot` is the leak.
-/

namespace PgDucklake.Maintenance

open Lib Relation

/-- The launcher has a slot of the database to hand over or to give back. -/
def Launcher.holds (db : Nat) : Launcher → Bool
  | .registering d _ => d == db
  | .unregistering d _ => d == db
  | _ => false

/-- The worker has not given its slot back. -/
def Worker.holds (db : Nat) (w : Worker) : Bool := w.database == db && (w.status.live || w.status == .died)

/-- How many are to give back a slot of the database, or never will. -/
def State.holders (s : State) (db : Nat) : Nat :=
  (if s.launcher.holds db then 1 else 0) + s.workers.countP (·.holds db)

/-- Every slot in use is that of a worker that is registered and has not ended, or is about to become so or to be
released by the launcher. -/
def State.Owned (s : State) : Prop :=
  ∀ slot ∈ s.slots, slot.inUse = true → s.launcher.holds slot.databaseOid = true ∨
    ∃ w ∈ s.workers, w.database = slot.databaseOid ∧ w.status.live = true

/-- The launcher has just claimed a slot. -/
def Launcher.hasClaimed : Launcher → Bool
  | .registering _ _ => true
  | .unregistering _ _ => true
  | _ => false

structure Inv (maxWorkers : Nat) (s : State) : Prop where
  slots : ∀ db, s.slots.countP (·.isOf db) = s.holders db
  one : ∀ db, s.holders db ≤ 1
  bound : s.launcher.hasClaimed = true → countActiveWorkers s.slots ≤ maxWorkers
  capacity : s.slots.length = maxMaintenanceWorkers

/-! ## The invariant -/

section Steps

variable {maxWorkers : Nat} {s : State}

theorem Inv.same {t : State} (h : Inv maxWorkers s) (hslots : t.slots = s.slots)
    (hholders : ∀ db, t.holders db = s.holders db) (hclaimed : t.launcher.hasClaimed = true → s.launcher.hasClaimed = true) :
    Inv maxWorkers t :=
  ⟨fun db => by rw [hslots, hholders, h.slots], fun db => by rw [hholders]; exact h.one db,
    fun hc => by rw [hslots]; exact h.bound (hclaimed hc), by rw [hslots]; exact h.capacity⟩

theorem Inv.launcher {l : Launcher} (h : Inv maxWorkers s) (hholds : ∀ db, l.holds db = s.launcher.holds db)
    (hclaimed : l.hasClaimed = true → s.launcher.hasClaimed = true) : Inv maxWorkers { s with launcher := l } :=
  h.same rfl (fun db => by simp only [State.holders, hholds]) hclaimed

theorem holders_worker {a b : List Worker} {v w : Worker} (hworkers : s.workers = a ++ v :: b) (db : Nat) :
    State.holders { s with workers := a ++ w :: b } db + (if v.holds db then 1 else 0) =
      s.holders db + if w.holds db then 1 else 0 := by
  simp only [State.holders, hworkers, List.countP_append, List.countP_cons]
  omega

theorem Inv.worker {a b : List Worker} {v w : Worker} (h : Inv maxWorkers s) (hworkers : s.workers = a ++ v :: b)
    (hholds : ∀ db, w.holds db = v.holds db) : Inv maxWorkers { s with workers := a ++ w :: b } := by
  refine h.same rfl (fun db => ?_) id
  have hcount := holders_worker (w := w) hworkers db
  rw [hholds] at hcount
  omega

theorem Inv.released {t : State} {db : Nat} (h : Inv maxWorkers s) (hslots : t.slots = releaseSlot s.slots db)
    (hholders : ∀ d, t.holders d + (if d = db then 1 else 0) = s.holders d)
    (hclaimed : t.launcher.hasClaimed = true → s.launcher.hasClaimed = true) : Inv maxWorkers t := by
  have hpos : 0 < s.slots.countP (·.isOf db) := by
    have := hholders db
    rw [h.slots, ← this]
    simp
  refine ⟨fun d => ?_, fun d => ?_, fun hc => ?_, ?_⟩
  · have hcount := countP_releaseSlot hpos d
    have := hholders d
    have := h.slots d
    rw [hslots]
    omega
  · have := hholders d
    have := h.one d
    omega
  · rw [hslots]
    exact Nat.le_trans (countActive_releaseSlot hpos) (h.bound (hclaimed hc))
  · rw [hslots, releaseSlot, length_modifyFirst, h.capacity]

theorem Inv.claim {db : Nat} {rest : List Nat} {slots : List MaintenanceWorkerSlot} (h : Inv maxWorkers s)
    (hl : s.launcher = .scanning (db :: rest)) (hclaim : preClaim maxWorkers s.slots db = some slots) :
    Inv maxWorkers { s with slots := slots, launcher := .registering db rest } := by
  obtain ⟨hzero, hcount, hactive, hlt⟩ := preClaim_some hclaim
  have hholders : ∀ d, State.holders { s with slots := slots, launcher := .registering db rest } d =
      s.holders d + if d = db then 1 else 0 := by
    intro d
    by_cases hd : d = db
    · simp only [State.holders, hl, Launcher.holds, hd, beq_self_eq_true, if_true, Bool.false_eq_true, if_false]
      omega
    · have hne : (db == d) = false := by simpa using Ne.symm hd
      simp only [State.holders, hl, Launcher.holds, hne, Bool.false_eq_true, if_false, hd]
      omega
  have hfree : s.holders db = 0 := by rw [← h.slots, hzero]
  refine ⟨fun d => ?_, fun d => ?_, fun _ => ?_, ?_⟩
  · rw [hholders, hcount, h.slots]
  · rw [hholders]
    have hone := h.one d
    split
    · rename_i hd
      exact Nat.le_of_eq (by rw [hd, hfree])
    · exact hone
  · exact Nat.le_trans (Nat.le_of_eq hactive) hlt
  · have hlen : slots.length = s.slots.length := by
      simp only [preClaim, claimSlot, Option.ite_none_right_eq_some, Option.some.injEq] at hclaim
      rw [← hclaim.2.2, length_modifyFirst]
    exact hlen.trans h.capacity

theorem Inv.step {t : State} (h : Inv maxWorkers s) (hstep : Step maxWorkers s t) : Inv maxWorkers t := by
  cases hstep with
  | wake dbs hl => exact h.launcher (fun db => by rw [hl]; rfl) (fun hc => by cases hc)
  | sleep hl => exact h.launcher (fun db => by rw [hl]; rfl) (fun hc => by cases hc)
  | restart hl => exact h.launcher (fun db => by rw [hl]; rfl) (fun hc => by cases hc)
  | skip hl _ => exact h.launcher (fun db => by rw [hl]; rfl) (fun hc => by cases hc)
  | claim hl hclaim => exact h.claim hl hclaim
  | register hl =>
    rename_i db rest
    refine h.same rfl (fun d => ?_) (fun hc => by cases hc)
    simp only [State.holders, hl, Launcher.holds, List.countP_append, List.countP_singleton, Worker.holds, Status.live,
      Bool.true_or, Bool.and_true, Bool.false_eq_true, if_false]
    omega
  | refuse hl => exact h.launcher (fun db => by rw [hl]; rfl) (fun _ => by rw [hl]; rfl)
  | unregister hl =>
    rename_i db rest
    refine h.released rfl (fun d => ?_) (fun hc => by cases hc)
    by_cases hd : d = db
    · simp only [State.holders, hl, Launcher.holds, hd, beq_self_eq_true, if_true, Bool.false_eq_true, if_false]
      omega
    · have hne : (db == d) = false := by simpa using Ne.symm hd
      simp only [State.holders, hl, Launcher.holds, hne, Bool.false_eq_true, if_false, hd]
      omega
  | connect hw => exact h.worker hw fun db => rfl
  | setPid pid hw =>
    rename_i a b db
    have hpos : 0 < s.slots.countP (·.isOf db) := by
      have hcount := holders_worker (w := ⟨db, .ended⟩) hw db
      simp [Worker.holds, Status.live] at hcount
      rw [h.slots]
      omega
    have hmoved : Inv maxWorkers { s with workers := a ++ ⟨db, .working⟩ :: b } := h.worker hw fun db => rfl
    refine ⟨fun d => ?_, hmoved.one, fun hc => ?_, ?_⟩
    · exact (countP_setWorkerPid hpos pid d).trans (hmoved.slots d)
    · exact Nat.le_trans (Nat.le_of_eq (countActive_setWorkerPid hpos pid)) (h.bound hc)
    · exact (length_modifyFirst _ _ _).trans h.capacity
  | release hw =>
    rename_i a b db
    refine h.released rfl (fun d => ?_) id
    have hcount := holders_worker (w := ⟨db, .released⟩) hw d
    have hworking : Worker.holds d ⟨db, .working⟩ = decide (d = db) := by
      simp [Worker.holds, Status.live, beq_eq_decide, eq_comm]
    have hreleased : Worker.holds d ⟨db, .released⟩ = false := by simp [Worker.holds, Status.live]
    simp only [hworking, hreleased, decide_eq_true_eq, Bool.false_eq_true, if_false] at hcount
    exact hcount
  | finish hw => exact h.worker hw fun db => rfl
  | die hw hlive =>
    have hdied : Status.live .died = false := rfl
    exact h.worker hw fun db => by simp [Worker.holds, hlive, hdied]

theorem inv_start (maxWorkers : Nat) : Inv maxWorkers .start where
  slots db := by simp [State.start, State.holders, Launcher.holds, MaintenanceWorkerSlot.isOf, maxMaintenanceWorkers]
  one db := by simp [State.start, State.holders, Launcher.holds]
  bound hc := by cases hc
  capacity := rfl

theorem inv_run (hrun : ReflTransGen (Step maxWorkers) .start s) : Inv maxWorkers s :=
  run_invariant (fun _ _ hinv hstep => hinv.step hstep) hrun (inv_start maxWorkers)

end Steps

/-! ## Ownership -/

section Owners

variable {maxWorkers : Nat} {s : State}

theorem holders_pos {db : Nat} (h : 0 < s.holders db) :
    s.launcher.holds db = true ∨ ∃ w ∈ s.workers, w.database = db ∧ (w.status.live = true ∨ w.status = .died) := by
  by_cases hl : s.launcher.holds db = true
  · exact .inl hl
  · right
    simp only [State.holders, hl, Bool.false_eq_true, if_false, Nat.zero_add, List.countP_pos_iff] at h
    obtain ⟨w, hw, hholds⟩ := h
    simp only [Worker.holds, Bool.and_eq_true, beq_iff_eq, Bool.or_eq_true] at hholds
    exact ⟨w, hw, hholds⟩

theorem Inv.died_alone {w : Worker} (h : Inv maxWorkers s) (hw : w ∈ s.workers) (hdied : w.status = .died) :
    s.slots.countP (·.isOf w.database) = 1 ∧ s.launcher.holds w.database = false ∧
      ∀ v ∈ s.workers, v.database = w.database → v.status.live = false := by
  obtain ⟨a, b, hworkers⟩ := List.append_of_mem hw
  have hone := h.one w.database
  have hself : w.holds w.database = true := by simp [Worker.holds, hdied]
  have hcount : s.holders w.database = (if s.launcher.holds w.database then 1 else 0) +
      (a.countP (·.holds w.database) + (b.countP (·.holds w.database) + 1)) := by
    simp only [State.holders, hworkers, List.countP_append, List.countP_cons, hself, if_true]
  have hl : s.launcher.holds w.database = false := by
    by_contra hne
    simp only [Bool.not_eq_false] at hne
    rw [hne] at hcount
    simp only [if_true] at hcount
    omega
  have ha : a.countP (·.holds w.database) = 0 := by omega
  have hb : b.countP (·.holds w.database) = 0 := by omega
  refine ⟨?_, hl, fun v hv hdb => ?_⟩
  · rw [h.slots, hcount, hl, ha, hb]
    rfl
  · by_contra hlive
    simp only [Bool.not_eq_false] at hlive
    have hholds : v.holds w.database = true := by simp [Worker.holds, hdb, hlive]
    rw [hworkers] at hv
    rcases List.mem_append.mp hv with hv | hv
    · exact List.countP_eq_zero.mp ha v hv hholds
    · rcases List.mem_cons.mp hv with rfl | hv
      · rw [hdied] at hlive
        cases hlive
      · exact List.countP_eq_zero.mp hb v hv hholds

theorem Inv.owned_iff (h : Inv maxWorkers s) : s.Owned ↔ ∀ w ∈ s.workers, w.status ≠ .died := by
  constructor
  · intro howned w hw hdied
    obtain ⟨hone, hl, hlive⟩ := h.died_alone hw hdied
    have hpos : 0 < s.slots.countP (·.isOf w.database) := by omega
    obtain ⟨slot, hslot, hof⟩ := List.countP_pos_iff.mp hpos
    simp only [MaintenanceWorkerSlot.isOf, Bool.and_eq_true, beq_iff_eq] at hof
    rcases howned slot hslot hof.1 with hlauncher | ⟨v, hv, hdb, hvlive⟩
    · rw [hof.2, hl] at hlauncher
      cases hlauncher
    · rw [hlive v hv (hdb.trans hof.2)] at hvlive
      cases hvlive
  · intro hnone slot hslot huse
    have hpos : 0 < s.holders slot.databaseOid := by
      rw [← h.slots, List.countP_pos_iff]
      exact ⟨slot, hslot, by simp [MaintenanceWorkerSlot.isOf, huse]⟩
    rcases holders_pos hpos with hl | ⟨w, hw, hdb, hlive | hdied⟩
    · exact .inl hl
    · exact .inr ⟨w, hw, hdb, hlive⟩
    · exact absurd hdied (hnone w hw)

theorem Inv.served_iff {db : Nat} {rest : List Nat} (h : Inv maxWorkers s) (hmax : maxWorkers ≤ maxMaintenanceWorkers)
    (hl : s.launcher = .scanning (db :: rest)) (hlive : ∀ w ∈ s.workers, w.database = db → w.status.live = false)
    (hlt : countActiveWorkers s.slots < maxWorkers) :
    (∃ slots, preClaim maxWorkers s.slots db = some slots) ↔ ∀ w ∈ s.workers, w.database = db → w.status ≠ .died := by
  constructor
  · rintro ⟨slots, hclaim⟩ w hw rfl hdied
    have hzero := (preClaim_some hclaim).1
    have hone := (h.died_alone hw hdied).1
    omega
  · intro hnone
    have hfree : s.slots.any (!·.inUse) = true := by
      have hlt' : countActiveWorkers s.slots < s.slots.length := by
        rw [h.capacity]
        omega
      by_contra hfull
      have hall : ∀ slot ∈ s.slots, slot.inUse = true := by simpa using hfull
      rw [countActiveWorkers, List.countP_eq_length.mpr hall] at hlt'
      exact Nat.lt_irrefl _ hlt'
    have hno : hasWorkerForDatabase s.slots db = false := by
      by_contra hhas
      simp only [Bool.not_eq_false] at hhas
      rw [hasWorkerForDatabase_iff, h.slots] at hhas
      rcases holders_pos hhas with hholds | ⟨w, hw, hdb, hwlive | hdied⟩
      · rw [hl] at hholds
        cases hholds
      · rw [hlive w hw hdb] at hwlive
        cases hwlive
      · exact hnone w hw hdb hdied
    refine ⟨modifyFirst (!·.inUse) (fun _ => ⟨db, 0, true⟩) s.slots, ?_⟩
    simp only [preClaim, hno, hlt, Bool.not_false, Bool.true_and, decide_true, if_true, claimSlot, hfree]

end Owners

/-- In every interleaving: a database has one slot in use at most; right after a claim at most `maxWorkers` slots are in
use; every slot in use has a live owner exactly if no worker died before it gave its slot back; and a database without a
live worker gets a slot again, when its turn comes and the number of workers allows it, exactly if none of its own
workers died so. -/
theorem slots_owned {maxWorkers : Nat} {s : State} (hmax : maxWorkers ≤ maxMaintenanceWorkers)
    (hrun : ReflTransGen (Step maxWorkers) .start s) :
    (∀ db, s.slots.countP (·.isOf db) ≤ 1) ∧
      (s.launcher.hasClaimed = true → countActiveWorkers s.slots ≤ maxWorkers) ∧
      (s.Owned ↔ ∀ w ∈ s.workers, w.status ≠ .died) ∧
      ∀ db rest, s.launcher = .scanning (db :: rest) →
        (∀ w ∈ s.workers, w.database = db → w.status.live = false) → countActiveWorkers s.slots < maxWorkers →
        ((∃ slots, preClaim maxWorkers s.slots db = some slots) ↔
          ∀ w ∈ s.workers, w.database = db → w.status ≠ .died) := by
  have hinv := inv_run hrun
  refine ⟨fun db => ?_, hinv.bound, hinv.owned_iff, fun db rest hl hlive hlt => hinv.served_iff hmax hl hlive hlt⟩
  rw [hinv.slots]
  exact hinv.one db

theorem run_registered : ReflTransGen (Step 3) .start
    ⟨⟨1, 0, true⟩ :: List.replicate 7 ⟨0, 0, false⟩, .scanning [], [⟨1, .registered⟩]⟩ :=
  ((ReflTransGen.single (.wake [1] rfl)).tail (.claim rfl rfl)).tail (.register rfl)

theorem slots_owned_registered :
    State.Owned ⟨⟨1, 0, true⟩ :: List.replicate 7 ⟨0, 0, false⟩, .scanning [], [⟨1, .registered⟩]⟩ :=
  (slots_owned (by decide) run_registered).2.2.1.mpr (by decide)

/-- The worker ends in `BackgroundWorkerInitializeConnectionByOid`: its slot stays in use and the launcher, woken again,
passes the database over. -/
theorem died_worker_keeps_slot :
    ∃ s, ReflTransGen (Step 3) .start s ∧ s.workers = [⟨1, .died⟩] ∧ s.launcher = .scanning [1] ∧
      hasWorkerForDatabase s.slots 1 = true ∧ preClaim 3 s.slots 1 = none ∧ ¬s.Owned := by
  have hdie := run_registered.tail (.die (a := []) (b := []) rfl rfl)
  have hrun := (hdie.tail (.sleep rfl)).tail (.wake [1] rfl)
  refine ⟨_, hrun, rfl, rfl, rfl, rfl, fun howned => ?_⟩
  rcases howned ⟨1, 0, true⟩ (List.mem_cons_self ..) rfl with hl | ⟨w, hw, -, hlive⟩
  · cases hl
  · obtain rfl := List.mem_singleton.mp hw
    cases hlive

end PgDucklake.Maintenance
