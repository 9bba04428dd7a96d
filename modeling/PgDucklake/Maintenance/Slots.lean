import PgDucklake.Lib.FirstMatch
import PgDucklake.Lib.Runs

/-!
# Maintenance slots

The shared memory of `maintenance_worker.cpp`, the launcher that claims a slot for a database and registers a worker for
it, and the workers that give the slot back at their end. A worker may end before it does so: nothing but the last lines
of `ducklake_maintenance_worker_main` releases the slot.
-/

namespace PgDucklake.Maintenance

open Lib Relation

/-- `MaintenanceWorkerSlot`. -/
structure MaintenanceWorkerSlot where
  databaseOid : Nat
  workerPid : Nat
  inUse : Bool
  deriving DecidableEq, Repr

/-- `DUCKLAKE_MAX_MAINTENANCE_WORKERS`. -/
def maxMaintenanceWorkers : Nat := 8

def MaintenanceWorkerSlot.isOf (db : Nat) (slot : MaintenanceWorkerSlot) : Bool := slot.inUse && slot.databaseOid == db

def hasWorkerForDatabase (workers : List MaintenanceWorkerSlot) (db : Nat) : Bool := workers.any (·.isOf db)

def countActiveWorkers (workers : List MaintenanceWorkerSlot) : Nat := workers.countP (·.inUse)

/-- The first free slot, if there is one. -/
def claimSlot (workers : List MaintenanceWorkerSlot) (db pid : Nat) : Option (List MaintenanceWorkerSlot) :=
  if workers.any (!·.inUse) then some (modifyFirst (!·.inUse) (fun _ => ⟨db, pid, true⟩) workers) else none

def releaseSlot (workers : List MaintenanceWorkerSlot) (db : Nat) : List MaintenanceWorkerSlot :=
  modifyFirst (·.isOf db) (fun slot => { slot with inUse := false }) workers

/-- The worker fills in its process id. -/
def setWorkerPid (workers : List MaintenanceWorkerSlot) (db pid : Nat) : List MaintenanceWorkerSlot :=
  modifyFirst (·.isOf db) (fun slot => { slot with workerPid := pid }) workers

/-- The launcher's critical section for one database: the slots after a claim. -/
def preClaim (maxWorkers : Nat) (workers : List MaintenanceWorkerSlot) (db : Nat) :
    Option (List MaintenanceWorkerSlot) :=
  if !hasWorkerForDatabase workers db && decide (countActiveWorkers workers < maxWorkers) then claimSlot workers db 0
  else none

/-! ## Processes -/

/-- Where the launcher is: asleep, before the next database of its list, before the registration of a worker for a
database that it has claimed a slot for, or before the release of that slot. -/
inductive Launcher
  | idle
  | scanning (dbs : List Nat)
  | registering (db : Nat) (rest : List Nat)
  | unregistering (db : Nat) (rest : List Nat)
  deriving DecidableEq, Repr

/-- How far a worker is. It is `connected` after `BackgroundWorkerInitializeConnectionByOid` and `working` once its
process id is in the slot; `released` is after the last critical section, and `died` is an end before it. -/
inductive Status
  | registered
  | connected
  | working
  | released
  | ended
  | died
  deriving DecidableEq, Repr

structure Worker where
  database : Nat
  status : Status
  deriving DecidableEq, Repr

structure State where
  slots : List MaintenanceWorkerSlot
  launcher : Launcher
  /-- All workers ever registered. -/
  workers : List Worker
  deriving DecidableEq, Repr

/-- After `ShmemStartup`. -/
def State.start : State := ⟨List.replicate maxMaintenanceWorkers ⟨0, 0, false⟩, .idle, []⟩

/-- A worker that has a slot to give back. -/
def Status.live : Status → Bool
  | .registered => true
  | .connected => true
  | .working => true
  | _ => false

inductive Step (maxWorkers : Nat) : State → State → Prop
  /-- The launcher wakes up and reads the databases. -/
  | wake {s : State} (dbs : List Nat) (h : s.launcher = .idle) : Step maxWorkers s { s with launcher := .scanning dbs }
  | sleep {s : State} (h : s.launcher = .scanning []) : Step maxWorkers s { s with launcher := .idle }
  /-- The launcher ends with an error or on SIGTERM and is started again. -/
  | restart {s : State} {dbs : List Nat} (h : s.launcher = .scanning dbs) :
      Step maxWorkers s { s with launcher := .idle }
  | skip {s : State} {db : Nat} {rest : List Nat} (h : s.launcher = .scanning (db :: rest))
      (hclaim : preClaim maxWorkers s.slots db = none) : Step maxWorkers s { s with launcher := .scanning rest }
  | claim {s : State} {db : Nat} {rest : List Nat} {slots : List MaintenanceWorkerSlot}
      (h : s.launcher = .scanning (db :: rest)) (hclaim : preClaim maxWorkers s.slots db = some slots) :
      Step maxWorkers s { s with slots := slots, launcher := .registering db rest }
  /-- `RegisterDynamicBackgroundWorker` succeeds. -/
  | register {s : State} {db : Nat} {rest : List Nat} (h : s.launcher = .registering db rest) :
      Step maxWorkers s { s with launcher := .scanning rest, workers := s.workers ++ [⟨db, .registered⟩] }
  | refuse {s : State} {db : Nat} {rest : List Nat} (h : s.launcher = .registering db rest) :
      Step maxWorkers s { s with launcher := .unregistering db rest }
  | unregister {s : State} {db : Nat} {rest : List Nat} (h : s.launcher = .unregistering db rest) :
      Step maxWorkers s { s with slots := releaseSlot s.slots db, launcher := .scanning rest }
  | connect {s : State} {a b : List Worker} {db : Nat} (h : s.workers = a ++ ⟨db, .registered⟩ :: b) :
      Step maxWorkers s { s with workers := a ++ ⟨db, .connected⟩ :: b }
  | setPid {s : State} {a b : List Worker} {db : Nat} (pid : Nat) (h : s.workers = a ++ ⟨db, .connected⟩ :: b) :
      Step maxWorkers s { s with slots := setWorkerPid s.slots db pid, workers := a ++ ⟨db, .working⟩ :: b }
  | release {s : State} {a b : List Worker} {db : Nat} (h : s.workers = a ++ ⟨db, .working⟩ :: b) :
      Step maxWorkers s { s with slots := releaseSlot s.slots db, workers := a ++ ⟨db, .released⟩ :: b }
  | finish {s : State} {a b : List Worker} {db : Nat} (h : s.workers = a ++ ⟨db, .released⟩ :: b) :
      Step maxWorkers s { s with workers := a ++ ⟨db, .ended⟩ :: b }
  /-- ERROR, FATAL or SIGTERM before the slot is released, or a process that cannot be started. -/
  | die {s : State} {a b : List Worker} {db : Nat} {status : Status} (h : s.workers = a ++ ⟨db, status⟩ :: b)
      (hlive : status.live = true) : Step maxWorkers s { s with workers := a ++ ⟨db, .died⟩ :: b }

/-! ## What the slot operations count -/

section Counts

variable {slots slots' : List MaintenanceWorkerSlot} {db : Nat}

theorem hasWorkerForDatabase_iff : hasWorkerForDatabase slots db = true ↔ 0 < slots.countP (·.isOf db) := by
  simp [hasWorkerForDatabase, List.countP_pos_iff]

theorem countP_releaseSlot (h : 0 < slots.countP (·.isOf db)) (d : Nat) :
    (releaseSlot slots db).countP (·.isOf d) + (if d = db then 1 else 0) = slots.countP (·.isOf d) := by
  obtain ⟨slot, -, hslot, hcount⟩ := countP_modifyFirst (q := (·.isOf d))
    (f := fun slot : MaintenanceWorkerSlot => { slot with inUse := false }) (hasWorkerForDatabase_iff.mpr h)
  simp only [MaintenanceWorkerSlot.isOf, Bool.and_eq_true, beq_iff_eq, Bool.false_and, Bool.false_eq_true,
    if_false] at hslot hcount
  have hiff : (slot.inUse = true ∧ slot.databaseOid = d) ↔ d = db := by
    rw [hslot.1, hslot.2]
    simp [eq_comm]
  simpa only [releaseSlot, MaintenanceWorkerSlot.isOf, hiff, Nat.add_zero] using hcount

theorem countActive_releaseSlot (h : 0 < slots.countP (·.isOf db)) :
    countActiveWorkers (releaseSlot slots db) ≤ countActiveWorkers slots := by
  obtain ⟨slot, -, -, hcount⟩ := countP_modifyFirst (q := (·.inUse))
    (f := fun slot : MaintenanceWorkerSlot => { slot with inUse := false }) (hasWorkerForDatabase_iff.mpr h)
  simp only [Bool.false_eq_true, if_false] at hcount
  simp only [countActiveWorkers, releaseSlot]
  omega

theorem countP_setWorkerPid (h : 0 < slots.countP (·.isOf db)) (pid d : Nat) :
    (setWorkerPid slots db pid).countP (·.isOf d) = slots.countP (·.isOf d) := by
  obtain ⟨slot, -, -, hcount⟩ := countP_modifyFirst (q := (·.isOf d))
    (f := fun slot : MaintenanceWorkerSlot => { slot with workerPid := pid }) (hasWorkerForDatabase_iff.mpr h)
  exact Nat.add_right_cancel hcount

theorem countActive_setWorkerPid (h : 0 < slots.countP (·.isOf db)) (pid : Nat) :
    countActiveWorkers (setWorkerPid slots db pid) = countActiveWorkers slots := by
  obtain ⟨slot, -, -, hcount⟩ := countP_modifyFirst (q := (·.inUse))
    (f := fun slot : MaintenanceWorkerSlot => { slot with workerPid := pid }) (hasWorkerForDatabase_iff.mpr h)
  exact Nat.add_right_cancel hcount

theorem preClaim_some {maxWorkers : Nat} (h : preClaim maxWorkers slots db = some slots') :
    slots.countP (·.isOf db) = 0 ∧
      (∀ d, slots'.countP (·.isOf d) = slots.countP (·.isOf d) + if d = db then 1 else 0) ∧
      countActiveWorkers slots' = countActiveWorkers slots + 1 ∧ countActiveWorkers slots < maxWorkers := by
  simp only [preClaim, claimSlot, Option.ite_none_right_eq_some, Option.some.injEq, Bool.and_eq_true,
    Bool.not_eq_true', decide_eq_true_eq] at h
  obtain ⟨⟨hnone, hlt⟩, hfree, rfl⟩ := h
  have hzero : slots.countP (·.isOf db) = 0 := by
    by_contra hne
    rw [hasWorkerForDatabase_iff.mpr (Nat.pos_of_ne_zero hne)] at hnone
    cases hnone
  refine ⟨hzero, fun d => ?_, ?_, hlt⟩
  · obtain ⟨slot, -, hslot, hcount⟩ := countP_modifyFirst (q := (·.isOf d))
      (f := fun _ : MaintenanceWorkerSlot => ⟨db, 0, true⟩) hfree
    simp only [Bool.not_eq_true'] at hslot
    simp only [MaintenanceWorkerSlot.isOf, hslot, Bool.false_and, Bool.false_eq_true, if_false, Bool.true_and,
      beq_iff_eq, Nat.add_zero] at hcount ⊢
    rw [hcount]
    by_cases hd : d = db
    · simp [hd]
    · simp [hd, Ne.symm hd]
  · obtain ⟨slot, -, hslot, hcount⟩ := countP_modifyFirst (q := (·.inUse))
      (f := fun _ : MaintenanceWorkerSlot => ⟨db, 0, true⟩) hfree
    simp only [Bool.not_eq_true'] at hslot
    simpa [countActiveWorkers, hslot] using hcount

end Counts

end PgDucklake.Maintenance
