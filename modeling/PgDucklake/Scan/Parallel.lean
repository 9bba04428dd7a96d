import PgDucklake.Scan.Reader

/-!
# Scans by parallel workers

`PostgresTableReader` plans the scan query serially and then decides from the plan tree whether parallel workers run it:
it marks the top of the tree parallel-aware and lets every worker execute it. Here are that decision (`initUnsafe`), what
the executor makes of a marked tree (`Shares`) and what the reader delivers (`Mode.delivers`, `Mode.counts`).

The rows are those of the serial plan if no two participants run an index scan whose access method cannot share it, and
they come in the order of the serial plan if at most one worker runs a plan that is not an `Append`
(`parallel_scan_serial`). Two workers lose the order of an index scan, and repeat the rows of one that is not shared
(`parallel_scan_differs`).
-/

namespace PgDucklake.Scan

open Lib Relation

variable {R : Type}

/-! ## Plan trees -/

/-- The nodes that build a bitmap; what matters of an AND or OR is its first child. -/
inductive BitmapNode
  | bitmapIndexScan (isShared : Bool)
  | bitmapAnd (first : BitmapNode) (rest : List BitmapNode)
  | bitmapOr (isShared : Bool) (first : BitmapNode) (rest : List BitmapNode)
  | other

/-- A plan tree, with the rows that its leaves return in a serial execution. An aggregate is told by the rows it
counts. Sorts, limits, merges and all other nodes are `other`. -/
inductive PlanNode (R : Type)
  | seqScan (parallelAware : Bool) (rows : List R)
  | indexScan (parallelAware amCanParallel : Bool) (rows : List R)
  | indexOnlyScan (parallelAware amCanParallel : Bool) (rows : List R)
  | bitmapHeapScan (parallelAware : Bool) (bitmap : BitmapNode) (rows : List R)
  | append (parallelAware : Bool) (plans : List (PlanNode R))
  | agg (child : PlanNode R)
  | other (rows : List R)

mutual

/-- The rows of a serial execution. -/
def PlanNode.rows : PlanNode R → List R
  | .seqScan _ rows => rows
  | .indexScan _ _ rows => rows
  | .indexOnlyScan _ _ rows => rows
  | .bitmapHeapScan _ _ rows => rows
  | .append _ plans => appendRows plans
  | .agg child => child.rows
  | .other rows => rows

def appendRows : List (PlanNode R) → List R
  | [] => []
  | plan :: plans => plan.rows ++ appendRows plans

end

theorem appendRows_eq (plans : List (PlanNode R)) : appendRows plans = plans.flatMap PlanNode.rows := by
  induction plans with
  | nil => rfl
  | cons plan plans ih => simp [appendRows, ih]

/-! ## The decision -/

mutual

def canTableScanRunInParallel : PlanNode R → Bool
  | .seqScan _ _ => true
  | .indexScan _ _ _ => true
  | .indexOnlyScan _ _ _ => true
  | .bitmapHeapScan _ _ _ => true
  | .append _ plans => allCanRunInParallel plans
  | .agg _ => true
  | .other _ => false

def allCanRunInParallel : List (PlanNode R) → Bool
  | [] => true
  | plan :: plans => canTableScanRunInParallel plan && allCanRunInParallel plans

end

/-- An unknown node is an exception. -/
def markBitmap : BitmapNode → Option BitmapNode
  | .bitmapIndexScan _ => some (.bitmapIndexScan true)
  | .bitmapAnd first rest => (markBitmap first).map (.bitmapAnd · rest)
  | .bitmapOr _ first rest => (markBitmap first).map (.bitmapOr true · rest)
  | .other => none

/-- Only the node itself is marked, not the plans under an `Append`. -/
def markPlanParallelAware : PlanNode R → Option (PlanNode R)
  | .seqScan _ rows => some (.seqScan true rows)
  | .indexScan _ am rows => some (.indexScan true am rows)
  | .indexOnlyScan _ am rows => some (.indexOnlyScan true am rows)
  | .append _ plans => some (.append true plans)
  | .bitmapHeapScan _ bitmap rows => (markBitmap bitmap).map (.bitmapHeapScan true · rows)
  | .agg _ => none
  | .other _ => none

/-- The settings that the reader looks at. -/
structure Settings where
  maxWorkersPerPostgresScan : Nat
  maxParallelWorkers : Nat

def parallelWorkerNumber (settings : Settings) (cardinality : Nat) : Nat :=
  if settings.maxWorkersPerPostgresScan = 0 then 0
  else if cardinality ≤ 2 ^ 16 then 1
  else min settings.maxWorkersPerPostgresScan settings.maxParallelWorkers

/-- How the scan query is executed: by the backend itself, or by up to `workers` parallel workers. -/
inductive Mode (R : Type)
  | inProcess (plan : PlanNode R)
  | parallel (plan : PlanNode R) (workers : Nat)

/-- The number of workers asked for. -/
def Mode.workers : Mode R → Nat
  | .inProcess _ => 0
  | .parallel _ workers => workers

/-- `planRows` is the planner's estimate for the plan, or for the input of the aggregate. -/
def initRunWithParallelScan (settings : Settings) (countTuplesOnly : Bool) (planRows : Nat) (plan : PlanNode R) :
    Option (Mode R) :=
  if countTuplesOnly then
    match plan with
    | .agg child => (markPlanParallelAware child).map fun child =>
        .parallel (.agg child) (parallelWorkerNumber settings planRows)
    | _ => none
  else (markPlanParallelAware plan).map fun plan => .parallel plan (parallelWorkerNumber settings planRows)

def initUnsafe (settings : Settings) (isTemp countTuplesOnly : Bool) (planRows : Nat) (plan : PlanNode R) :
    Option (Mode R) :=
  if !isTemp && decide (0 < settings.maxWorkersPerPostgresScan) && canTableScanRunInParallel plan then
    initRunWithParallelScan settings countTuplesOnly planRows plan
  else some (.inProcess plan)

/-! ## Execution -/

/-- A shared scan: every row goes to one participant, and each participant gets its rows in the order of the scan. -/
structure Split (rows : List R) (parts : List (List R)) : Prop where
  perm : parts.flatten.Perm rows
  order : ∀ part ∈ parts, part.Sublist rows

/-- The bitmap is built once for all participants. -/
def BitmapNode.shared : BitmapNode → Bool
  | .bitmapIndexScan isShared => isShared
  | .bitmapAnd first _ => first.shared
  | .bitmapOr isShared first _ => isShared && first.shared
  | .other => false

/-- The node is marked and can be shared. -/
def PlanNode.isShared : PlanNode R → Bool
  | .seqScan aware _ => aware
  | .indexScan aware am _ => aware && am
  | .indexOnlyScan aware am _ => aware && am
  | .bitmapHeapScan aware bitmap _ => aware && bitmap.shared
  | _ => false

/-- What each participant gets when all of them execute a plan. A parallel-aware `Append` of a serial plan gives each of
its plans to one participant; a node that is not shared is executed by each of them in full. -/
def Shares (parts : List (List R)) : PlanNode R → Prop
  | .append true plans => ∃ taken : List (List (PlanNode R)),
      taken.flatten.Perm plans ∧ parts = taken.map fun own => own.flatMap PlanNode.rows
  | plan => if plan.isShared then Split plan.rows parts else ∀ part ∈ parts, part = plan.rows

/-- The rows `out` that the reader delivers with `launched` workers: the backend executes the plan where there are none,
and only reads the workers' queues where there are some. -/
def Mode.delivers (launched : Nat) (out : List R) : Mode R → Prop
  | .inProcess plan => out = plan.rows
  | .parallel plan _ => if launched = 0 then Shares [out] plan
    else ∃ parts, parts.length = launched ∧ Shares parts plan ∧
      ∃ s, ReflTransGen Reader.Step (.start parts) s ∧ s.visit = none ∧ out = s.delivered

/-- The count that the reader delivers: each worker counts its part, and the backend, the last participant, counts after
them. -/
def Mode.counts (launched : Nat) (total : Nat) : Mode R → Prop
  | .inProcess plan => total = plan.rows.length
  | .parallel (.agg child) _ => ∃ parts own, parts.length = launched ∧ Shares (parts ++ [own]) child ∧
      ∃ s, ReflTransGen Reader.Step (.start (parts.map fun part => [part.length])) s ∧ s.visit = none ∧
        total = s.delivered.sum + own.length
  | .parallel _ _ => False

/-! ## Marked plans -/

/-- The plan is not an index scan whose access method has no parallel scan. -/
def PlanNode.shareable : PlanNode R → Bool
  | .indexScan _ am _ => am
  | .indexOnlyScan _ am _ => am
  | _ => true

def PlanNode.isAppend : PlanNode R → Bool
  | .append _ _ => true
  | _ => false

theorem markBitmap_shared : ∀ {b b' : BitmapNode}, markBitmap b = some b' → b'.shared = true
  | .bitmapIndexScan _, b', h => by
    cases h
    rfl
  | .bitmapAnd first rest, b', h => by
    obtain ⟨first', hf, rfl⟩ := Option.map_eq_some_iff.mp h
    have ih := markBitmap_shared hf
    exact ih
  | .bitmapOr _ first rest, b', h => by
    obtain ⟨first', hf, rfl⟩ := Option.map_eq_some_iff.mp h
    have ih := markBitmap_shared hf
    simp [BitmapNode.shared, ih]

variable {plan plan' : PlanNode R}

variable (h : markPlanParallelAware plan = some plan')

include h in
/-- What marking makes of a plan: an `Append` whose plans are handed out, or a scan that is shared if it can be. -/
theorem mark_cases :
    (∃ aware plans, plan = .append aware plans ∧ plan' = .append true plans) ∨
      plan.isAppend = false ∧ plan'.rows = plan.rows ∧ plan'.isShared = plan.shareable ∧
        ∀ parts, Shares parts plan' ↔
          if plan.shareable then Split plan.rows parts else ∀ part ∈ parts, part = plan.rows := by
  cases plan with
  | append aware plans =>
    cases h
    exact .inl ⟨aware, plans, rfl, rfl⟩
  | seqScan aware rows =>
    cases h
    exact .inr ⟨rfl, rfl, rfl, fun _ => Iff.rfl⟩
  | indexScan aware am rows =>
    cases h
    exact .inr ⟨rfl, rfl, rfl, fun _ => Iff.rfl⟩
  | indexOnlyScan aware am rows =>
    cases h
    exact .inr ⟨rfl, rfl, rfl, fun _ => Iff.rfl⟩
  | bitmapHeapScan aware bitmap rows =>
    obtain ⟨bitmap', hb, rfl⟩ := Option.map_eq_some_iff.mp h
    have hshared : (PlanNode.bitmapHeapScan true bitmap' rows).isShared = true := markBitmap_shared hb
    exact .inr ⟨rfl, rfl, hshared, fun parts => by simp only [Shares, hshared]; exact Iff.rfl⟩
  | agg child => cases h
  | other rows => cases h

theorem flatten_taken (taken : List (List (PlanNode R))) :
    (taken.map fun own => own.flatMap PlanNode.rows).flatten = taken.flatten.flatMap PlanNode.rows := by
  induction taken with
  | nil => rfl
  | cons own taken ih => simp [ih]

include h in
theorem shares_perm (hshare : plan.shareable = true) {parts : List (List R)} (hs : Shares parts plan') :
    parts.flatten.Perm plan.rows := by
  rcases mark_cases h with ⟨aware, plans, rfl, rfl⟩ | ⟨-, -, -, hiff⟩
  · obtain ⟨taken, hperm, rfl⟩ := hs
    rw [flatten_taken, PlanNode.rows, appendRows_eq]
    exact hperm.flatMap_right _
  · rw [hiff, if_pos hshare] at hs
    exact hs.perm

include h in
/-- A single participant gets the rows of the serial plan, in their order unless the plan is an `Append`. -/
theorem shares_one {part : List R} (hs : Shares [part] plan') :
    part.Perm plan.rows ∧ (plan.isAppend = false → part = plan.rows) := by
  rcases mark_cases h with ⟨aware, plans, rfl, rfl⟩ | ⟨-, -, -, hiff⟩
  · have hperm := shares_perm h rfl hs
    exact ⟨by simpa using hperm, fun hne => absurd hne (by simp [PlanNode.isAppend])⟩
  · have heq : part = plan.rows := by
      rw [hiff] at hs
      split at hs
      · have hlen : part.length = plan.rows.length := by simpa using hs.perm.length_eq
        exact (hs.order part List.mem_cons_self).eq_of_length hlen
      · exact hs part List.mem_cons_self
    exact ⟨by rw [heq], fun _ => heq⟩

theorem split_first (rows : List R) (n : Nat) : Split rows (rows :: List.replicate n []) where
  perm := by simp
  order := by
    intro part hpart
    rcases List.mem_cons.mp hpart with rfl | hpart
    · exact List.Sublist.refl _
    · rw [List.eq_of_mem_replicate hpart]
      exact List.nil_sublist _

include h in
theorem shares_exists (n : Nat) :
    ∃ parts, parts.length = n + 1 ∧ Shares parts plan' := by
  rcases mark_cases h with ⟨aware, plans, rfl, rfl⟩ | ⟨-, -, -, hiff⟩
  · exact ⟨_, by simp, plans :: List.replicate n [], by simp, rfl⟩
  · cases hshare : plan.shareable with
    | true =>
      refine ⟨plan.rows :: List.replicate n [], by simp, (hiff _).mpr ?_⟩
      rw [if_pos hshare]
      exact split_first _ n
    | false =>
      refine ⟨List.replicate (n + 1) plan.rows, by simp, (hiff _).mpr ?_⟩
      rw [if_neg (by simp [hshare])]
      exact fun part hpart => List.eq_of_mem_replicate hpart

/-! ## What is delivered -/

include h in
theorem delivers_exists (workers launched : Nat) :
    ∃ out, (Mode.parallel plan' workers).delivers launched out := by
  cases launched with
  | zero =>
    obtain ⟨parts, hlen, hs⟩ := shares_exists h 0
    obtain ⟨out, rfl⟩ := List.length_eq_one_iff.mp hlen
    exact ⟨out, hs⟩
  | succ n =>
    obtain ⟨parts, hlen, hs⟩ := shares_exists h n
    obtain ⟨s, hrun, hend⟩ := (reading_start parts).finishes
    exact ⟨s.delivered, parts, hlen, hs, s, hrun, hend, rfl⟩

variable {workers launched : Nat}

include h in
theorem delivers_rows (hshare : 2 ≤ launched → plan.shareable = true) {out : List R}
    (hd : (Mode.parallel plan' workers).delivers launched out) :
    out.Perm plan.rows ∧ (launched ≤ 1 → plan.isAppend = false → out = plan.rows) := by
  simp only [Mode.delivers] at hd
  split at hd
  · obtain ⟨hperm, heq⟩ := shares_one h hd
    exact ⟨hperm, fun _ => heq⟩
  · rename_i hpos
    obtain ⟨parts, hlen, hs, s, hrun, hend, rfl⟩ := hd
    by_cases hone : launched = 1
    · rw [hone] at hlen
      obtain ⟨part, rfl⟩ := List.length_eq_one_iff.mp hlen
      rw [alone_delivered hrun hend]
      obtain ⟨hperm, heq⟩ := shares_one h hs
      exact ⟨hperm, fun _ => heq⟩
    · have hdelivered := ((reading_run hrun).visit_eq_none hend).2
      refine ⟨hdelivered.trans (shares_perm h (hshare (by omega)) hs), ?_⟩
      intro hle
      omega

theorem sum_lengths (parts : List (List R)) : ((parts.map fun part => [part.length]).flatten).sum =
    parts.flatten.length := by
  induction parts with
  | nil => rfl
  | cons part parts ih => simp [ih]

variable {child child' : PlanNode R}

theorem counts_rows (h : markPlanParallelAware child = some child') (hshare : child.shareable = true) {total : Nat}
    (hc : (Mode.parallel (.agg child') workers).counts launched total) : total = child.rows.length := by
  obtain ⟨parts, own, -, hs, s, hrun, hend, rfl⟩ := hc
  have hread := ((reading_run hrun).visit_eq_none hend).2
  have hperm := shares_perm h hshare hs
  rw [hread.sum_nat, sum_lengths, ← hperm.length_eq]
  simp

theorem counts_exists (h : markPlanParallelAware child = some child') (workers launched : Nat) :
    ∃ total, (Mode.parallel (.agg child') workers).counts launched total := by
  obtain ⟨parts, hlen, hs⟩ := shares_exists h launched
  have hne : parts ≠ [] := by
    rintro rfl
    simp at hlen
  obtain ⟨s, hrun, hend⟩ := (reading_start (parts.dropLast.map fun part => [part.length])).finishes
  refine ⟨_, parts.dropLast, parts.getLast hne, by simp [hlen], ?_, s, hrun, hend, rfl⟩
  rw [List.dropLast_append_getLast]
  exact hs

def Mode.isParallel : Mode R → Bool
  | .inProcess _ => false
  | .parallel _ _ => true

variable {settings : Settings} {isTemp : Bool} {planRows : Nat} {mode : Mode R}

theorem initUnsafe_rows (h : initUnsafe settings isTemp false planRows plan = some mode) : mode = .inProcess plan ∨
      ∃ plan', markPlanParallelAware plan = some plan' ∧
        mode = .parallel plan' (parallelWorkerNumber settings planRows) := by
  simp only [initUnsafe] at h
  split at h
  · obtain ⟨plan', hmark, rfl⟩ := Option.map_eq_some_iff.mp h
    exact .inr ⟨plan', hmark, rfl⟩
  · cases h
    exact .inl rfl

theorem initUnsafe_count (h : initUnsafe settings isTemp true planRows plan = some mode) : mode = .inProcess plan ∨
      ∃ child child', plan = .agg child ∧ markPlanParallelAware child = some child' ∧
        mode = .parallel (.agg child') (parallelWorkerNumber settings planRows) := by
  simp only [initUnsafe] at h
  split at h
  · cases plan with
    | agg child =>
      obtain ⟨child', hmark, rfl⟩ := Option.map_eq_some_iff.mp h
      exact .inr ⟨child, child', rfl, hmark, rfl⟩
    | _ => cases h
  · cases h
    exact .inl rfl

/-- The reader delivers the rows of the serial plan, and in its order, or their number. -/
theorem parallel_scan_serial (settings : Settings) (isTemp : Bool) (planRows : Nat) (plan : PlanNode R)
    (mode : Mode R) (launched : Nat) :
    (initUnsafe settings isTemp false planRows plan = some mode →
      (mode.isParallel = true → 2 ≤ launched → plan.shareable = true) →
      (∃ out, mode.delivers launched out) ∧ ∀ out, mode.delivers launched out → out.Perm plan.rows ∧
        ((mode.isParallel = true → launched ≤ 1 ∧ plan.isAppend = false) → out = plan.rows)) ∧
    (initUnsafe settings isTemp true planRows plan = some mode →
      (mode.isParallel = true → ∀ child, plan = .agg child → child.shareable = true) →
      (∃ total, mode.counts launched total) ∧ ∀ total, mode.counts launched total → total = plan.rows.length) := by
  constructor
  · intro hinit hshare
    rcases initUnsafe_rows hinit with rfl | ⟨plan', hmark, rfl⟩
    · refine ⟨⟨plan.rows, rfl⟩, ?_⟩
      rintro out rfl
      exact ⟨List.Perm.refl _, fun _ => rfl⟩
    · refine ⟨delivers_exists hmark _ launched, ?_⟩
      intro out hout
      obtain ⟨hperm, heq⟩ := delivers_rows hmark (hshare rfl) hout
      exact ⟨hperm, fun hone => heq (hone rfl).1 (hone rfl).2⟩
  · intro hinit hshare
    rcases initUnsafe_count hinit with rfl | ⟨child, child', rfl, hmark, rfl⟩
    · exact ⟨⟨plan.rows.length, rfl⟩, fun total h => h⟩
    · exact ⟨counts_exists hmark _ launched, fun total => counts_rows hmark (hshare rfl child rfl)⟩

/-- Two workers on a scan of about a hundred thousand rows. -/
def twoWorkers : Settings := ⟨2, 8⟩

theorem parallel_scan_serial_two_workers :
    (∀ out, (Mode.parallel (.seqScan true [1, 2]) 2).delivers 2 out → out.Perm [1, 2]) ∧
      (∀ out, (Mode.parallel (.seqScan true [1, 2]) 2).delivers 1 out → out = [1, 2]) ∧
      ∀ total, (Mode.parallel (.agg (.seqScan true [1, 2])) 2).counts 2 total → total = 2 := by
  have hinit : initUnsafe twoWorkers false false 100000 (.seqScan false [1, 2]) =
      some (.parallel (.seqScan true [1, 2]) 2) := rfl
  refine ⟨?_, ?_, ?_⟩
  · intro out hout
    exact (((parallel_scan_serial _ _ _ _ _ 2).1 hinit fun _ _ => rfl).2 out hout).1
  · intro out hout
    exact (((parallel_scan_serial _ _ _ _ _ 1).1 hinit fun _ _ => rfl).2 out hout).2 fun _ => ⟨le_rfl, rfl⟩
  · intro total htotal
    have hinit : initUnsafe twoWorkers false true 100000 (.agg (.seqScan false [1, 2])) =
        some (.parallel (.agg (.seqScan true [1, 2])) 2) := rfl
    refine ((parallel_scan_serial _ _ _ _ _ 2).2 hinit ?_).2 total htotal
    rintro - _ ⟨⟩
    rfl

theorem reader_reaches (parts : List (List Nat)) (events : List Event) (out : List Nat)
    (h : (trace Reader.after (.start parts) events).any (fun s => s.visit.isNone && s.delivered == out) = true) :
    ∃ s, ReflTransGen Reader.Step (.start parts) s ∧ s.visit = none ∧ out = s.delivered := by
  have hnext : ∀ (s : Reader Nat) e t, s.after e = some t → s.Step t := fun _ e _ he => ⟨e, he⟩
  obtain ⟨s, hrun, hs⟩ := trace_reaches hnext _ _ _ h
  simp only [Bool.and_eq_true, Option.isNone_iff_eq_none, beq_iff_eq] at hs
  exact ⟨s, hrun, hs.1, hs.2.symm⟩

/-- Two workers: an ordered index scan comes out of order, and an index scan that is not shared comes twice. -/
theorem parallel_scan_differs :
    (∃ mode, initUnsafe twoWorkers false false 100000 (.indexScan false true [1, 2]) = some mode ∧ mode.workers = 2 ∧
      mode.delivers 2 [2, 1]) ∧
    ∃ mode, initUnsafe twoWorkers false false 100000 (.indexScan false false [1]) = some mode ∧ mode.workers = 2 ∧
      mode.delivers 2 [1, 1] := by
  constructor
  · refine ⟨_, rfl, rfl, [[1], [2]], rfl, ⟨List.Perm.refl _, by decide⟩, ?_⟩
    -- the second worker is quicker
    exact reader_reaches _ [.produce 1, .visit, .visit, .detach 1, .visit, .produce 0, .visit, .detach 0, .visit] _ rfl
  · refine ⟨_, rfl, rfl, [[1], [1]], rfl, ?_, ?_⟩
    · intro part hpart
      have heq : part = [1] := by simpa using hpart
      exact heq
    · exact reader_reaches _ [.produce 0, .visit, .detach 0, .visit, .produce 0, .visit, .detach 0, .visit] _ rfl

end PgDucklake.Scan
