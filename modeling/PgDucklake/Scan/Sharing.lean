import PgDucklake.Scan.Reader

/-!
# Threads that share a table reader

Several DuckDB threads scan through one table reader, each with its own local state. Local states are counted; the one
whose scan ends last closes the reader, and from then on the count is negative, so that a local state that is created
later is refused. A refused one is scanned with all the same. `Steady` is what holds at any moment of any interleaving
(`steady_run`): as long as a registered thread has not left, the reader is open; and once it is closed no queue is left to
look at, so that a refused thread touches nothing. `reader_shared_safely` says what follows.
-/

namespace PgDucklake.Scan

open Lib

variable {R : Type}

/-! ## The code -/

/-- `STANDARD_VECTOR_SIZE`. -/
def standardVectorSize : Nat := 2048
/-- `LOCAL_STATE_SLOT_BATCH_SIZE`. -/
def slotBatchSize : Nat := 32
def numBatches : Nat := standardVectorSize / slotBatchSize

/-- The three forms of a scan. -/
inductive Route
  | countOnly
  | parallel
  | inProcess
  deriving DecidableEq, Repr

/-- A scan: its form, the threads that DuckDB may use for a parallel one, what the workers will produce, what the executor
node will give, the count that a row of a count-only scan holds, and for each column whether its values are converted
without the lock. A scan in process has no workers, and in a parallel one they give all rows. -/
structure Config (R : Type) where
  route : Route
  threads : Nat
  parts : List (List R)
  rows : List R
  count : R → Nat
  safe : List Bool
  serial : route = .inProcess → parts = []
  workersOnly : route = .parallel → rows = []

/-- `MaxThreads`. -/
def Config.maxThreads (cfg : Config R) : Nat := if cfg.route = .parallel then cfg.threads else 1

/-- Where a thread is in `PostgresScanFunction`: outside of it; before it takes the lock for a batch; in the batch, with the
tuples it has got; before a column of the tuples is converted, or in its conversion under the lock; before it unregisters;
before it sets the cardinality. -/
inductive Pc
  | idle
  | batch (index : Nat)
  | fetch (index got : Nat)
  | convert (index got column : Nat) (locked : Bool)
  | unregister
  | emit
  deriving DecidableEq, Repr

/-- `PostgresScanLocalState`, whether it was registered and has slots, and the sum of the cardinalities it has given. -/
structure LocalState where
  slots : Bool
  outputVectorSize : Nat
  exhaustedScan : Bool
  pc : Pc
  emitted : Nat
  deriving DecidableEq, Repr

/-- What the threads share: `registered_local_states`, how often `Cleanup` has run, the queues, the rows that the executor
node has yet to give and those it has given, and who holds the lock. -/
structure Shared (R : Type) where
  registeredLocalStates : Int
  cleanups : Nat
  reader : Reader R
  node : List R
  taken : List R
  lock : Option Nat
  deriving DecidableEq, Repr

structure ScanState (R : Type) where
  shared : Shared R
  locals : List LocalState
  deriving DecidableEq, Repr

def setOutputCardinality (l : LocalState) : LocalState :=
  let cardinality := if l.outputVectorSize ≤ standardVectorSize then l.outputVectorSize else standardVectorSize
  { l with outputVectorSize := l.outputVectorSize - cardinality, emitted := l.emitted + cardinality }

/-- `UnregisterLocalState`. -/
def Shared.unregisterLocalState (g : Shared R) : Shared R :=
  if g.registeredLocalStates - 1 = 0 then { g with registeredLocalStates := -1, cleanups := g.cleanups + 1 }
  else { g with registeredLocalStates := g.registeredLocalStates - 1 }

/-- The rows that a look at the queues has brought. -/
def newRows (before after : Reader R) : List R := after.delivered.drop before.delivered.length

/-- One round of `GetNextMinimalWorkerTuples`, under the lock. -/
def fetchWorkerTuple (g : Shared R) (l : LocalState) (index got : Nat) : Shared R × LocalState :=
  match g.reader.visit with
  | none => ({ g with lock := none }, { l with exhaustedScan := true, pc := .convert index got 0 false })
  | some reader =>
    let got := got + (newRows g.reader reader).length
    if got = slotBatchSize then
      ({ g with reader := reader, lock := none }, { l with exhaustedScan := false, pc := .convert index got 0 false })
    else ({ g with reader := reader }, { l with pc := .fetch index got })

/-- One round of `GetNextInProcessTuples`. -/
def fetchInProcessTuple (g : Shared R) (l : LocalState) (index got : Nat) : Shared R × LocalState :=
  match g.node with
  | [] => (g, { l with pc := .convert index got 0 false })
  | row :: node =>
    ({ g with node := node, taken := g.taken ++ [row] },
      { l with pc := if got + 1 = slotBatchSize then .convert index (got + 1) 0 false else .fetch index (got + 1) })

/-- One round of the loop over `GetNextCount`: the workers' counts first, then those of the executor node. -/
def fetchCount (cfg : Config R) (g : Shared R) (l : LocalState) : Shared R × LocalState :=
  match g.reader.visit with
  | some reader =>
    ({ g with reader := reader },
      { l with outputVectorSize := l.outputVectorSize + ((newRows g.reader reader).map cfg.count).sum })
  | none =>
    match g.node with
    | [] => ({ g with lock := none }, { l with exhaustedScan := true, pc := .unregister })
    | row :: node =>
      ({ g with node := node, taken := g.taken ++ [row] },
        { l with outputVectorSize := l.outputVectorSize + cfg.count row })

/-- The end of `InsertTuplesIntoChunk`, and what the loop over the batches does next. -/
def convertTuples (cfg : Config R) (g : Shared R) (l : LocalState) (index got : Nat) : Shared R × LocalState :=
  let l := { l with outputVectorSize := l.outputVectorSize + got }
  match cfg.route with
  | .inProcess =>
    if got < slotBatchSize then ({ g with lock := none }, { l with exhaustedScan := true, pc := .unregister })
    else if index + 1 < numBatches then (g, { l with pc := .fetch (index + 1) 0 })
    else ({ g with lock := none }, { l with pc := .emit })
  | _ =>
    if l.exhaustedScan then (g, { l with pc := .unregister })
    else if index + 1 < numBatches then (g, { l with pc := .batch (index + 1) })
    else (g, { l with pc := .emit })

/-- `InsertTuplesIntoChunk` at a column. The lock is taken for JSONB, LIST and BIT values; in a scan in process the thread
has it already, and keeps it. -/
def insertTuplesIntoChunk (cfg : Config R) (thread : Nat) (g : Shared R) (l : LocalState) (index got column : Nat)
    (locked : Bool) : Option (Shared R × LocalState) :=
  if locked then
    some ({ g with lock := if cfg.route = .inProcess then g.lock else none },
      { l with pc := .convert index got (column + 1) false })
  else if got = 0 then some (convertTuples cfg g l index got)
  else
    match cfg.safe[column]? with
    | none => some (convertTuples cfg g l index got)
    | some true => some (g, { l with pc := .convert index got (column + 1) false })
    | some false =>
      if g.lock = none ∨ g.lock = some thread then
        some ({ g with lock := some thread }, { l with pc := .convert index got column true })
      else none

/-- The next step of the thread with the given local state; `none` if it has to wait for the lock. -/
def turn (cfg : Config R) (thread : Nat) (g : Shared R) (l : LocalState) : Option (Shared R × LocalState) :=
  match l.pc with
  | .idle => some (g, if l.exhaustedScan then setOutputCardinality l else { l with outputVectorSize := 0, pc := .batch 0 })
  | .batch index =>
    if g.lock = none then some ({ g with lock := some thread }, { l with pc := .fetch index 0 }) else none
  | .fetch index got =>
    if g.lock = some thread then
      some (match cfg.route with
        | .parallel => fetchWorkerTuple g l index got
        | .inProcess => fetchInProcessTuple g l index got
        | .countOnly => fetchCount cfg g l)
    else none
  | .convert index got column locked => insertTuplesIntoChunk cfg thread g l index got column locked
  | .unregister => if g.lock = none then some (g.unregisterLocalState, { l with pc := .emit }) else none
  | .emit => some (g, { setOutputCardinality l with pc := .idle })

/-- What happens next: a worker produces a row or leaves its queue, DuckDB creates a local state, or a thread goes on. -/
inductive Action
  | worker (e : Event)
  | create
  | act (thread : Nat)
  deriving DecidableEq, Repr

/-- `PostgresScanLocalState`'s constructor. -/
def Shared.createLocalState (g : Shared R) : Shared R × LocalState :=
  if g.registeredLocalStates < 0 then (g, ⟨false, 0, false, .idle, 0⟩)
  else ({ g with registeredLocalStates := g.registeredLocalStates + 1 }, ⟨true, 0, false, .idle, 0⟩)

def ScanState.after (cfg : Config R) (s : ScanState R) : Action → Option (ScanState R)
  | .worker e =>
    if e = .visit then none
    else (s.shared.reader.after e).map fun reader => { s with shared := { s.shared with reader := reader } }
  | .create =>
    if s.shared.lock = none ∧ s.locals.length < cfg.maxThreads then
      some ⟨s.shared.createLocalState.1, s.locals ++ [s.shared.createLocalState.2]⟩
    else none
  | .act thread =>
    match s.locals[thread]? with
    | none => none
    | some l => (turn cfg thread s.shared l).map fun (g, l') => ⟨g, s.locals.set thread l'⟩

def ScanState.start (cfg : Config R) : ScanState R := ⟨⟨0, 0, .start cfg.parts, cfg.rows, [], none⟩, []⟩

def ScanState.Step (cfg : Config R) (s t : ScanState R) : Prop := ∃ a, s.after cfg a = some t

/-- The action looks at the executor node, at a worker's queue through the array of readers, or at a slot. -/
def ScanState.touches (cfg : Config R) (s : ScanState R) : Action → Bool
  | .worker _ => false
  | .create => 0 ≤ s.shared.registeredLocalStates
  | .act thread =>
    match s.locals[thread]? with
    | none => false
    | some l =>
      match l.pc with
      | .fetch _ _ => cfg.route ≠ .parallel || s.shared.reader.next < s.shared.reader.channels.length
      | .convert _ got _ _ => 0 < got
      | _ => false

/-! ## What holds of a thread -/

/-- The tuples that are fetched and not converted. -/
def LocalState.inFlight (l : LocalState) : Nat :=
  match l.pc with
  | .fetch _ got => got
  | .convert _ got _ _ => got
  | _ => 0

/-- The thread has unregistered. -/
def LocalState.left (l : LocalState) : Bool := l.exhaustedScan && (l.pc == .emit || l.pc == .idle)

/-- The thread is registered and has not left. -/
def LocalState.active (l : LocalState) : Bool := l.slots && !l.left

/-- All that the thread has got. -/
def LocalState.total (l : LocalState) : Nat := l.emitted + l.outputVectorSize + l.inFlight

/-- The chunk of a scan of tuples has room for all batches. A count may be larger; it is given out later. -/
def LocalState.Filled (cfg : Config R) (l : LocalState) : Pc → Prop
  | .idle =>
    (l.exhaustedScan = false → l.outputVectorSize = 0) ∧ (cfg.route ≠ .countOnly → l.outputVectorSize = 0)
  | .batch index => l.exhaustedScan = false ∧ index < numBatches ∧ l.outputVectorSize = slotBatchSize * index
  | .fetch index got =>
    l.exhaustedScan = false ∧ index < numBatches ∧ (cfg.route = .countOnly → got = 0) ∧
      (cfg.route ≠ .countOnly → l.outputVectorSize = slotBatchSize * index ∧ got < slotBatchSize)
  | .convert index got _ _ =>
    index < numBatches ∧ l.outputVectorSize = slotBatchSize * index ∧ got ≤ slotBatchSize ∧ cfg.route ≠ .countOnly ∧
      (cfg.route = .parallel → (l.exhaustedScan = true ↔ got < slotBatchSize)) ∧
      (cfg.route = .inProcess → l.exhaustedScan = false)
  | .unregister => l.exhaustedScan = true ∧ (cfg.route ≠ .countOnly → l.outputVectorSize ≤ standardVectorSize)
  | .emit =>
    (cfg.route ≠ .countOnly → l.outputVectorSize ≤ standardVectorSize) ∧
      (cfg.route = .countOnly → l.exhaustedScan = true)

/-- Nothing is left to read. -/
def Shared.Ended (cfg : Config R) (g : Shared R) : Prop :=
  (cfg.route ≠ .inProcess → g.reader.channels = []) ∧ (cfg.route ≠ .parallel → g.node = [])

/-- The thread has seen the end. -/
def LocalState.AtEnd (cfg : Config R) (l : LocalState) : Prop :=
  l.exhaustedScan = true ∨ cfg.route = .inProcess ∧
    match l.pc with
    | .convert _ got _ _ => got < slotBatchSize
    | _ => False

/-- What holds of a thread besides: it has seen the end only if nothing is left to read, and only in a parallel scan it may
have been refused, in which case it has got nothing. -/
structure LocalState.Sound (cfg : Config R) (g : Shared R) (l : LocalState) : Prop where
  ended : l.AtEnd cfg → g.Ended cfg
  refused : l.slots = false → cfg.route = .parallel ∧ l.inFlight = 0
  filled : l.Filled cfg l.pc

/-- A row counts as one, or as the count it holds. -/
def Config.weight (cfg : Config R) (row : R) : Nat := if cfg.route = .countOnly then cfg.count row else 1

/-- What the scan is to produce. -/
def Config.total (cfg : Config R) : Nat := ((cfg.parts.flatten ++ cfg.rows).map cfg.weight).sum

/-- What the reader has produced. -/
def Shared.produced (cfg : Config R) (g : Shared R) : Nat := ((g.reader.delivered ++ g.taken).map cfg.weight).sum

section Turns

variable {cfg : Config R} {g g' : Shared R} {l l' : LocalState}

theorem visit_none_of_nil {r : Reader R} (h : r.channels = []) : r.visit = none := by
  simp [Reader.visit, h]

theorem visit_newRows {r r' : Reader R} (h : r.visit = some r') :
    r'.delivered = r.delivered ++ newRows r r' ∧ (newRows r r').length ≤ 1 := by
  have hnew : ∀ rows, r'.delivered = r.delivered ++ rows → newRows r r' = rows := by
    intro rows hrows
    rw [newRows, hrows, List.drop_left]
  cases change_of_visit h with
  | deliver hc =>
    have hrows := hnew _ rfl
    rw [hrows]
    exact ⟨rfl, Nat.le_refl _⟩
  | skip _ | drop _ | produce _ | detach _ =>
    have hrows := hnew [] (by simp)
    rw [hrows]
    exact ⟨by simp, Nat.zero_le _⟩

theorem produced_visit {reader : Reader R} {lock : Option Nat} (h : g.reader.visit = some reader) :
    Shared.produced cfg { g with reader := reader, lock := lock } =
      g.produced cfg + ((newRows g.reader reader).map cfg.weight).sum := by
  rw [Shared.produced, Shared.produced, (visit_newRows h).1]
  simp only [List.map_append, List.sum_append]
  omega

theorem produced_take {row : R} {node : List R} :
    Shared.produced cfg { g with node := node, taken := g.taken ++ [row] } = g.produced cfg + cfg.weight row := by
  rw [Shared.produced, Shared.produced]
  simp only [List.map_append, List.sum_append, List.map_cons, List.map_nil, List.sum_cons, List.sum_nil]
  omega

theorem weights_of_tuples (h : cfg.route ≠ .countOnly) (rows : List R) : (rows.map cfg.weight).sum = rows.length := by
  have hone : cfg.weight = fun _ => 1 := funext fun row => if_neg h
  rw [hone]
  simp

theorem weights_of_counts (h : cfg.route = .countOnly) (rows : List R) :
    (rows.map cfg.weight).sum = (rows.map cfg.count).sum := by
  have hcount : cfg.weight = cfg.count := funext fun row => if_pos h
  rw [hcount]

/-- What a turn leaves behind. -/
structure Passed (cfg : Config R) (g g' : Shared R) (l l' : LocalState) : Prop where
  reading : Reading cfg.parts g'.reader
  drained : g.reader.channels = [] → g'.reader.channels = []
  emptied : g.node = [] → g'.node = []
  node : g'.taken ++ g'.node = g.taken ++ g.node
  sound : l'.Sound cfg g'
  slots : l'.slots = l.slots
  counted : g'.produced cfg + l.total = g.produced cfg + l'.total

/-- The turn does not change who is registered. -/
structure Kept (g g' : Shared R) (l l' : LocalState) : Prop where
  registered : g'.registeredLocalStates = g.registeredLocalStates
  cleanups : g'.cleanups = g.cleanups
  active : l'.active = l.active

/-- A turn that leaves `p` behind and after which the same threads are registered. -/
def Turned (cfg : Config R) (g : Shared R) (l : LocalState) (p : Shared R × LocalState) : Prop :=
  Passed cfg g p.1 l p.2 ∧ Kept g p.1 l p.2

theorem active_of_not_exhausted (h : l.exhaustedScan = false) : l.active = l.slots := by
  simp [LocalState.active, LocalState.left, h]

theorem active_of_pc (hemit : l.pc ≠ .emit) (hidle : l.pc ≠ .idle) : l.active = l.slots := by
  simp [LocalState.active, LocalState.left, hemit, hidle]

theorem unregisterLocalState_eq (g : Shared R) : ∃ registered cleanups,
    g.unregisterLocalState = { g with registeredLocalStates := registered, cleanups := cleanups } := by
  unfold Shared.unregisterLocalState
  split_ifs <;> exact ⟨_, _, rfl⟩

variable (hreading : Reading cfg.parts g.reader) (hl : l.Sound cfg g)

include hl in
theorem filledAt {pc : Pc} (hpc : l.pc = pc) : l.Filled cfg pc := hpc ▸ hl.filled

include hreading hl in
theorem Passed.local {registered : Int} {cleanups : Nat} {lock : Option Nat} (hslots : l'.slots = l.slots)
    (hended : l'.AtEnd cfg → g.Ended cfg) (hrefused : l'.slots = false → l'.inFlight = 0) (hfilled : l'.Filled cfg l'.pc)
    (htotal : l'.total = l.total) :
    Passed cfg g { g with registeredLocalStates := registered, cleanups := cleanups, lock := lock } l l' where
  reading := hreading
  drained := id
  emptied := id
  node := rfl
  sound := ⟨hended, fun h => ⟨(hl.refused (hslots ▸ h)).1, hrefused h⟩, hfilled⟩
  slots := hslots
  counted := by rw [htotal]; rfl

include hl in
theorem ended_of_exhausted (h : l'.AtEnd cfg) (hpc : ∀ index got column locked, l'.pc ≠ .convert index got column locked)
    (hsame : l'.exhaustedScan = true → l.exhaustedScan = true) : g.Ended cfg := by
  rcases h with h | ⟨-, h⟩
  · exact hl.ended (.inl (hsame h))
  · cases hcase : l'.pc with
    | convert index got column locked => exact absurd hcase (hpc index got column locked)
    | _ => simp [hcase] at h

include hreading hl

theorem idle_turned (hpc : l.pc = .idle) :
    Turned cfg g l
      (g, if l.exhaustedScan then setOutputCardinality l else { l with outputVectorSize := 0, pc := .batch 0 }) := by
  obtain ⟨hempty, htuples⟩ := filledAt hl hpc
  cases hexhausted : l.exhaustedScan with
  | true =>
    simp only [if_true]
    have hflight : (setOutputCardinality l).inFlight = 0 := by simp [setOutputCardinality, LocalState.inFlight, hpc]
    refine ⟨.local hreading hl rfl (fun _ => hl.ended (.inl hexhausted)) (fun _ => hflight) ?_ ?_, rfl, rfl, rfl⟩
    · simp only [LocalState.Filled, setOutputCardinality, hpc, hexhausted, Bool.true_eq_false, false_implies, true_and]
      intro hroute
      rw [htuples hroute, Nat.zero_sub]
    · simp only [LocalState.total, LocalState.inFlight, setOutputCardinality, hpc]
      split_ifs <;> omega
  | false =>
    simp only [Bool.false_eq_true, if_false]
    refine ⟨.local hreading hl rfl (fun h => ended_of_exhausted hl h (by simp) (by simp)) (fun _ => rfl)
      ⟨rfl, by decide, rfl⟩ ?_, rfl, rfl, ?_⟩
    · simp only [LocalState.total, LocalState.inFlight, hpc, hempty hexhausted]
    · simp [LocalState.active, LocalState.left, hexhausted]

theorem batch_turned {index : Nat} (thread : Nat) (hpc : l.pc = .batch index) :
    Turned cfg g l ({ g with lock := some thread }, { l with pc := .fetch index 0 }) := by
  obtain ⟨hexhausted, hindex, hsize⟩ := filledAt hl hpc
  refine ⟨.local hreading hl rfl (fun h => ended_of_exhausted hl h (by simp) id) (fun _ => rfl)
    ⟨hexhausted, hindex, fun _ => rfl, fun _ => ⟨hsize, by decide⟩⟩ ?_, rfl, rfl, ?_⟩
  · simp only [LocalState.total, LocalState.inFlight, hpc]
  · rw [active_of_not_exhausted hexhausted]
    exact active_of_not_exhausted hexhausted

theorem emit_turned (hpc : l.pc = .emit) : Turned cfg g l (g, { setOutputCardinality l with pc := .idle }) := by
  obtain ⟨hroom, hcount⟩ := filledAt hl hpc
  have hempty : cfg.route ≠ .countOnly → (setOutputCardinality l).outputVectorSize = 0 := by
    intro hroute
    simp [setOutputCardinality, hroom hroute]
  refine ⟨.local hreading hl rfl (fun h => ended_of_exhausted hl h (by simp) id) (fun _ => rfl)
    ⟨fun hexhausted => hempty fun hroute => ?_, hempty⟩ ?_, rfl, rfl, ?_⟩
  · cases hexhausted.symm.trans (hcount hroute)
  · simp only [LocalState.total, LocalState.inFlight, setOutputCardinality, hpc]
    split_ifs <;> omega
  · simp [LocalState.active, LocalState.left, setOutputCardinality, hpc]

omit hl in
theorem Passed.visit {reader : Reader R} {lock : Option Nat} (hvisit : g.reader.visit = some reader)
    (hrefused : l.slots = false → g.reader.channels = []) (hslots : l'.slots = l.slots) (hended : ¬l'.AtEnd cfg)
    (hfilled : l'.Filled cfg l'.pc) (htotal : l'.total = l.total + ((newRows g.reader reader).map cfg.weight).sum) :
    Passed cfg g { g with reader := reader, lock := lock } l l' := by
  -- As long as a queue can be looked at, no thread has been refused.
  have hopen : g.reader.channels ≠ [] := by
    intro hnil
    rw [visit_none_of_nil hnil] at hvisit
    cases hvisit
  refine ⟨hreading.step ⟨.visit, hvisit⟩, fun hnil => absurd hnil hopen, id, rfl,
    ⟨fun h => absurd h hended, fun h => absurd (hrefused (hslots ▸ h)) hopen, hfilled⟩, hslots, ?_⟩
  rw [produced_visit hvisit, htotal]
  omega

theorem Passed.take {row : R} {node : List R} (hroute : cfg.route ≠ .parallel) (hnode : g.node = row :: node)
    (hslots : l'.slots = l.slots) (hended : ¬l'.AtEnd cfg) (hfilled : l'.Filled cfg l'.pc)
    (htotal : l'.total = l.total + cfg.weight row) :
    Passed cfg g { g with node := node, taken := g.taken ++ [row] } l l' where
  reading := hreading
  drained := id
  emptied := by simp [hnode]
  node := by simp [hnode]
  sound := ⟨fun h => absurd h hended, fun h => absurd (hl.refused (hslots ▸ h)).1 hroute, hfilled⟩
  slots := hslots
  counted := by
    rw [produced_take, htotal]
    omega

theorem fetchWorkerTuple_turned {index got : Nat} (hroute : cfg.route = .parallel) (hpc : l.pc = .fetch index got)
    (hrefused : l.slots = false → g.reader.channels = []) : Turned cfg g l (fetchWorkerTuple g l index got) := by
  have hcount : cfg.route ≠ .countOnly := by simp [hroute]
  obtain ⟨hexhausted, hindex, -, htuples⟩ := filledAt hl hpc
  obtain ⟨hsize, hgot⟩ := htuples hcount
  have hflight : l.inFlight = got := by simp [LocalState.inFlight, hpc]
  have hactive : ∀ l' : LocalState, l'.slots = l.slots → l'.pc ≠ .emit → l'.pc ≠ .idle → l'.active = l.active := by
    intro l' hslots hemit hidle
    rw [active_of_pc hemit hidle, active_of_not_exhausted hexhausted, hslots]
  unfold fetchWorkerTuple
  cases hvisit : g.reader.visit with
  | none =>
    have hnil : g.reader.channels = [] := (hreading.visit_eq_none hvisit).1
    have hend : g.Ended cfg := ⟨fun _ => hnil, fun h => absurd hroute h⟩
    refine ⟨⟨hreading, id, id, rfl, ⟨fun _ => hend, fun h => ?_, ?_⟩, rfl, ?_⟩, rfl, rfl, hactive _ rfl (by simp) (by simp)⟩
    · exact hflight ▸ hl.refused h
    · exact ⟨hindex, hsize, Nat.le_of_lt hgot, hcount, fun _ => ⟨fun _ => hgot, fun _ => rfl⟩, fun h => by simp [hroute] at h⟩
    · simp only [LocalState.total, hflight]
      rfl
  | some reader =>
    have hnew := (visit_newRows hvisit).2
    have hweights := weights_of_tuples hcount (newRows g.reader reader)
    have hnot : cfg.route ≠ .inProcess := by simp [hroute]
    dsimp only
    by_cases hfull : got + (newRows g.reader reader).length = slotBatchSize
    · rw [if_pos hfull]
      refine ⟨.visit hreading hvisit hrefused rfl ?_ ?_ ?_, rfl, rfl, hactive _ rfl (by simp) (by simp)⟩
      · simp [LocalState.AtEnd, hnot]
      · refine ⟨hindex, hsize, Nat.le_of_eq hfull, hcount, fun _ => ⟨fun h => ?_, fun h => absurd hfull (Nat.ne_of_lt h)⟩,
          fun _ => rfl⟩
        cases h
      · rw [hweights, LocalState.total, LocalState.total, hflight]
        exact (Nat.add_assoc ..).symm
    · rw [if_neg hfull]
      refine ⟨.visit hreading hvisit hrefused rfl ?_ ?_ ?_, rfl, rfl, hactive _ rfl (by simp) (by simp)⟩
      · simp [LocalState.AtEnd, hexhausted]
      · refine ⟨hexhausted, hindex, fun h => absurd h hcount, fun _ => ⟨hsize, ?_⟩⟩
        omega
      · rw [hweights, LocalState.total, LocalState.total, hflight]
        exact (Nat.add_assoc ..).symm

theorem fetchInProcessTuple_turned {index got : Nat} (hroute : cfg.route = .inProcess) (hpc : l.pc = .fetch index got) :
    Turned cfg g l (fetchInProcessTuple g l index got) := by
  have hcount : cfg.route ≠ .countOnly := by simp [hroute]
  have hparallel : cfg.route ≠ .parallel := by simp [hroute]
  obtain ⟨hexhausted, hindex, -, htuples⟩ := filledAt hl hpc
  obtain ⟨hsize, hgot⟩ := htuples hcount
  have hflight : l.inFlight = got := by simp [LocalState.inFlight, hpc]
  have hconvert : ∀ n, n ≤ slotBatchSize → l.Filled cfg (.convert index n 0 false) := fun n hn =>
    ⟨hindex, hsize, hn, hcount, fun h => absurd h hparallel, fun _ => hexhausted⟩
  have hactive : ∀ pc, LocalState.active { l with pc := pc } = l.active := by
    intro pc
    simp [LocalState.active, LocalState.left, hexhausted]
  unfold fetchInProcessTuple
  cases hnode : g.node with
  | nil =>
    have hend : g.Ended cfg := ⟨fun h => absurd hroute h, fun _ => hnode⟩
    refine ⟨.local hreading hl rfl (fun _ => hend) (fun h => ?_) (hconvert got (Nat.le_of_lt hgot)) ?_, rfl,
      rfl, hactive _⟩
    · exact absurd (hl.refused h).1 hparallel
    · simp only [LocalState.total, hflight]
      rfl
  | cons row node =>
    have hweight : cfg.weight row = 1 := if_neg hcount
    by_cases hfull : got + 1 = slotBatchSize
    · simp only [if_pos hfull]
      refine ⟨.take hreading hl hparallel hnode rfl ?_ (hconvert _ (Nat.le_of_eq hfull)) ?_, rfl, rfl, hactive _⟩
      · simp [LocalState.AtEnd, hexhausted, hfull]
      · simp only [LocalState.total, hflight, hweight]
        rfl
    · simp only [if_neg hfull]
      refine ⟨.take hreading hl hparallel hnode rfl ?_ ?_ ?_, rfl, rfl, hactive _⟩
      · simp [LocalState.AtEnd, hexhausted]
      · refine ⟨hexhausted, hindex, fun h => absurd h hcount, fun _ => ⟨hsize, ?_⟩⟩
        omega
      · simp only [LocalState.total, hflight, hweight]
        rfl

theorem fetchCount_turned {index got : Nat} (hroute : cfg.route = .countOnly) (hpc : l.pc = .fetch index got)
    (hrefused : l.slots = false → g.reader.channels = []) : Turned cfg g l (fetchCount cfg g l) := by
  have hparallel : cfg.route ≠ .parallel := by simp [hroute]
  obtain ⟨hexhausted, hindex, hgot, -⟩ := filledAt hl hpc
  have hflight : l.inFlight = 0 := by simp [LocalState.inFlight, hpc, hgot hroute]
  have hcounts : ∀ size, LocalState.Filled cfg { l with outputVectorSize := size } l.pc := by
    rw [hpc]
    exact fun _ => ⟨hexhausted, hindex, hgot, fun h => absurd hroute h⟩
  have htotal : ∀ n, LocalState.total { l with outputVectorSize := l.outputVectorSize + n } = l.total + n := by
    intro n
    simp only [LocalState.total, LocalState.inFlight, hpc]
    omega
  have hnot : ∀ size, ¬LocalState.AtEnd cfg { l with outputVectorSize := size } := by
    intro size
    simp [LocalState.AtEnd, hexhausted, hroute]
  cases hvisit : g.reader.visit with
  | some reader =>
    simp only [fetchCount, hvisit]
    refine ⟨.visit hreading hvisit hrefused rfl (hnot _) (hcounts _) ?_, rfl, rfl, rfl⟩
    rw [weights_of_counts hroute]
    exact htotal _
  | none =>
    cases hnode : g.node with
    | nil =>
      have hend : g.Ended cfg := ⟨fun _ => (hreading.visit_eq_none hvisit).1, fun _ => hnode⟩
      have hstop : fetchCount cfg g l = ({ g with lock := none }, { l with exhaustedScan := true, pc := .unregister }) := by
        simp [fetchCount, hvisit, hnode]
      rw [hstop]
      refine ⟨.local hreading hl rfl (fun _ => hend) (fun _ => rfl) ⟨rfl, fun h => absurd hroute h⟩ ?_, rfl, rfl, ?_⟩
      · simp only [LocalState.total, hflight]
        rfl
      · rw [active_of_not_exhausted hexhausted]
        exact active_of_pc (by simp) (by simp)
    | cons row node =>
      simp only [fetchCount, hvisit, hnode]
      refine ⟨.take hreading hl hparallel hnode rfl (hnot _) (hcounts _) ?_, rfl, rfl, rfl⟩
      rw [show cfg.weight row = cfg.count row from if_pos hroute]
      exact htotal _

/-- After a batch the thread unregisters, as it has seen the end, or it goes on. -/
theorem batch_converted {index got column : Nat} {locked exhausted : Bool} {lock : Option Nat} {pc : Pc}
    (hpc : l.pc = .convert index got column locked)
    (hnext : pc = .unregister ∨ exhausted = false ∧ (pc = .emit ∨ pc = .batch (index + 1) ∨ pc = .fetch (index + 1) 0))
    (hended : exhausted = true → g.Ended cfg)
    (hfilled : LocalState.Filled cfg { l with outputVectorSize := l.outputVectorSize + got, exhaustedScan := exhausted } pc) :
    Turned cfg g l ({ g with lock := lock },
      { l with outputVectorSize := l.outputVectorSize + got, exhaustedScan := exhausted, pc := pc }) := by
  have hactive : l.active = l.slots := active_of_pc (by simp [hpc]) (by simp [hpc])
  rcases hnext with rfl | ⟨rfl, rfl | rfl | rfl⟩
  all_goals
    refine ⟨.local hreading hl rfl ?_ (fun _ => rfl) hfilled ?_, rfl, rfl, ?_⟩
    · rintro (h | ⟨-, h⟩)
      · exact hended h
      · cases h
    · simp only [LocalState.total, LocalState.inFlight, hpc]
      omega
    · rw [hactive]
      first | exact active_of_not_exhausted rfl | exact active_of_pc (by simp) (by simp)

theorem convertTuples_turned {index got column : Nat} {locked : Bool} (hpc : l.pc = .convert index got column locked) :
    Turned cfg g l (convertTuples cfg g l index got) := by
  obtain ⟨hindex, hsize, hgot, hcount, hparallel, hprocess⟩ := filledAt hl hpc
  -- The chunk has room for the batch, and a full batch fills its part of it.
  have hroom : l.outputVectorSize + got ≤ standardVectorSize := by
    simp only [standardVectorSize, slotBatchSize, numBatches] at *
    omega
  have hnext : ¬ got < slotBatchSize → l.outputVectorSize + got = slotBatchSize * (index + 1) := by
    intro hfull
    rw [Nat.mul_add]
    omega
  unfold convertTuples
  cases hroute : cfg.route with
  | countOnly => exact absurd hroute hcount
  | inProcess =>
    have hexhausted : l.exhaustedScan = false := hprocess hroute
    simp only [hexhausted]
    split_ifs with hfull hmore
    · have hend : g.Ended cfg := hl.ended (.inr ⟨hroute, by simp [hpc, hfull]⟩)
      exact batch_converted hreading hl hpc (.inl rfl) (fun _ => hend) ⟨rfl, fun _ => hroom⟩
    · exact batch_converted hreading hl hpc (.inr ⟨rfl, .inr (.inr rfl)⟩) nofun
        ⟨rfl, hmore, fun h => absurd h hcount, fun _ => ⟨hnext hfull, by decide⟩⟩
    · exact batch_converted hreading hl hpc (.inr ⟨rfl, .inl rfl⟩) nofun ⟨fun _ => hroom, fun h => absurd h hcount⟩
  | parallel =>
    cases hexhausted : l.exhaustedScan with
    | true =>
      exact batch_converted hreading hl hpc (.inl rfl) (fun _ => hl.ended (.inl hexhausted)) ⟨rfl, fun _ => hroom⟩
    | false =>
      have hfull : ¬ got < slotBatchSize := by
        intro h
        rw [(hparallel hroute).2 h] at hexhausted
        cases hexhausted
      simp only [Bool.false_eq_true, if_false]
      split_ifs with hmore
      · exact batch_converted hreading hl hpc (.inr ⟨rfl, .inr (.inl rfl)⟩) nofun ⟨rfl, hmore, hnext hfull⟩
      · exact batch_converted hreading hl hpc (.inr ⟨rfl, .inl rfl⟩) nofun ⟨fun _ => hroom, fun h => absurd h hcount⟩

theorem column_turned {index got column next : Nat} {locked locked' : Bool} {lock : Option Nat}
    (hpc : l.pc = .convert index got column locked) :
    Turned cfg g l ({ g with lock := lock }, { l with pc := .convert index got next locked' }) := by
  have hflight : l.inFlight = got := by simp [LocalState.inFlight, hpc]
  refine ⟨.local hreading hl rfl (fun h => hl.ended ?_) (fun h => hflight ▸ (hl.refused h).2)
    (filledAt hl hpc) ?_, rfl, rfl, ?_⟩
  · simpa [LocalState.AtEnd, hpc] using h
  · simp only [LocalState.total, hflight]
    rfl
  · rw [active_of_pc (by simp) (by simp), active_of_pc (by simp [hpc]) (by simp [hpc])]

theorem insertTuplesIntoChunk_turned {index got column thread : Nat} {locked : Bool}
    (hpc : l.pc = .convert index got column locked)
    (h : insertTuplesIntoChunk cfg thread g l index got column locked = some (g', l')) : Turned cfg g l (g', l') := by
  have hend : some (convertTuples cfg g l index got) = some (g', l') → Turned cfg g l (g', l') := by
    intro h
    rw [← Option.some.inj h]
    exact convertTuples_turned hreading hl hpc
  unfold insertTuplesIntoChunk at h
  split at h
  · cases h
    exact column_turned hreading hl hpc
  · split at h
    · exact hend h
    · split at h
      · exact hend h
      · cases h
        exact column_turned hreading hl hpc
      · obtain ⟨-, h⟩ := Option.ite_none_right_eq_some.mp h
        cases h
        exact column_turned hreading hl hpc

/-- The turn in which a thread unregisters. -/
structure Leaves (g g' : Shared R) (l l' : LocalState) : Prop where
  shared : g' = g.unregisterLocalState
  before : l.active = l.slots
  after : l'.active = false
  exhausted : l'.exhaustedScan = true

theorem unregister_passed (hpc : l.pc = .unregister) :
    Passed cfg g g.unregisterLocalState l { l with pc := .emit } ∧
      Leaves g g.unregisterLocalState l { l with pc := .emit } := by
  obtain ⟨hexhausted, hsize⟩ := filledAt hl hpc
  obtain ⟨registered, cleanups, hg⟩ := unregisterLocalState_eq g
  refine ⟨?_, rfl, active_of_pc (by simp [hpc]) (by simp [hpc]), ?_, hexhausted⟩
  · rw [hg]
    refine .local hreading hl rfl (fun h => ended_of_exhausted hl h (by simp) id) (fun _ => rfl) ⟨hsize, fun _ => hexhausted⟩ ?_
    simp [LocalState.total, LocalState.inFlight, hpc]
  · simp [LocalState.active, LocalState.left, hexhausted]

theorem turn_passed {thread : Nat} (hrefused : l.slots = false → g.reader.channels = [])
    (h : turn cfg thread g l = some (g', l')) :
    Passed cfg g g' l l' ∧ (Kept g g' l l' ∨ Leaves g g' l l') := by
  have hkept : ∀ p, p = (g', l') → Turned cfg g l p → Passed cfg g g' l l' ∧ (Kept g g' l l' ∨ Leaves g g' l l') := by
    rintro _ rfl hturned
    exact ⟨hturned.1, .inl hturned.2⟩
  cases hpc : l.pc with
  | idle =>
    simp only [turn, hpc, Option.some.injEq] at h
    exact hkept _ h (idle_turned hreading hl hpc)
  | batch index =>
    simp only [turn, hpc, Option.ite_none_right_eq_some, Option.some.injEq] at h
    exact hkept _ h.2 (batch_turned hreading hl thread hpc)
  | fetch index got =>
    simp only [turn, hpc, Option.ite_none_right_eq_some, Option.some.injEq] at h
    refine hkept _ h.2 ?_
    cases hroute : cfg.route with
    | parallel => exact fetchWorkerTuple_turned hreading hl hroute hpc hrefused
    | inProcess => exact fetchInProcessTuple_turned hreading hl hroute hpc
    | countOnly => exact fetchCount_turned hreading hl hroute hpc hrefused
  | convert index got column locked =>
    simp only [turn, hpc] at h
    exact hkept _ rfl (insertTuplesIntoChunk_turned hreading hl hpc h)
  | unregister =>
    simp only [turn, hpc, Option.ite_none_right_eq_some, Option.some.injEq] at h
    cases h.2
    have hunregister := unregister_passed hreading hl hpc
    exact ⟨hunregister.1, .inr hunregister.2⟩
  | emit =>
    simp only [turn, hpc, Option.some.injEq] at h
    exact hkept _ h (emit_turned hreading hl hpc)

end Turns

/-! ## What holds of all threads at any moment -/

/-- Before the reader is closed, all threads were registered and those that have not left are counted. Afterwards every
registered thread has left, and a thread that is created finds no queue. What the threads have got is what the reader has
produced. -/
structure Steady (cfg : Config R) (s : ScanState R) : Prop where
  reading : Reading cfg.parts s.shared.reader
  node : s.shared.taken ++ s.shared.node = cfg.rows
  single : cfg.route ≠ .parallel → s.locals.length ≤ 1
  sound : ∀ l ∈ s.locals, l.Sound cfg s.shared
  counted : (s.locals.map LocalState.total).sum = s.shared.produced cfg
  opened : s.shared.cleanups = 0 →
    s.shared.registeredLocalStates = s.locals.countP LocalState.active ∧ ∀ l ∈ s.locals, l.slots = true
  closed : s.shared.cleanups ≠ 0 →
    s.shared.cleanups = 1 ∧ s.shared.registeredLocalStates < 0 ∧ s.locals ≠ [] ∧
      (∀ l ∈ s.locals, l.active = false) ∧ (cfg.route = .parallel → s.shared.reader.channels = [])

section Steady

variable {cfg : Config R} {s t : ScanState R}

theorem steady_start (cfg : Config R) : Steady cfg (.start cfg) where
  reading := reading_start cfg.parts
  node := rfl
  single := fun _ => Nat.zero_le _
  sound := nofun
  counted := rfl
  opened := fun _ => ⟨rfl, nofun⟩
  closed := fun h => absurd rfl h

theorem LocalState.Sound.drained {g g' : Shared R} {l : LocalState} (hl : l.Sound cfg g)
    (h : g.reader.channels = [] → g'.reader.channels = []) (hnode : g.node = [] → g'.node = []) : l.Sound cfg g' :=
  ⟨fun hend => ⟨fun hroute => h ((hl.ended hend).1 hroute), fun hroute => hnode ((hl.ended hend).2 hroute)⟩, hl.refused,
    hl.filled⟩

theorem Steady.refused (hs : Steady cfg s) {l : LocalState} (hl : l ∈ s.locals) (h : l.slots = false) :
    s.shared.reader.channels = [] := by
  have hclosed : s.shared.cleanups ≠ 0 := by
    intro hopen
    rw [(hs.opened hopen).2 l hl] at h
    cases h
  exact (hs.closed hclosed).2.2.2.2 ((hs.sound l hl).refused h).1

theorem worker_reader {e : Event} {r r' : Reader R} (he : e ≠ .visit) (h : r.after e = some r') :
    r'.delivered = r.delivered ∧ (r.channels = [] → r'.channels = []) := by
  cases e with
  | visit => exact absurd rfl he
  | produce i | detach i =>
    simp only [Reader.after] at h
    split at h
    · cases h
      exact ⟨rfl, fun hnil => by simp [hnil]⟩
    · cases h

theorem Steady.worker {e : Event} {reader : Reader R} (hs : Steady cfg s) (he : e ≠ .visit)
    (h : s.shared.reader.after e = some reader) :
    Steady cfg { s with shared := { s.shared with reader := reader } } := by
  obtain ⟨hdelivered, hnil⟩ := worker_reader he h
  refine ⟨hs.reading.step ⟨e, h⟩, hs.node, hs.single, fun l hl => (hs.sound l hl).drained hnil id, ?_, hs.opened,
    fun hclosed => ?_⟩
  · have hcounted := hs.counted
    rw [Shared.produced] at hcounted ⊢
    rw [hdelivered]
    exact hcounted
  · obtain ⟨hone, hnegative, hne, hleft, hdrained⟩ := hs.closed hclosed
    exact ⟨hone, hnegative, hne, hleft, fun hroute => hnil (hdrained hroute)⟩

theorem Steady.create (hs : Steady cfg s) (h : s.locals.length < cfg.maxThreads) :
    Steady cfg ⟨s.shared.createLocalState.1, s.locals ++ [s.shared.createLocalState.2]⟩ := by
  have hsingle : cfg.route ≠ .parallel → s.locals = [] := by
    intro hroute
    rw [Config.maxThreads, if_neg hroute] at h
    exact List.length_eq_zero_iff.1 (by omega)
  have hlength : cfg.route ≠ .parallel → ∀ l : LocalState, (s.locals ++ [l]).length ≤ 1 := by
    intro hroute l
    simp [hsingle hroute]
  by_cases hopen : s.shared.cleanups = 0
  · obtain ⟨hregistered, hslots⟩ := hs.opened hopen
    have hcreate : s.shared.createLocalState =
        ({ s.shared with registeredLocalStates := s.shared.registeredLocalStates + 1 }, ⟨true, 0, false, .idle, 0⟩) :=
      if_neg (by omega)
    rw [hcreate]
    refine ⟨hs.reading, hs.node, fun hroute => hlength hroute _, ?_, ?_, fun _ => ⟨?_, ?_⟩,
      fun hclosed => absurd hopen hclosed⟩
    · refine List.forall_mem_append.2 ⟨fun l hl => (hs.sound l hl).drained id id, List.forall_mem_singleton.2 ?_⟩
      exact ⟨by simp [LocalState.AtEnd], by simp, fun _ => rfl, fun _ => rfl⟩
    · simpa [LocalState.total, LocalState.inFlight, Shared.produced] using hs.counted
    · simp [hregistered, LocalState.active, LocalState.left]
    · exact List.forall_mem_append.2 ⟨hslots, List.forall_mem_singleton.2 rfl⟩
  · obtain ⟨hone, hnegative, hne, hleft, hdrained⟩ := hs.closed hopen
    have hroute : cfg.route = .parallel := by
      by_contra hroute
      exact hne (hsingle hroute)
    have hcreate : s.shared.createLocalState = (s.shared, ⟨false, 0, false, .idle, 0⟩) := if_pos hnegative
    rw [hcreate]
    refine ⟨hs.reading, hs.node, fun hroute => hlength hroute _, ?_, ?_, fun h => absurd h hopen,
      fun _ => ⟨hone, hnegative, by simp, ?_, hdrained⟩⟩
    · refine List.forall_mem_append.2 ⟨hs.sound, List.forall_mem_singleton.2 ?_⟩
      exact ⟨by simp [LocalState.AtEnd], fun _ => ⟨hroute, rfl⟩, fun _ => rfl, fun _ => rfl⟩
    · simpa [LocalState.total, LocalState.inFlight] using hs.counted
    · exact List.forall_mem_append.2 ⟨hleft, List.forall_mem_singleton.2 rfl⟩

theorem locals_split {ls : List LocalState} {thread : Nat} {l : LocalState} (h : ls[thread]? = some l) :
    ∃ xs ys, ls = xs ++ l :: ys ∧ ∀ l', ls.set thread l' = xs ++ l' :: ys := by
  obtain ⟨hlt, hget⟩ := List.getElem?_eq_some_iff.1 h
  refine ⟨ls.take thread, ls.drop (thread + 1), ?_, fun l' => ?_⟩
  · rw [← hget, ← List.drop_eq_getElem_cons hlt, List.take_append_drop]
  · rw [List.set_eq_take_append_cons_drop, if_pos hlt]

section Act

variable {xs ys : List LocalState} {l l' : LocalState} {g' : Shared R} (hs : Steady cfg s)
  (hlocals : s.locals = xs ++ l :: ys)

include hlocals in
theorem mem_of_turn {k : LocalState} (hk : k ∈ xs ++ l' :: ys) : k = l' ∨ k ∈ s.locals := by
  simp only [hlocals, List.mem_append, List.mem_cons] at hk ⊢
  tauto

include hs hlocals in
theorem Steady.leaves_counted (hopen : s.shared.cleanups = 0) (hleaves : Leaves s.shared g' l l') :
    s.shared.registeredLocalStates - 1 = (xs ++ l' :: ys).countP LocalState.active := by
  obtain ⟨hregistered, hslots⟩ := hs.opened hopen
  have hactive : l.active = true := by
    rw [hleaves.before]
    exact hslots l (by simp [hlocals])
  rw [hlocals] at hregistered
  simp only [List.countP_append, List.countP_cons, hactive, hleaves.after, if_true] at hregistered ⊢
  simp only [Bool.false_eq_true, if_false]
  omega

include hs hlocals in
theorem Steady.act_opened (hpassed : Passed cfg s.shared g' l l') (hkind : Kept s.shared g' l l' ∨ Leaves s.shared g' l l')
    (hopen : g'.cleanups = 0) :
    g'.registeredLocalStates = (xs ++ l' :: ys).countP LocalState.active ∧ ∀ k ∈ xs ++ l' :: ys, k.slots = true := by
  have hslots : s.shared.cleanups = 0 → ∀ k ∈ xs ++ l' :: ys, k.slots = true := by
    intro hbefore k hk
    rcases mem_of_turn hlocals hk with rfl | hk
    · rw [hpassed.slots]
      exact (hs.opened hbefore).2 l (by simp [hlocals])
    · exact (hs.opened hbefore).2 k hk
  rcases hkind with hkept | hleaves
  · have hbefore : s.shared.cleanups = 0 := hkept.cleanups.symm.trans hopen
    have hregistered := (hs.opened hbefore).1
    rw [hlocals] at hregistered
    refine ⟨?_, hslots hbefore⟩
    simp only [List.countP_append, List.countP_cons, hkept.active] at hregistered ⊢
    rw [hkept.registered, hregistered]
  · rw [hleaves.shared, Shared.unregisterLocalState] at hopen ⊢
    by_cases hlast : s.shared.registeredLocalStates - 1 = 0
    · rw [if_pos hlast] at hopen
      exact absurd hopen (Nat.succ_ne_zero _)
    · rw [if_neg hlast] at hopen ⊢
      exact ⟨hs.leaves_counted hlocals hopen hleaves, hslots hopen⟩

include hs hlocals in
theorem Steady.act_closes (hpassed : Passed cfg s.shared g' l l')
    (hkind : Kept s.shared g' l l' ∨ Leaves s.shared g' l l') (hbefore : s.shared.cleanups = 0)
    (hclosed : g'.cleanups ≠ 0) :
    g'.cleanups = 1 ∧ g'.registeredLocalStates < 0 ∧ (∀ k ∈ xs ++ l' :: ys, k.active = false) ∧
      (cfg.route = .parallel → g'.reader.channels = []) := by
  rcases hkind with hkept | hleaves
  · exact absurd (hkept.cleanups.trans hbefore) hclosed
  have hended : cfg.route = .parallel → g'.reader.channels = [] := fun hroute =>
    (hpassed.sound.ended (.inl hleaves.exhausted)).1 (by simp [hroute])
  have hcounted := hs.leaves_counted hlocals hbefore hleaves
  rw [hleaves.shared, Shared.unregisterLocalState] at hclosed
  by_cases hlast : s.shared.registeredLocalStates - 1 = 0
  · have hnone : (xs ++ l' :: ys).countP LocalState.active = 0 := by omega
    have hshared : g' = { s.shared with registeredLocalStates := -1, cleanups := s.shared.cleanups + 1 } := by
      rw [hleaves.shared, Shared.unregisterLocalState, if_pos hlast]
    refine ⟨?_, ?_, fun k hk => by simpa using List.countP_eq_zero.1 hnone k hk, hended⟩
    · rw [hshared, hbefore]
    · rw [hshared]
      exact (by decide : (-1 : Int) < 0)
  · rw [if_neg hlast] at hclosed
    exact absurd hbefore hclosed

include hs hlocals in
theorem Steady.act_closed (hpassed : Passed cfg s.shared g' l l')
    (hkind : Kept s.shared g' l l' ∨ Leaves s.shared g' l l') (hbefore : s.shared.cleanups ≠ 0) :
    g'.cleanups = 1 ∧ g'.registeredLocalStates < 0 ∧ (∀ k ∈ xs ++ l' :: ys, k.active = false) ∧
      (cfg.route = .parallel → g'.reader.channels = []) := by
  obtain ⟨hone, hnegative, -, hleft, hdrained⟩ := hs.closed hbefore
  have hl' : l'.active = false := by
    rcases hkind with hkept | hleaves
    · rw [hkept.active]
      exact hleft l (by simp [hlocals])
    · exact hleaves.after
  have hshared : g'.cleanups = s.shared.cleanups ∧ g'.registeredLocalStates < 0 := by
    rcases hkind with hkept | hleaves
    · exact ⟨hkept.cleanups, hkept.registered ▸ hnegative⟩
    · rw [hleaves.shared, Shared.unregisterLocalState, if_neg (by omega)]
      exact ⟨rfl, by dsimp only; omega⟩
  refine ⟨hshared.1.trans hone, hshared.2, fun k hk => ?_, fun hroute => hpassed.drained (hdrained hroute)⟩
  rcases mem_of_turn hlocals hk with rfl | hk
  · exact hl'
  · exact hleft k hk

end Act

theorem Steady.act {thread : Nat} {l l' : LocalState} {g' : Shared R} (hs : Steady cfg s)
    (hthread : s.locals[thread]? = some l) (h : turn cfg thread s.shared l = some (g', l')) :
    Steady cfg ⟨g', s.locals.set thread l'⟩ := by
  have hmem : l ∈ s.locals := List.mem_of_getElem? hthread
  obtain ⟨hpassed, hkind⟩ := turn_passed hs.reading (hs.sound l hmem) (hs.refused hmem) h
  obtain ⟨xs, ys, hlocals, hset⟩ := locals_split hthread
  rw [hset]
  refine ⟨hpassed.reading, hpassed.node.trans hs.node, fun hroute => ?_, fun k hk => ?_, ?_,
    hs.act_opened hlocals hpassed hkind, fun hclosed => ?_⟩
  · have hsingle := hs.single hroute
    rw [hlocals] at hsingle
    simpa using hsingle
  · rcases mem_of_turn hlocals hk with rfl | hk
    · exact hpassed.sound
    · exact (hs.sound k hk).drained hpassed.drained hpassed.emptied
  · have hcounted := hs.counted
    have hturn := hpassed.counted
    rw [hlocals] at hcounted
    simp only [List.map_append, List.map_cons, List.sum_append, List.sum_cons] at hcounted ⊢
    omega
  · obtain ⟨hone, hnegative, hleft, hdrained⟩ : g'.cleanups = 1 ∧ g'.registeredLocalStates < 0 ∧
        (∀ k ∈ xs ++ l' :: ys, k.active = false) ∧ (cfg.route = .parallel → g'.reader.channels = []) := by
      by_cases hbefore : s.shared.cleanups = 0
      · exact hs.act_closes hlocals hpassed hkind hbefore hclosed
      · exact hs.act_closed hlocals hpassed hkind hbefore
    exact ⟨hone, hnegative, by simp, hleft, hdrained⟩

theorem Steady.step (hs : Steady cfg s) (h : ScanState.Step cfg s t) : Steady cfg t := by
  obtain ⟨a, ha⟩ := h
  cases a with
  | worker e =>
    simp only [ScanState.after, Option.ite_none_left_eq_some, Option.map_eq_some_iff] at ha
    obtain ⟨he, reader, hreader, rfl⟩ := ha
    exact hs.worker he hreader
  | create =>
    simp only [ScanState.after, Option.ite_none_right_eq_some, Option.some.injEq] at ha
    obtain ⟨⟨-, hlength⟩, rfl⟩ := ha
    exact hs.create hlength
  | act thread =>
    simp only [ScanState.after] at ha
    split at ha
    · cases ha
    · rename_i l hthread
      obtain ⟨⟨g', l'⟩, hturn, rfl⟩ := Option.map_eq_some_iff.1 ha
      exact hs.act hthread hturn

theorem steady_run (h : Relation.ReflTransGen (ScanState.Step cfg) (.start cfg) s) : Steady cfg s :=
  run_invariant (fun _ _ hs hstep => hs.step hstep) h (steady_start cfg)

end Steady

/-! ## What follows -/

/-- The calls of the thread have come to the end and all it has got is given out. -/
def LocalState.Finished (l : LocalState) : Prop := l.exhaustedScan = true ∧ l.pc = .idle ∧ l.outputVectorSize = 0

section Results

variable {cfg : Config R} {s : ScanState R}

theorem Steady.cleanups_le_one (hs : Steady cfg s) : s.shared.cleanups ≤ 1 := by
  by_cases hopen : s.shared.cleanups = 0
  · omega
  · exact Nat.le_of_eq (hs.closed hopen).1

theorem Steady.left_of_closed (hs : Steady cfg s) (hclosed : s.shared.cleanups ≠ 0) {l : LocalState} (hl : l ∈ s.locals)
    (hslots : l.slots = true) : l.left = true := by
  have hactive := (hs.closed hclosed).2.2.2.1 l hl
  simpa [LocalState.active, hslots] using hactive

theorem Steady.open_of_touches (hs : Steady cfg s) {a : Action} (h : s.touches cfg a = true) :
    s.shared.cleanups = 0 := by
  by_contra hclosed
  obtain ⟨-, hnegative, -, hleft, -⟩ := hs.closed hclosed
  cases a with
  | worker e => cases h
  | create =>
    simp only [ScanState.touches, decide_eq_true_eq] at h
    omega
  | act thread =>
    simp only [ScanState.touches] at h
    split at h
    · cases h
    rename_i l hthread
    have hmem : l ∈ s.locals := List.mem_of_getElem? hthread
    -- In the middle of a batch the thread has not left, so it was refused.
    have hrefused : l.pc ≠ .emit → l.pc ≠ .idle → l.slots = false := fun hemit hidle => by
      rw [← active_of_pc hemit hidle]
      exact hleft l hmem
    split at h
    · rename_i index got hpc
      have hslots := hrefused (by simp [hpc]) (by simp [hpc])
      simp [((hs.sound l hmem).refused hslots).1, hs.refused hmem hslots] at h
    · rename_i index got hpc
      have hslots := hrefused (by simp [hpc]) (by simp [hpc])
      have hflight := ((hs.sound l hmem).refused hslots).2
      simp only [LocalState.inFlight, hpc] at hflight
      simp [hflight] at h
    · cases h

theorem Steady.emitted_of_finished (hs : Steady cfg s) (h : ∀ l ∈ s.locals, l.Finished) :
    (s.locals.map LocalState.emitted).sum = s.shared.produced cfg := by
  rw [← hs.counted]
  congr 1
  refine List.map_congr_left fun l hl => ?_
  obtain ⟨-, hpc, hsize⟩ := h l hl
  simp [LocalState.total, LocalState.inFlight, hpc, hsize]

theorem Steady.produced_of_ended (hs : Steady cfg s) (hend : s.shared.Ended cfg) : s.shared.produced cfg = cfg.total := by
  have hworkers : s.shared.reader.delivered.Perm cfg.parts.flatten := by
    have hrows := hs.reading.rows
    by_cases hroute : cfg.route = .inProcess
    · rw [cfg.serial hroute, List.flatten_nil, List.perm_nil, List.append_eq_nil_iff] at hrows
      rw [hrows.1, cfg.serial hroute, List.flatten_nil]
    · simpa [Reader.coming, hend.1 hroute] using hrows
  have hnode : s.shared.taken = cfg.rows := by
    have hrows := hs.node
    by_cases hroute : cfg.route = .parallel
    · rw [cfg.workersOnly hroute, List.append_eq_nil_iff] at hrows
      rw [hrows.1, cfg.workersOnly hroute]
    · simpa [hend.2 hroute] using hrows
  rw [Shared.produced, Config.total, hnode]
  exact ((hworkers.append_right _).map _).sum_nat

theorem drains (h : ∀ l ∈ s.locals, l.exhaustedScan = true ∧ l.pc = .idle) :
    ∃ t, Relation.ReflTransGen (ScanState.Step cfg) s t ∧ t.shared = s.shared ∧ ∀ l ∈ t.locals, l.Finished := by
  refine run_reaches (P := fun t => t.shared = s.shared ∧ ∀ l ∈ t.locals, l.exhaustedScan = true ∧ l.pc = .idle)
    (fun t => (t.locals.map LocalState.outputVectorSize).sum) ?_ ⟨rfl, h⟩
  rintro t ⟨hshared, ht⟩
  by_cases hfinished : ∀ l ∈ t.locals, l.outputVectorSize = 0
  · exact .inl ⟨hshared, fun l hl => ⟨(ht l hl).1, (ht l hl).2, hfinished l hl⟩⟩
  · push Not at hfinished
    obtain ⟨l, hl, hsize⟩ := hfinished
    obtain ⟨thread, hthread⟩ := List.mem_iff_getElem?.1 hl
    obtain ⟨hexhausted, hpc⟩ := ht l hl
    obtain ⟨xs, ys, hlocals, hset⟩ := locals_split hthread
    have hturn : turn cfg thread t.shared l = some (t.shared, setOutputCardinality l) := by
      simp [turn, hpc, hexhausted]
    have hless : (setOutputCardinality l).outputVectorSize < l.outputVectorSize := by
      have hpositive : 0 < standardVectorSize := by decide
      simp only [setOutputCardinality]
      split_ifs <;> omega
    refine .inr ⟨⟨t.shared, t.locals.set thread (setOutputCardinality l)⟩, ⟨.act thread, ?_⟩, ⟨hshared, ?_⟩, ?_⟩
    · simp only [ScanState.after, hthread, hturn]
      rfl
    · intro k hk
      rw [hset] at hk
      rcases mem_of_turn hlocals hk with rfl | hk
      · exact ⟨hexhausted, hpc⟩
      · exact ht k hk
    · rw [hset, hlocals]
      simp only [List.map_append, List.map_cons, List.sum_append, List.sum_cons]
      omega

/-- Whatever the order in which local states are created, threads go on and workers produce, the reader is closed at most
once, not before every registered thread has come to the end, and nothing of it is touched afterwards; and the threads that
have come to the end give out all that the reader has produced, which is then all that the scan is to produce. -/
theorem reader_shared_safely (cfg : Config R) {s : ScanState R}
    (h : Relation.ReflTransGen (ScanState.Step cfg) (.start cfg) s) :
    s.shared.cleanups ≤ 1 ∧
    (s.shared.cleanups ≠ 0 → ∀ l ∈ s.locals, l.slots = true → l.exhaustedScan = true ∧ l.left = true) ∧
    (∀ a, s.touches cfg a = true → s.shared.cleanups = 0) ∧
    (∀ l ∈ s.locals, l.exhaustedScan = true → s.shared.Ended cfg ∧ s.shared.produced cfg = cfg.total) ∧
    ((∀ l ∈ s.locals, l.Finished) → (s.locals.map LocalState.emitted).sum = s.shared.produced cfg) ∧
    ((∀ l ∈ s.locals, l.exhaustedScan = true ∧ l.pc = .idle) →
      ∃ t, Relation.ReflTransGen (ScanState.Step cfg) s t ∧ t.shared = s.shared ∧ (∀ l ∈ t.locals, l.Finished) ∧
        (t.locals.map LocalState.emitted).sum = s.shared.produced cfg) := by
  have hs := steady_run h
  refine ⟨hs.cleanups_le_one, fun hclosed l hl hslots => ?_, fun a => hs.open_of_touches, fun l hl hexhausted => ?_,
    hs.emitted_of_finished, fun hended => ?_⟩
  · have hleft := hs.left_of_closed hclosed hl hslots
    refine ⟨?_, hleft⟩
    simp only [LocalState.left, Bool.and_eq_true] at hleft
    exact hleft.1
  · have hend := (hs.sound l hl).ended (.inl hexhausted)
    exact ⟨hend, hs.produced_of_ended hend⟩
  · obtain ⟨t, hrun, hshared, hfinished⟩ := @drains _ cfg _ hended
    refine ⟨t, hrun, hshared, hfinished, ?_⟩
    rw [← hshared]
    exact (steady_run (h.trans hrun)).emitted_of_finished hfinished

end Results

/-- One worker with one row of one column that is converted under the lock, and up to two threads. -/
def oneWorker : Config Nat := ⟨.parallel, 2, [[7]], [], id, [false], by simp, by simp⟩

/-- The first thread reads the row, comes to the end and closes the reader; the second one is created afterwards. -/
def secondIsLate : List Action :=
  [.create, .worker (.produce 0), .worker (.detach 0)] ++ List.replicate 10 (.act 0) ++ [.create] ++
    List.replicate 6 (.act 1)

/-- A count of one worker and one of the executor node. -/
def twoCounts : Config Nat := ⟨.countOnly, 1, [[3000]], [5], id, [], by simp, by simp⟩

/-- A thread that is too late touches nothing; and a count of more than one chunk is given out in two. -/
theorem second_thread_refused :
    (∃ s, Relation.ReflTransGen (ScanState.Step oneWorker) (.start oneWorker) s ∧
      s.locals = [⟨true, 0, true, .idle, 1⟩, ⟨false, 0, true, .idle, 0⟩] ∧ s.shared.cleanups = 1 ∧
      (∀ a, s.touches oneWorker a = false)) ∧
    ∃ s, Relation.ReflTransGen (ScanState.Step twoCounts) (.start twoCounts) s ∧
      s.locals = [⟨true, 957, true, .idle, 2048⟩] ∧ s.shared.produced twoCounts = 3005 := by
  refine ⟨?_, ?_⟩
  · have hnext : ∀ (s : ScanState Nat) a t, s.after oneWorker a = some t → ScanState.Step oneWorker s t :=
      fun _ a _ ha => ⟨a, ha⟩
    obtain ⟨s, hrun, hs⟩ := trace_reaches hnext (.start oneWorker) secondIsLate
      (fun s => s.locals == [⟨true, 0, true, .idle, 1⟩, ⟨false, 0, true, .idle, 0⟩] && s.shared.cleanups == 1)
      (by decide)
    simp only [Bool.and_eq_true, beq_iff_eq] at hs
    refine ⟨s, hrun, hs.1, hs.2, fun a => ?_⟩
    by_contra htouches
    have hopen := (reader_shared_safely oneWorker hrun).2.2.1 a (by simpa using htouches)
    rw [hs.2] at hopen
    cases hopen
  · have hnext : ∀ (s : ScanState Nat) a t, s.after twoCounts a = some t → ScanState.Step twoCounts s t :=
      fun _ a _ ha => ⟨a, ha⟩
    obtain ⟨s, hrun, hs⟩ := trace_reaches hnext (.start twoCounts)
      ([.create, .worker (.produce 0), .worker (.detach 0)] ++ List.replicate 8 (.act 0))
      (fun s => s.locals == [⟨true, 957, true, .idle, 2048⟩]) (by decide)
    rw [beq_iff_eq] at hs
    have hended := (reader_shared_safely twoCounts hrun).2.2.2.1 _ (by rw [hs]; exact List.mem_cons_self) rfl
    exact ⟨s, hrun, hs, hended.2⟩

end PgDucklake.Scan
