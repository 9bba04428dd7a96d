import PgDucklake.Session.Statements

/-!
# The table path of a statement

Which path is applied when the trigger creates a table. A path is on its way between the hook and the trigger while it is
pending, and in force while it is the override; `Paths` is this part of the session.

A statement is quiet if neither it nor a statement inside it stashes or takes a path: it leaves the paths alone
(`quiet_stmt`). A statement with a path is tidy if the trigger takes it and nothing before the trigger does. Tidy statements
start and end with no path pending or in force (`tidy_stmt`), so each table gets the path of its own statement.
-/

namespace PgDucklake.Statements

open Lib Prog

/-! ## Paths -/

structure Paths where
  pending : Option String
  inForce : Option String
  applied : List (Option String × Option String)

def Session.paths (s : Session) : Paths := ⟨s.pending, s.tablePathOverride, s.applied⟩

/-- What the hook's error path leaves. -/
def Paths.dropped (stripped : Bool) (p : Paths) : Paths := if stripped then { p with pending := none } else p

/-- The hook finds a path and stashes it. -/
def Head.strips (h : Head) : Bool :=
  h.createsTable && h.usingDucklake && ((parseOptions h.options none).any fun r => r.1.isSome)

/-- The trigger fires and looks for a new table. -/
def Head.reachesTrigger (h : Head) : Bool := h.createsTable && h.tagged && !h.syncing && !h.skipped

/-- The trigger takes the pending path. -/
def Head.takes (h : Head) : Bool := h.reachesTrigger && h.makesDucklake && !h.temporary

mutual

def QuietStmt : Stmt → Prop
  | .mk h before after => h.strips = false ∧ h.takes = false ∧ QuietAll before ∧ QuietAll after

def QuietAll : Stmts → Prop
  | .nil => True
  | .cons _ stmt rest => QuietStmt stmt ∧ QuietAll rest

end

/-- The trigger gets to the path, and no error jumps over the destructor of the guard. -/
def Head.Delivers (h : Head) : Prop :=
  h.workFails = true ∨
    h.reachesTrigger = true ∧ (h.temporary = true ∨ h.tabledef ≠ .longjmp ∧ h.createQuery ≠ .longjmp)

mutual

def TidyStmt : Stmt → Prop
  | .mk h before after => (h.strips = true → h.Delivers ∧ QuietAll before) ∧ TidyAll before ∧ TidyAll after

def TidyAll : Stmts → Prop
  | .nil => True
  | .cons _ stmt rest => TidyStmt stmt ∧ TidyAll rest

end

/-- Each table got the path of its own statement. -/
def OwnPaths (applied : List (Option String × Option String)) : Prop := ∀ e ∈ applied, e.2 = e.1

/-- No path is pending or in force. -/
structure Paths.Settled (p : Paths) : Prop where
  pending : p.pending = none
  inForce : p.inForce = none
  own : OwnPaths p.applied

/-! ## Options -/

section Parse

theorem parseOptions_path {options rest : List DefElem} {parsed path : Option String}
    (h : parseOptions options parsed = some (path, rest)) :
    path = parsed.or ((options.find? fun d => d.isDucklakeNamespace && d.defname == "table_path").bind (·.arg)) := by
  induction options generalizing parsed rest with
  | nil =>
    simp only [parseOptions, Option.some.injEq, Prod.mk.injEq] at h
    simp [h.1]
  | cons d ds ih =>
    rw [parseOptions] at h
    by_cases hns : d.isDucklakeNamespace = true
    · by_cases hname : (d.defname == "table_path") = true
      · simp only [hns, hname, Bool.not_true, Bool.false_eq_true, if_false, if_true] at h
        -- a second path is an error, so nothing was parsed before
        cases parsed with
        | some p => simp at h
        | none =>
          cases harg : d.arg with
          | none => simp [harg] at h
          | some p =>
            simp only [harg, Option.isSome_none, Bool.false_eq_true, if_false, Option.ite_none_left_eq_some] at h
            have hpath := ih h.2
            simp [hns, hname, harg, hpath]
      · simp [hns, hname] at h
    · simp only [hns, Bool.not_false, if_true, Option.map_eq_some_iff, Prod.mk.injEq] at h
      obtain ⟨r, hr, rfl, -⟩ := h
      have hpath := ih hr
      simp [hns, hpath]

theorem tablePath_of_parse {h : Head} {path : Option String} {rest : List DefElem}
    (hparse : parseOptions h.options none = some (path, rest)) : h.tablePath = path := by
  have hpath := parseOptions_path hparse
  simpa [Head.tablePath] using hpath.symm

theorem tablePath_of_not_rejected {h : Head} (husing : h.usingDucklake = false) (hrej : h.rejected = false) :
    h.tablePath = none := by
  simp only [Head.rejected, husing, Bool.not_false, Bool.true_and, List.any_eq_false] at hrej
  have hfind : h.options.find? (fun d => d.isDucklakeNamespace && d.defname == "table_path") = none := by
    rw [List.find?_eq_none]
    intro d hd
    simp [hrej d hd]
  simp [Head.tablePath, hfind]

end Parse

/-! ## The hook -/

section Hook

variable {h : Head} {own : Nat} {before after : Prog Session Unit} {I J : Paths → Prop}

/-- The parts of the hook that keep `I`: the options part takes `I` to `J`, the trigger takes `J` back to `I`, and after an
error `I` holds of what the error path leaves. -/
structure HookKeeps (h : Head) (before after : Prog Session Unit) (I J : Paths → Prop) : Prop where
  strip : Spec (fun s => I s.paths) (stripOptions h) (Ends (fun b t => b = h.strips ∧ J t.paths) fun t => I t.paths)
  before : Keeps (fun s => J s.paths) before
  trigger : h.workFails = false → h.rejected = false → ∀ own, Spec (fun s => J s.paths)
    (when (h.createsTable && h.tagged) (createTableTrigger h own))
    (Ends (fun _ t => I t.paths) fun t => I (t.paths.dropped h.strips))
  after : Keeps (fun s => I s.paths) after
  pending : ∀ p, J p → I (p.dropped h.strips)
  settled : ∀ p, I p → I (p.dropped h.strips)

theorem paths_removeCtasQuery (s : Session) (query : Nat) : (s.removeCtasQuery query).paths = s.paths := by
  unfold Session.removeCtasQuery
  split <;> rfl

theorem HookKeeps.processUtility (k : HookKeeps h before after I J) :
    Spec (fun s => J s.paths) (processUtility h own before after)
      (Ends (fun _ t => I t.paths) fun t => I (t.paths.dropped h.strips)) := by
  unfold Statements.processUtility
  refine Spec.bind (Spec.mono k.before (fun _ hs => hs) (fun _ _ hs => hs) fun s hs => k.pending _ hs) fun _ => ?_
  have hwork : Spec (fun s : Session => J s.paths) (when (h.workFails || h.rejected) (call .longjmp))
      (Ends (fun _ t => (h.workFails = false ∧ h.rejected = false) ∧ J t.paths) fun t => I (t.paths.dropped h.strips)) :=
    spec_when (fun _ => spec_longjmp fun s hs => k.pending _ hs) fun hc s hs => ⟨Bool.or_eq_false_iff.mp hc, hs⟩
  refine hwork.bind fun _ => ?_
  have htrigger : Spec (fun s => (h.workFails = false ∧ h.rejected = false) ∧ J s.paths)
      (when (h.createsTable && h.tagged) (createTableTrigger h own))
      (Ends (fun _ t => I t.paths) fun t => I (t.paths.dropped h.strips)) :=
    fun s hs => k.trigger hs.1.1 hs.1.2 own s hs.2
  refine htrigger.bind fun _ => ?_
  refine Spec.bind (Spec.mono k.after (fun _ hs => hs) (fun _ _ hs => hs) fun s hs => k.settled _ hs) fun _ => ?_
  exact spec_when (fun _ => spec_longjmp fun s hs => k.settled _ hs) fun _ s hs => hs

theorem spec_hookCatch (b : Bool) : Spec (fun s => I (s.paths.dropped b)) (hookCatch h own b)
    (Ends (fun _ t => I t.paths) fun t => I t.paths) := by
  have hclear : Spec (fun s => I (s.paths.dropped b)) (when b clearPendingCreateOptions)
      (Ends (fun _ t => I t.paths) fun t => I t.paths) := by
    cases b with
    | true => exact spec_update fun s hs => hs
    | false => exact spec_pure fun s hs => hs
  refine hclear.bind fun _ => Spec.bind (A := fun _ t => I t.paths) ?_ fun _ => spec_longjmp fun s hs => hs
  exact spec_when (fun _ => spec_update fun s hs => (paths_removeCtasQuery s own).symm ▸ hs) fun _ s hs => hs

theorem HookKeeps.hookBody (k : HookKeeps h before after I J) :
    Keeps (fun s => I s.paths) (hookBody h own before after) := by
  unfold Statements.hookBody
  refine k.strip.bind fun b => ?_
  have hpush : Spec (fun s : Session => b = h.strips ∧ J s.paths) (when h.isCtas (pushPendingCtasQuery own))
      (Ends (fun _ t => b = h.strips ∧ J t.paths) fun t => I t.paths) :=
    spec_when (fun _ => spec_update fun s hs => hs) fun _ s hs => hs
  refine hpush.bind fun _ => ?_
  have hrun : Spec (fun s : Session => b = h.strips ∧ J s.paths)
      (pgTry (Statements.processUtility h own before after) (hookCatch h own b))
      (Ends (fun _ t => I t.paths) fun t => I t.paths) := by
    rintro s ⟨rfl, hs⟩
    exact k.processUtility.pgTry (spec_hookCatch h.strips) s hs
  refine hrun.bind fun _ => ?_
  exact spec_when (fun _ => spec_update fun s hs => (paths_removeCtasQuery s own).symm ▸ hs) fun _ s hs => hs

theorem spec_stripOptions (hJ : ∀ p, I p → (h.createsTable = true → h.usingDucklake = true →
      ∃ rest, parseOptions h.options none = some (h.tablePath, rest)) →
      J (if h.strips then { p with pending := h.tablePath } else p)) :
    Spec (fun s => I s.paths) (stripOptions h) (Ends (fun b t => b = h.strips ∧ J t.paths) fun t => I t.paths) := by
  intro s hs
  unfold stripOptions
  split
  · rename_i hducklake
    rw [Bool.and_eq_true] at hducklake
    unfold stripDucklakeCreateOptions
    rcases hparse : parseOptions h.options none with _ | ⟨_ | path, rest⟩
    · exact hs
    · have hstrips : h.strips = false := by simp [Head.strips, hparse]
      have hpath := tablePath_of_parse hparse
      have hj := hJ s.paths hs fun _ _ => ⟨rest, hpath ▸ hparse⟩
      rw [hstrips] at hj
      exact ⟨hstrips.symm, hj⟩
    · have hstrips : h.strips = true := by simp [Head.strips, hducklake, hparse]
      have hpath := tablePath_of_parse hparse
      have hj := hJ s.paths hs fun _ _ => ⟨rest, hpath ▸ hparse⟩
      rw [hstrips, hpath] at hj
      exact ⟨hstrips.symm, hj⟩
  · rename_i hducklake
    have hstrips : h.strips = false := by
      simp only [Head.strips, Bool.not_eq_true _ ▸ hducklake, Bool.false_and]
    have hj := hJ s.paths hs fun hc hu => absurd (Bool.and_eq_true_iff.mpr ⟨hc, hu⟩) hducklake
    rw [hstrips] at hj
    exact ⟨hstrips.symm, hj⟩

end Hook

/-! ## The trigger -/

section Trigger

variable {h : Head} {own : Nat}

theorem paths_fillFromQuery (s : Session) : (fillFromQuery h own s).2.paths = s.paths := by
  cases hq : s.pendingCtasQueries <;> simp [fillFromQuery, takePendingCtasQuery, hq] <;> rfl

theorem createStatements_ne_longjmp (s : Session) (htab : h.tabledef ≠ .longjmp) (hquery : h.createQuery ≠ .longjmp) :
    (createStatements h s).1 ≠ .longjmp := by
  cases hexit : h.tabledef with
  | ret a => simpa [createStatements, hexit] using hquery
  | longjmp => exact absurd hexit htab
  | thrown => simp [createStatements, hexit]

theorem createStatements_own {s : Session} (hforce : s.tablePathOverride = h.tablePath) (hown : OwnPaths s.applied) :
    (createStatements h s).2.pending = s.pending ∧ (createStatements h s).2.tablePathOverride = h.tablePath ∧
      OwnPaths (createStatements h s).2.applied := by
  rcases createStatements_state s with heq | heq
  · rw [heq]
    exact ⟨rfl, hforce, hown⟩
  · rw [heq]
    refine ⟨rfl, hforce, fun e he => ?_⟩
    rcases List.mem_append.mp he with he | he
    · exact hown e he
    · rw [List.mem_singleton.mp he]
      exact hforce

theorem createInDuckDB_settled {s : Session} (hs : s.paths.Settled)
    (hguard : h.tablePath.isSome = true → h.tabledef ≠ .longjmp ∧ h.createQuery ≠ .longjmp) :
    (createInDuckDB h h.tablePath s).2.paths.Settled := by
  cases hpath : h.tablePath with
  | none =>
    have hrun : createInDuckDB h none s = createStatements h s := destructing_id s (createStatements h)
    obtain ⟨hpending, hforce, hown⟩ := createStatements_own (hs.inForce.trans hpath.symm) hs.own
    rw [hrun]
    exact ⟨hpending.trans hs.pending, hforce.trans hpath, hown⟩
  | some path =>
    obtain ⟨htab, hquery⟩ := hguard (by rw [hpath]; rfl)
    have hrun : (createInDuckDB h (some path) s).2 =
        { (createStatements h { s with tablePathOverride := some path }).2 with tablePathOverride := none } :=
      destructing_of_ne _ (createStatements_ne_longjmp _ htab hquery)
    have hforce : ({ s with tablePathOverride := some path } : Session).tablePathOverride = h.tablePath := hpath.symm
    obtain ⟨hpending, -, hown⟩ := createStatements_own hforce hs.own
    rw [hrun]
    exact ⟨hpending.trans hs.pending, rfl, hown⟩

theorem trigger_passes {P : Session → Prop} (hfires : (h.createsTable && h.tagged) = true) (htakes : h.takes = false) :
    Keeps P (createTableTrigger h own) := by
  refine keeps_guarded fun s hs => ?_
  split_ifs with hskip hmakes hvariant htemp
  · exact hs
  · exact hs
  · exact hs
  · exact hs
  · simp only [Bool.not_eq_true, Bool.or_eq_false_iff, Bool.not_eq_false'] at hskip hmakes htemp
    simp [Head.takes, Head.reachesTrigger, hfires, hskip, hmakes, htemp] at htakes

theorem trigger_temporary {s : Session} (hreach : h.reachesTrigger = true) (hmakes : h.makesDucklake = true)
    (htemp : h.temporary = true) : createTableTrigger h own s = (.longjmp, s) := by
  simp only [Head.reachesTrigger, Bool.and_eq_true, Bool.not_eq_true'] at hreach
  simp [createTableTrigger, hreach.1.2, hreach.2, hmakes, htemp]

theorem trigger_takes (htakes : h.takes = true)
    (hguard : h.tablePath.isSome = true → h.tabledef ≠ .longjmp ∧ h.createQuery ≠ .longjmp) :
    Spec (fun s => s.pending = h.tablePath ∧ (s.paths.dropped true).Settled) (createTableTrigger h own)
      (Ends (fun _ t => t.paths.Settled) fun t => t.paths.Settled) := by
  simp only [Head.takes, Head.reachesTrigger, Bool.and_eq_true, Bool.not_eq_true'] at htakes
  obtain ⟨⟨⟨⟨-, hsync⟩, hskip⟩, hmakes⟩, htemp⟩ := htakes
  refine spec_guarded fun s hs => ?_
  obtain ⟨hpending, hdropped⟩ := hs
  simp only [hsync, hskip, hmakes, htemp, Bool.or_self, Bool.not_true, Bool.false_eq_true, if_false]
  have htaken : takePendingCreateOptions s = (.ret h.tablePath, { s with pending := none }) := by
    rw [← hpending]
    rfl
  rw [bind_run, htaken]
  have hsettled : ({ s with pending := none } : Session).paths.Settled := hdropped
  refine bind_keeps (Q := fun t : Session => t.paths.Settled) (createInDuckDB_settled hsettled hguard) fun _ t ht => ?_
  unfold when
  split
  · rw [paths_fillFromQuery]
    exact ht
  · exact ht

end Trigger

/-! ## Quiet statements -/

section Quiet

variable {h : Head}

theorem keeps_newQuery {I : Paths → Prop} : Keeps (fun s => I s.paths) newQuery := fun _ hs => hs

mutual

theorem quiet_stmt (I : Paths → Prop) : ∀ stmt, QuietStmt stmt →
    Keeps (fun s => I s.paths) (utilityHook stmt)
  | .mk h before after, hquiet => by
    obtain ⟨hstrips, htakes, hbefore, hafter⟩ := hquiet
    have hdropped : ∀ p : Paths, p.dropped h.strips = p := fun p => by rw [hstrips]; rfl
    rw [utilityHook]
    refine keeps_observed (keeps_newQuery.bind fun own => HookKeeps.hookBody (J := I) ?_) fun _ _ hs => hs
    refine ⟨spec_stripOptions fun p hp _ => ?_, quiet_all I before hbefore, fun _ _ own => ?_, quiet_all I after hafter,
      fun p hp => ?_, fun p hp => ?_⟩
    · rw [hstrips]
      exact hp
    · refine spec_when (fun hfires => ?_) fun _ s hs => hs
      exact Spec.mono (trigger_passes hfires htakes) (fun _ hs => hs) (fun _ _ hs => hs) fun s hs => by
        rw [hdropped]
        exact hs
    · rw [hdropped]
      exact hp
    · rw [hdropped]
      exact hp

theorem quiet_all (I : Paths → Prop) : ∀ stmts, QuietAll stmts →
    Keeps (fun s => I s.paths) (runAll stmts)
  | .nil, _ => by
    rw [runAll]
    exact keeps_pure ()
  | .cons _ stmt rest, hquiet => by
    rw [runAll]
    exact (keeps_caught (quiet_stmt I stmt hquiet.1) _).bind fun _ => quiet_all I rest hquiet.2

end

end Quiet

/-! ## Tidy statements -/

section Tidy

variable {h : Head} {before after : Prog Session Unit}

theorem Paths.Settled.dropped {p : Paths} (hp : p.Settled) (b : Bool) : (p.dropped b).Settled := by
  cases b with
  | true => exact ⟨rfl, hp.inForce, hp.own⟩
  | false => exact hp

/-- Inside a statement for which the hook stashed no path. -/
def Head.NothingPending (h : Head) (p : Paths) : Prop :=
  p.Settled ∧ (h.createsTable = true → h.usingDucklake = true → h.tablePath = none)

/-- Inside a statement whose path is on its way to the trigger. -/
def Head.PathPending (h : Head) (p : Paths) : Prop := p.pending = h.tablePath ∧ (p.dropped true).Settled

theorem hookKeeps_plain (hstrips : h.strips = false)
    (hbefore : Keeps (fun s => s.paths.Settled) before)
    (hafter : Keeps (fun s => s.paths.Settled) after) :
    HookKeeps h before after Paths.Settled h.NothingPending where
  strip := by
    refine spec_stripOptions (I := Paths.Settled) fun p hp hparse => ?_
    rw [hstrips]
    refine ⟨hp, fun hcreates husing => ?_⟩
    obtain ⟨rest, hrest⟩ := hparse hcreates husing
    simpa [Head.strips, hcreates, husing, hrest] using hstrips
  before := fun s hs => Spec.mono hbefore (fun _ ht => ht) (fun _ _ ht => ⟨ht, hs.2⟩) (fun _ ht => ⟨ht, hs.2⟩) s hs.1
  trigger := by
    intro _ hrejected own
    refine spec_when (fun hfires => ?_) fun _ s hs => hs.1
    rintro s ⟨hs, hnone⟩
    have hpath : h.tablePath = none := by
      cases husing : h.usingDucklake with
      | true => exact hnone (Bool.and_eq_true_iff.mp hfires).1 husing
      | false => exact tablePath_of_not_rejected husing hrejected
    cases htakes : h.takes with
    | true =>
      have hguard : h.tablePath.isSome = true → h.tabledef ≠ .longjmp ∧ h.createQuery ≠ .longjmp := by simp [hpath]
      exact (trigger_takes htakes hguard).mono (fun _ ht => ht) (fun _ _ ht => ht) (fun _ ht => ht.dropped _) s
        ⟨hs.pending.trans hpath.symm, hs.dropped true⟩
    | false =>
      exact Spec.mono (trigger_passes hfires htakes) (fun _ ht => ht) (fun _ _ ht => ht) (fun _ ht => ht.dropped _) s hs
  after := hafter
  pending := fun _ hp => hp.1.dropped _
  settled := fun _ hp => hp.dropped _

theorem hookKeeps_path (hstrips : h.strips = true) (hdelivers : h.Delivers)
    (hbefore : ∀ I : Paths → Prop, Keeps (fun s => I s.paths) before)
    (hafter : Keeps (fun s => s.paths.Settled) after) :
    HookKeeps h before after Paths.Settled h.PathPending where
  strip := by
    refine spec_stripOptions (I := Paths.Settled) fun p hp _ => ?_
    rw [hstrips]
    exact ⟨rfl, ⟨rfl, hp.inForce, hp.own⟩⟩
  before := hbefore h.PathPending
  trigger := by
    intro hwork _ own
    obtain hfails | ⟨hreach, hdelivered⟩ := hdelivers
    · rw [hwork] at hfails
      cases hfails
    have hmakes : h.makesDucklake = true := by
      simp only [Head.strips, Head.usingDucklake, Bool.and_eq_true, beq_iff_eq] at hstrips
      simp [Head.makesDucklake, hstrips.1.1, hstrips.1.2]
    rw [hstrips]
    refine spec_when (fun _ => ?_) fun hfires => ?_
    · cases htemp : h.temporary with
      | true =>
        intro s hs
        rw [trigger_temporary hreach hmakes htemp]
        exact hs.2
      | false =>
        have htakes : h.takes = true := by simp [Head.takes, hreach, hmakes, htemp]
        have hguard := hdelivered.resolve_left (by simp [htemp])
        exact (trigger_takes htakes fun _ => hguard).mono (fun _ hs => hs) (fun _ _ hs => hs) fun _ hs => hs.dropped true
    · simp only [Head.reachesTrigger, hfires, Bool.false_and, Bool.false_eq_true] at hreach
  after := hafter
  pending := fun p hp => by
    rw [hstrips]
    exact hp.2
  settled := fun _ hp => hp.dropped _

mutual

theorem tidy_stmt : ∀ stmt, TidyStmt stmt →
    Keeps (fun s => s.paths.Settled) (utilityHook stmt)
  | .mk h before after, htidy => by
    obtain ⟨hpath, hbefore, hafter⟩ := htidy
    rw [utilityHook]
    refine keeps_observed (keeps_newQuery.bind fun own => ?_) fun _ _ hs => hs
    cases hstrips : h.strips with
    | true =>
      obtain ⟨hdelivers, hquiet⟩ := hpath hstrips
      exact (hookKeeps_path hstrips hdelivers (fun I => quiet_all I before hquiet) (tidy_all after hafter)).hookBody
    | false => exact (hookKeeps_plain hstrips (tidy_all before hbefore) (tidy_all after hafter)).hookBody

theorem tidy_all : ∀ stmts, TidyAll stmts →
    Keeps (fun s => s.paths.Settled) (runAll stmts)
  | .nil, _ => by
    rw [runAll]
    exact keeps_pure ()
  | .cons _ stmt rest, htidy => by
    rw [runAll]
    exact (keeps_caught (tidy_stmt stmt htidy.1) _).bind fun _ => tidy_all rest htidy.2

end

end Tidy

/-! ## Sessions -/

/-- In a session of tidy statements each table gets the path of its own statement, and none if that has none. -/
theorem own_paths {stmts : Stmts} (h : TidyAll stmts) : OwnPaths (runAll stmts .start).2.applied := by
  have hstart : Session.start.paths.Settled := ⟨rfl, rfl, fun e he => by cases he⟩
  have hend := tidy_all stmts h .start hstart
  rcases hrun : runAll stmts .start with ⟨e, t⟩
  rw [hrun] at hend
  cases e with
  | ret a => exact Paths.Settled.own hend
  | longjmp => exact Paths.Settled.own hend
  | thrown => exact hend.elim

/-- `CREATE TABLE .. USING ducklake WITH (ducklake.table_path = ..)`. -/
def createWith (path : Option String) : Head :=
  .plain .create (some "ducklake") (path.toList.map fun p => ⟨some "ducklake", "table_path", some p⟩)

/-- Two statements at top level. -/
def inTurn (first second : Head) : Stmts :=
  .cons true (.mk first .nil .nil) (.cons true (.mk second .nil .nil) .nil)

theorem own_paths_in_turn : OwnPaths (runAll (inTurn (createWith (some "/a/")) (createWith none)) .start).2.applied :=
  own_paths ⟨⟨fun _ => ⟨Or.inr ⟨rfl, Or.inr ⟨nofun, nofun⟩⟩, trivial⟩, trivial, trivial⟩,
    ⟨nofun, trivial, trivial⟩, trivial⟩

/-- IF NOT EXISTS on a table that is there leaves its path pending, and an identity column, on which `get_tabledef` raises an
error, leaves it in force; the next table gets it. -/
theorem path_left_behind :
    (runAll (inTurn { createWith (some "/tmp/x/") with skipped := true } (createWith none)) .start).2.applied =
        [(none, some "/tmp/x/")] ∧
      (runAll (inTurn { createWith (some "/tmp/x/") with tabledef := .longjmp } (createWith none)) .start).2.applied =
        [(none, some "/tmp/x/")] := ⟨rfl, rfl⟩

end PgDucklake.Statements
