import PgDucklake.Alter.Commands

/-!
# Forwarding the executed subcommands

PostgreSQL skips `ADD COLUMN IF NOT EXISTS` for a column that is there and `DROP COLUMN IF EXISTS` for one that is not,
and collects them with an invalid address. The event trigger takes such subcommands out of the statement before it
forwards it to DuckLake (`filterSkippedMissingOkAlters`). It looks at the first collected subcommand of the same kind on
the same column, so a repeated subcommand is judged by its first copy; and what is forwarded is in the order of the
statement, not in that of PostgreSQL's passes. `valid_iff` says which subcommands of a statement PostgreSQL executes.
-/

namespace PgDucklake.Alter

/-- The names of a table's columns. -/
abbrev Columns := String → Bool

def Columns.set (p : Columns) (c : String) (present : Bool) : Columns := fun c' => if c' = c then present else p c'

/-! ## PostgreSQL's execution -/

/-- One subcommand: the columns after it and whether it has an address; `none` is an error. -/
def runCmd (p : Columns) : AlterTableCmd → Option (Columns × Bool)
  | .addColumn col missingOk =>
    if p col.colname then if missingOk then some (p, false) else none
    else some (p.set col.colname true, true)
  | .dropColumn name missingOk =>
    if p name then some (p.set name false, true)
    else if missingOk then some (p, false) else none
  | cmd =>
    match cmd.touched with
    | none => some (p, true)
    | some c => if p c then some (p, true) else none

/-- An entry of `CollectedCommand`, with the number of its subcommand. -/
structure CollectedATSubcmd where
  parsetree : AlterTableCmd
  place : Nat
  valid : Bool

structure Execution where
  columns : Columns
  collected : List CollectedATSubcmd

def runCmds (p : Columns) : List (AlterTableCmd × Nat) → Option Execution
  | [] => some ⟨p, []⟩
  | (cmd, place) :: cmds =>
    (runCmd p cmd).bind fun r =>
      (runCmds r.1 cmds).map fun e => { e with collected := ⟨cmd, place, r.2⟩ :: e.collected }

/-- `ALTER TABLE` in PostgreSQL. -/
def alterTable (p : Columns) (cmds : List AlterTableCmd) : Option Execution := runCmds p (byPass cmds)

/-- The subcommands that were executed, in the order of the statement. -/
def Execution.executed (e : Execution) (cmds : List AlterTableCmd) : List AlterTableCmd :=
  (cmds.zipIdx.filter fun x => e.collected.any fun s => s.place == x.2 && s.valid).map Prod.fst

/-! ## The filter of the event trigger -/

inductive Subtype
  | addColumn
  | dropColumn
  | other
  deriving DecidableEq, Repr

def AlterTableCmd.subtype : AlterTableCmd → Subtype
  | .addColumn .. => .addColumn
  | .dropColumn .. => .dropColumn
  | _ => .other

def alterColumnName : AlterTableCmd → Option String
  | .addColumn col _ => some col.colname
  | .dropColumn name _ => some name
  | _ => none

def AlterTableCmd.missingOk : AlterTableCmd → Bool
  | .addColumn _ missingOk => missingOk
  | .dropColumn _ missingOk => missingOk
  | .dropConstraint missingOk => missingOk
  | _ => false

/-- Of the same kind, on the same column. -/
def sameTarget (executed cmd : AlterTableCmd) : Bool :=
  executed.subtype == cmd.subtype && (alterColumnName cmd).isSome && alterColumnName executed == alterColumnName cmd

def skippedMissingOkAlter (cmd : AlterTableCmd) (collected : Option (List CollectedATSubcmd)) : Bool :=
  if !cmd.missingOk || cmd.subtype == .other then false
  else
    match collected with
    | none => false
    | some subcmds =>
      match subcmds.find? fun s => sameTarget s.parsetree cmd with
      | none => false
      | some s => !s.valid

def filterSkippedMissingOkAlters (cmds : List AlterTableCmd)
    (collected : Option (List CollectedATSubcmd)) : List AlterTableCmd :=
  cmds.filter fun cmd => !skippedMissingOkAlter cmd collected

/-! ## Subcommands by what they do to the columns -/

inductive ColumnAction
  | add (c : String) (missingOk : Bool)
  | drop (c : String) (missingOk : Bool)
  | touch (c : Option String)

def AlterTableCmd.action : AlterTableCmd → ColumnAction
  | .addColumn col missingOk => .add col.colname missingOk
  | .dropColumn name missingOk => .drop name missingOk
  | cmd => .touch cmd.touched

def adds (c : String) (cmd : AlterTableCmd) : Bool :=
  match cmd.action with
  | .add c' _ => c' == c
  | _ => false

def drops (c : String) (cmd : AlterTableCmd) : Bool :=
  match cmd.action with
  | .drop c' _ => c' == c
  | _ => false

/-! ## The condition -/

/-- What the filter leaves of a statement: drops of columns that are there, additions of columns that are not there or
dropped by the statement, and all else. -/
def kept (p : Columns) (cmds : List AlterTableCmd) (cmd : AlterTableCmd) : Bool :=
  match cmd.action with
  | .add c _ => !p c || cmds.any (drops c)
  | .drop c _ => p c
  | .touch _ => true

/-- No subcommand that the filter leaves repeats an earlier one. -/
def NoRepeats (p : Columns) (cmds : List AlterTableCmd) : Prop :=
  cmds.Pairwise fun earlier later => kept p cmds later = true → sameTarget earlier later = false

/-! ## One subcommand -/

section Actions

variable {cmd cmd' : AlterTableCmd} {c : String} {missingOk : Bool} {p : Columns}

theorem action_add (h : cmd.action = .add c missingOk) : ∃ col, cmd = .addColumn col missingOk ∧ col.colname = c := by
  cases cmd <;> simp [AlterTableCmd.action] at h
  obtain ⟨rfl, rfl⟩ := h
  exact ⟨_, rfl, rfl⟩

theorem action_drop (h : cmd.action = .drop c missingOk) : cmd = .dropColumn c missingOk := by
  cases cmd <;> simp [AlterTableCmd.action] at h
  obtain ⟨rfl, rfl⟩ := h
  rfl

variable {touched : Option String}

theorem action_touch (h : cmd.action = .touch touched) :
    cmd.subtype = .other ∧ alterColumnName cmd = none ∧ cmd.touched = touched := by
  cases cmd <;> simp_all [AlterTableCmd.action, AlterTableCmd.subtype, alterColumnName]

theorem runCmd_touch (h : cmd.action = .touch touched) :
    runCmd p cmd = if touched.all p then some (p, true) else none := by
  obtain ⟨hsubtype, -, htouched⟩ := action_touch h
  have hrun : runCmd p cmd = match cmd.touched with
      | none => some (p, true)
      | some c => if p c then some (p, true) else none := by
    cases cmd <;> first | rfl | cases hsubtype
  rw [hrun, htouched]
  cases touched <;> rfl

/-- The columns after a subcommand that is executed or skipped. -/
def advance (p : Columns) (cmd : AlterTableCmd) : Columns :=
  match cmd.action with
  | .add c _ => p.set c true
  | .drop c _ => p.set c false
  | .touch _ => p

theorem advance_apply (c : String) :
    advance p cmd c = if adds c cmd then true else if drops c cmd then false else p c := by
  cases ha : cmd.action with
  | add c' _ => by_cases hc : c' = c <;> simp [advance, adds, drops, ha, Columns.set, hc, @eq_comm _ c]
  | drop c' _ => by_cases hc : c' = c <;> simp [advance, adds, drops, ha, Columns.set, hc, @eq_comm _ c]
  | touch _ => simp [advance, adds, drops, ha]

theorem set_self {present : Bool} (h : p c = present) : p.set c present = p := by
  funext c'
  by_cases hc : c' = c
  · simp [Columns.set, hc, h]
  · simp [Columns.set, hc]

/-- The subcommand is not skipped. -/
def validAt (p : Columns) (cmd : AlterTableCmd) : Bool :=
  match cmd.action with
  | .add c _ => !p c
  | .drop c _ => p c
  | .touch _ => true

theorem runCmd_eq {p' : Columns} {valid : Bool} (h : runCmd p cmd = some (p', valid)) :
    p' = advance p cmd ∧ valid = validAt p cmd ∧ (valid = false → cmd.missingOk = true) := by
  cases ha : cmd.action with
  | add c missingOk =>
    obtain ⟨col, rfl, rfl⟩ := action_add ha
    cases hp : p col.colname <;> cases missingOk <;>
      simp_all [runCmd, advance, validAt, AlterTableCmd.missingOk, set_self]
  | drop c missingOk =>
    obtain rfl := action_drop ha
    cases hp : p c <;> cases missingOk <;>
      simp_all [runCmd, advance, validAt, AlterTableCmd.missingOk, set_self]
  | touch touched =>
    rw [runCmd_touch ha] at h
    split at h
    · obtain ⟨rfl, rfl⟩ := Prod.mk.inj (Option.some.inj h)
      exact ⟨by simp [advance, ha], by simp [validAt, ha], nofun⟩
    · cases h

theorem sameTarget_iff : sameTarget cmd' cmd = true ↔
    ∃ c, (adds c cmd' = true ∧ adds c cmd = true) ∨ (drops c cmd' = true ∧ drops c cmd = true) := by
  cases cmd <;> cases cmd' <;>
    simp [sameTarget, adds, drops, AlterTableCmd.action, AlterTableCmd.subtype, alterColumnName]
  all_goals exact eq_comm

theorem pass_of_adds (h : adds c cmd = true) : cmd.pass = .addCol := by
  cases cmd <;> first | rfl | cases h

theorem pass_of_drops (h : drops c cmd = true) : cmd.pass = .drop := by
  cases cmd <;> first | rfl | cases h

variable {cmds : List AlterTableCmd}

theorem kept_of_adds (h : adds c cmd = true) :
    kept p cmds cmd = (!p c || cmds.any (drops c)) := by
  cases ha : cmd.action with
  | add c' _ =>
    obtain rfl : c' = c := by simpa [adds, ha] using h
    simp [kept, ha]
  | drop c' _ => simp [adds, ha] at h
  | touch _ => simp [adds, ha] at h

theorem kept_of_drops (h : drops c cmd = true) : kept p cmds cmd = p c := by
  cases ha : cmd.action with
  | add c' _ => simp [drops, ha] at h
  | drop c' _ =>
    obtain rfl : c' = c := by simpa [drops, ha] using h
    simp [kept, ha]
  | touch _ => simp [drops, ha] at h

theorem sameTarget_pass (h : sameTarget cmd' cmd = true) : cmd'.pass = cmd.pass := by
  obtain ⟨c, ⟨h', h⟩ | ⟨h', h⟩⟩ := sameTarget_iff.mp h
  · rw [pass_of_adds h', pass_of_adds h]
  · rw [pass_of_drops h', pass_of_drops h]

theorem sameTarget_kept (h : sameTarget cmd' cmd = true) :
    kept p cmds cmd' = kept p cmds cmd := by
  obtain ⟨c, ⟨h', h⟩ | ⟨h', h⟩⟩ := sameTarget_iff.mp h
  · rw [kept_of_adds h', kept_of_adds h]
  · rw [kept_of_drops h', kept_of_drops h]

end Actions

/-! ## The run in passes -/

section Run

variable {p : Columns} {l : List (AlterTableCmd × Nat)} {cmds : List AlterTableCmd}
  {e : Execution}

def after (p : Columns) (cmds : List AlterTableCmd) : Columns := cmds.foldl advance p

theorem runCmds_eq (h : runCmds p l = some e) :
    e.columns = after p (l.map Prod.fst) ∧ (e.collected.map fun s => (s.parsetree, s.place)) = l := by
  induction l generalizing p e with
  | nil =>
    obtain rfl := Option.some.inj h
    exact ⟨rfl, rfl⟩
  | cons x l ih =>
    obtain ⟨⟨p', valid⟩, hfirst, h⟩ := Option.bind_eq_some_iff.mp h
    obtain ⟨e', hrest, rfl⟩ := Option.map_eq_some_iff.mp h
    obtain ⟨hcolumns, hcollected⟩ := ih hrest
    refine ⟨?_, ?_⟩
    · rw [List.map_cons, after, List.foldl_cons, ← (runCmd_eq hfirst).1]
      exact hcolumns
    · rw [List.map_cons, hcollected]

variable {s : CollectedATSubcmd}

theorem valid_of_collected {before behind : List CollectedATSubcmd} (h : runCmds p l = some e)
    (hsplit : e.collected = before ++ s :: behind) :
    s.valid = validAt (after p (before.map CollectedATSubcmd.parsetree)) s.parsetree ∧
      (s.valid = false → s.parsetree.missingOk = true) := by
  induction l generalizing p e before with
  | nil =>
    obtain rfl := Option.some.inj h
    cases before <;> cases hsplit
  | cons x l ih =>
    obtain ⟨⟨p', valid⟩, hfirst, h⟩ := Option.bind_eq_some_iff.mp h
    obtain ⟨e', hrest, rfl⟩ := Option.map_eq_some_iff.mp h
    obtain ⟨hp', hvalid, hok⟩ := runCmd_eq hfirst
    cases before with
    | nil =>
      obtain ⟨rfl, -⟩ := List.cons.inj hsplit
      exact ⟨hvalid, hok⟩
    | cons s' before =>
      obtain ⟨rfl, hsplit'⟩ := List.cons.inj hsplit
      have hlater := ih hrest hsplit'
      rw [show p' = advance p x.1 from hp'] at hlater
      exact hlater

theorem after_apply {c : String} (cmds : List AlterTableCmd) (p : Columns)
    (hord : cmds.Pairwise fun a b => adds c a = true → drops c b = false) :
    after p cmds c = (cmds.any (adds c) || (p c && !cmds.any (drops c))) := by
  induction cmds generalizing p with
  | nil => simp [after]
  | cons x cmds ih =>
    obtain ⟨hx, hord'⟩ := List.pairwise_cons.mp hord
    have hrest := ih (advance p x) hord'
    rw [after] at hrest ⊢
    rw [List.foldl_cons, hrest, advance_apply]
    cases hadd : adds c x with
    | true =>
      have hnone : cmds.any (drops c) = false := by
        rw [List.any_eq_false]
        intro y hy
        simp [hx y hy hadd]
      simp [hadd, hnone]
    | false => cases hdrop : drops c x <;> simp [hadd, hdrop]

/-! ## The order of the passes -/

def Pass.rank : Pass → Nat
  | .drop => 0
  | .alterType => 1
  | .addCol => 2
  | .colAttrs => 3
  | .addIndexConstr => 4
  | .addOtherConstr => 5
  | .misc => 6

/-- The order of execution. -/
def RunsBefore (x y : AlterTableCmd × Nat) : Prop :=
  x.1.pass.rank < y.1.pass.rank ∨ x.1.pass = y.1.pass ∧ x.2 < y.2

variable {x y : AlterTableCmd × Nat}

theorem RunsBefore.asymm (h : RunsBefore x y) : ¬RunsBefore y x := by
  rintro h'
  rcases h with h | ⟨hpass, h⟩ <;> rcases h' with h' | ⟨hpass', h'⟩
  · omega
  · rw [hpass'] at h
    omega
  · rw [hpass] at h'
    omega
  · omega

theorem not_runsBefore_of_adds {c : String} (hadd : adds c x.1 = true) (hdrop : drops c y.1 = true) :
    ¬RunsBefore x y := by
  unfold RunsBefore
  rw [pass_of_adds hadd, pass_of_drops hdrop]
  rintro (hlt | ⟨hpass, -⟩)
  · exact absurd hlt (by decide)
  · cases hpass

theorem pairwise_zipIdx (cmds : List AlterTableCmd) : cmds.zipIdx.Pairwise fun x y => x.2 < y.2 := by
  have hrange : (cmds.zipIdx.map Prod.snd).Pairwise (· < ·) := by
    rw [List.zipIdx_map_snd]
    exact List.pairwise_lt_range'
  exact List.pairwise_map.mp hrange

theorem mem_byPass : x ∈ byPass cmds ↔ x ∈ cmds.zipIdx := by
  have hall : x.1.pass ∈ Pass.all := by cases x.1.pass <;> decide
  simp only [byPass, List.mem_flatMap, List.mem_filter, decide_eq_true_eq]
  constructor
  · rintro ⟨_, -, hx, -⟩
    exact hx
  · intro hx
    exact ⟨_, hall, hx, rfl⟩

theorem pairwise_byPass (cmds : List AlterTableCmd) : (byPass cmds).Pairwise RunsBefore := by
  rw [byPass, List.pairwise_flatMap]
  constructor
  · intro pass _
    refine ((pairwise_zipIdx cmds).filter _).imp_of_mem fun hx hy hlt => .inr ⟨?_, hlt⟩
    simp only [List.mem_filter, decide_eq_true_eq] at hx hy
    rw [hx.2, hy.2]
  · have hranks : Pass.all.Pairwise fun a b => a.rank < b.rank := by decide
    refine hranks.imp fun hlt x hx y hy => .inl ?_
    simp only [List.mem_filter, decide_eq_true_eq] at hx hy
    rw [hx.2, hy.2]
    exact hlt

variable {before behind : List (AlterTableCmd × Nat)}

theorem mem_before_iff (hsplit : byPass cmds = before ++ x :: behind) (hy : y ∈ cmds.zipIdx) :
    y ∈ before ↔ RunsBefore y x := by
  have hpair := pairwise_byPass cmds
  rw [hsplit, List.pairwise_append, List.pairwise_cons] at hpair
  obtain ⟨-, ⟨hbehind, -⟩, hbefore⟩ := hpair
  constructor
  · intro hmem
    exact hbefore y hmem x (List.mem_cons_self ..)
  · intro hruns
    have hmem := mem_byPass.mpr hy
    rw [hsplit, List.mem_append, List.mem_cons] at hmem
    rcases hmem with hmem | rfl | hmem
    · exact hmem
    · exact absurd hruns hruns.asymm
    · exact absurd hruns (hbehind y hmem).asymm

/-! ## Which subcommands are executed -/

/-- No subcommand on the same target stands earlier in the statement. -/
def FirstOfTarget (cmds : List AlterTableCmd) (x : AlterTableCmd × Nat) : Prop :=
  ∀ y ∈ cmds.zipIdx, sameTarget y.1 x.1 = true → ¬y.2 < x.2

theorem pairwise_drops_first (c : String) (hsplit : byPass cmds = before ++ behind) :
    (before.map Prod.fst).Pairwise fun a b => adds c a = true → drops c b = false := by
  have hpair := pairwise_byPass cmds
  rw [hsplit, List.pairwise_append] at hpair
  refine List.pairwise_map.mpr (hpair.1.imp fun {x y} hruns hadd => ?_)
  by_contra hdrop
  exact not_runsBefore_of_adds hadd (by simpa using hdrop) hruns

theorem any_before (hsplit : byPass cmds = before ++ x :: behind) (f : AlterTableCmd → Bool) :
    (before.map Prod.fst).any f = true ↔ ∃ y ∈ cmds.zipIdx, f y.1 = true ∧ RunsBefore y x := by
  simp only [List.any_map, List.any_eq_true, Function.comp_apply]
  constructor
  · rintro ⟨y, hy, hf⟩
    have hmem : y ∈ cmds.zipIdx := mem_byPass.mp (hsplit ▸ List.mem_append_left _ hy)
    exact ⟨y, hmem, hf, (mem_before_iff hsplit hmem).mp hy⟩
  · rintro ⟨y, hmem, hf, hruns⟩
    exact ⟨y, (mem_before_iff hsplit hmem).mpr hruns, hf⟩

theorem any_zipIdx (f : AlterTableCmd → Bool) :
    cmds.any f = true ↔ ∃ y ∈ cmds.zipIdx, f y.1 = true := by
  rw [List.any_eq_true]
  constructor
  · rintro ⟨cmd, hmem, hf⟩
    obtain ⟨i, hi⟩ := List.mem_iff_getElem?.mp hmem
    exact ⟨(cmd, i), List.mem_zipIdx_iff_getElem?.mpr hi, hf⟩
  · rintro ⟨⟨cmd, i⟩, hmem, hf⟩
    exact ⟨cmd, List.mem_of_getElem? (List.mem_zipIdx_iff_getElem?.mp hmem), hf⟩

theorem validAt_before (hsplit : byPass cmds = before ++ x :: behind) :
    validAt (after p (before.map Prod.fst)) x.1 = true ↔ kept p cmds x.1 = true ∧ FirstOfTarget cmds x := by
  -- What runs before `x` on the same target is what stands before it, for it has the same pass.
  have hearlier : ∀ f : AlterTableCmd → Bool, (∀ y, f y = true ↔ sameTarget y x.1 = true) →
      ((before.map Prod.fst).any f = false ↔ FirstOfTarget cmds x) := by
    intro f hf
    rw [← Bool.not_eq_true, any_before hsplit]
    constructor
    · intro hnone y hy hsame hlt
      exact hnone ⟨y, hy, (hf y.1).mpr hsame, .inr ⟨sameTarget_pass hsame, hlt⟩⟩
    · rintro hfirst ⟨y, hy, hfy, hruns⟩
      have hsame := (hf y.1).mp hfy
      rcases hruns with hlt | ⟨-, hlt⟩
      · rw [sameTarget_pass hsame] at hlt
        omega
      · exact hfirst y hy hsame hlt
  cases ha : x.1.action with
  | touch touched =>
    have hnever : ∀ y, sameTarget y x.1 = false := by
      intro y
      simp [sameTarget, (action_touch ha).2.1]
    simp [validAt, kept, ha, FirstOfTarget, hnever]
  | add c missingOk =>
    have hadds : adds c x.1 = true := by simp [adds, ha]
    have hsame : ∀ y, adds c y = true ↔ sameTarget y x.1 = true := by
      intro y
      rw [sameTarget_iff]
      constructor
      · exact fun hy => ⟨c, .inl ⟨hy, hadds⟩⟩
      · rintro ⟨c', ⟨hy, hx⟩ | ⟨-, hx⟩⟩
        · obtain rfl : c = c' := by simpa [adds, ha] using hx
          exact hy
        · simp [drops, ha] at hx
    have hdrops : (before.map Prod.fst).any (drops c) = cmds.any (drops c) := by
      rw [Bool.eq_iff_iff, any_before hsplit, any_zipIdx]
      constructor
      · rintro ⟨y, hy, hdrop, -⟩
        exact ⟨y, hy, hdrop⟩
      · rintro ⟨y, hy, hdrop⟩
        refine ⟨y, hy, hdrop, .inl ?_⟩
        rw [pass_of_drops hdrop, pass_of_adds hadds]
        decide
    rw [kept_of_adds hadds, ← hearlier (adds c) hsame]
    simp only [validAt, ha, after_apply _ p (pairwise_drops_first c hsplit), hdrops]
    cases (before.map Prod.fst).any (adds c) <;> cases p c <;> cases cmds.any (drops c) <;> simp
  | drop c missingOk =>
    have hdrops : drops c x.1 = true := by simp [drops, ha]
    have hsame : ∀ y, drops c y = true ↔ sameTarget y x.1 = true := by
      intro y
      rw [sameTarget_iff]
      constructor
      · exact fun hy => ⟨c, .inr ⟨hy, hdrops⟩⟩
      · rintro ⟨c', ⟨-, hx⟩ | ⟨hy, hx⟩⟩
        · simp [adds, ha] at hx
        · obtain rfl : c = c' := by simpa [drops, ha] using hx
          exact hy
    have hadds : (before.map Prod.fst).any (adds c) = false := by
      rw [← Bool.not_eq_true, any_before hsplit]
      rintro ⟨y, -, hadd, hruns⟩
      exact not_runsBefore_of_adds hadd hdrops hruns
    rw [kept_of_drops hdrops, ← hearlier (drops c) hsame]
    simp only [validAt, ha, after_apply _ p (pairwise_drops_first c hsplit), hadds]
    cases p c <;> simp

theorem valid_iff {before behind : List CollectedATSubcmd} (h : alterTable p cmds = some e)
    (hsplit : e.collected = before ++ s :: behind) :
    s.valid = true ↔ kept p cmds s.parsetree = true ∧ FirstOfTarget cmds (s.parsetree, s.place) := by
  have hplaces := (runCmds_eq h).2
  rw [hsplit, List.map_append, List.map_cons] at hplaces
  rw [(valid_of_collected h hsplit).1, ← validAt_before hplaces.symm, List.map_map]
  rfl

end Run

end PgDucklake.Alter
