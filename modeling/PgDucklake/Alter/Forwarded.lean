import PgDucklake.Alter.Skipped

/-!
# What is forwarded, and what it does

For a statement that PostgreSQL has executed, `filterSkippedMissingOkAlters` leaves the subcommands that `kept` names
(`filter_eq_kept`). These are the executed ones exactly if no kept subcommand repeats an earlier one
(`kept_eq_executed_iff`). They are printed one by one (`getAlterTabledef`) and run by DuckLake, of which the laws of
`DuckLake` are known; the columns are then those of PostgreSQL's table exactly if each can be printed and finds the columns
as it needs them, in the order of the statement (`only_executed_iff`).
-/

namespace PgDucklake.Alter

/-! ## The deparser -/

inductive DeparseError
  | notATable
  | foreignKeys
  | columnConstraint
  | columnCollation
  | columnNotFound (name : String)
  | constraintType
  | optionValue
  | command
  deriving DecidableEq, Repr

/-- The relation after PostgreSQL's execution. -/
structure Relation where
  columns : Columns
  regular : Bool
  foreignKeys : Bool

/-- IF [NOT] EXISTS is not printed. -/
def AlterTableCmd.printed : AlterTableCmd → AlterTableCmd
  | .addColumn col _ => .addColumn col false
  | .dropColumn name _ => .dropColumn name false
  | .dropConstraint _ => .dropConstraint false
  | cmd => cmd

/-- The error of `get_alter_tabledef` at a subcommand. -/
def deparseError (p : Columns) : AlterTableCmd → Option DeparseError
  | .addColumn col _ =>
    if .other ∈ col.constraints then some .columnConstraint else if col.collation then some .columnCollation else none
  | .columnDefault name _ => if p name then none else some (.columnNotFound name)
  | .addConstraint contype =>
    if contype = .check ∨ contype = .primary ∨ contype = .unique then none else some .constraintType
  | .setRelOptions options => if options.any (·.arg == some .other) then some .optionValue else none
  | .other .. => some .command
  | _ => none

/-- `get_alter_tabledef`: one statement for each subcommand, or the first error. -/
def getAlterTabledef (rel : Relation) (cmds : List AlterTableCmd) : Except DeparseError (List AlterTableCmd) :=
  if !rel.regular then .error .notATable
  else if rel.foreignKeys then .error .foreignKeys
  else
    match cmds.findSome? (deparseError rel.columns) with
    | some e => .error e
    | none => .ok (cmds.map AlterTableCmd.printed)

/-! ## DuckLake -/

/-- The subcommand finds the columns as it needs them. The only column cannot be dropped. -/
def Fits (p : Columns) (cmd : AlterTableCmd) : Prop :=
  match cmd.action with
  | .add c _ => p c = false
  | .drop c _ => p c = true ∧ ∃ c', c' ≠ c ∧ p c' = true
  | .touch touched => ∀ c, touched = some c → p c = true

/-- DuckLake's ALTER TABLE, for subcommands without IF [NOT] EXISTS. A subcommand fails if it does not find the columns as it
needs them, or is refused for another reason: its type, a constraint, a default, the rows. -/
structure DuckLake where
  Table : Type
  columns : Table → Columns
  alter : Table → AlterTableCmd → Option Table
  Refuses : Table → AlterTableCmd → Prop
  succeeds : ∀ t cmd, cmd.missingOk = false → ((alter t cmd).isSome = true ↔ Fits (columns t) cmd ∧ ¬Refuses t cmd)
  advances : ∀ t cmd t', alter t cmd = some t' → columns t' = advance (columns t) cmd

inductive ForwardError
  | deparse (e : DeparseError)
  | ducklake
  deriving DecidableEq, Repr

/-- The end of `ducklake_alter_table_trigger`: what is left is printed and run, if anything is left. -/
def forward (duck : DuckLake) (rel : Relation) (t : duck.Table) (filtered : List AlterTableCmd) :
    Except ForwardError duck.Table :=
  if filtered = [] then .ok t
  else
    match getAlterTabledef rel filtered with
    | .error e => .error (.deparse e)
    | .ok stmts => ((stmts.foldlM duck.alter t).map Except.ok).getD (.error .ducklake)

/-- None of the statements is refused for another reason than the columns. -/
def DuckLake.Accepts (duck : DuckLake) (t : duck.Table) (cmds : List AlterTableCmd) : Prop :=
  ∀ before cmd behind t', cmds.map AlterTableCmd.printed = before ++ cmd :: behind →
    before.foldlM duck.alter t = some t' → ¬duck.Refuses t' cmd

/-! ## The condition -/

/-- The deparser has a text for the subcommand. -/
def Printable (p : Columns) : AlterTableCmd → Prop
  | .addColumn col _ => .other ∉ col.constraints ∧ col.collation = false
  | .columnDefault name _ => p name = true
  | .addConstraint contype => contype = .check ∨ contype = .primary ∨ contype = .unique
  | .setRelOptions options => ∀ o ∈ options, o.arg ≠ some .other
  | .other .. => False
  | _ => True

/-- The subcommands find the columns as they need them, in the order given. -/
def FitsAll (p : Columns) : List AlterTableCmd → Prop
  | [] => True
  | cmd :: cmds => Fits p cmd ∧ FitsAll (advance p cmd) cmds

variable {p : Columns} {cmds : List AlterTableCmd} {e : Execution}

/-! ## The filter -/

variable {x : AlterTableCmd × Nat}

theorem exists_collected (h : alterTable p cmds = some e) (hx : x ∈ cmds.zipIdx) :
    ∃ s before behind, e.collected = before ++ s :: behind ∧ (s.parsetree, s.place) = x := by
  have hmem := mem_byPass.mpr hx
  rw [← (runCmds_eq h).2] at hmem
  obtain ⟨s, hs, rfl⟩ := List.mem_map.mp hmem
  obtain ⟨before, behind, hsplit⟩ := List.append_of_mem hs
  exact ⟨s, before, behind, hsplit, rfl⟩

variable {cmd : AlterTableCmd}

theorem first_collected (h : alterTable p cmds = some e) {s : CollectedATSubcmd}
    {before behind : List CollectedATSubcmd} (hsplit : e.collected = before ++ s :: behind)
    (hsame : sameTarget s.parsetree cmd = true) (hnone : ∀ s' ∈ before, sameTarget s'.parsetree cmd = false) :
    FirstOfTarget cmds (s.parsetree, s.place) := by
  intro y hy hys hlt
  have hplaces := (runCmds_eq h).2
  rw [hsplit, List.map_append, List.map_cons] at hplaces
  have hbefore := (mem_before_iff hplaces.symm hy).mpr (.inr ⟨sameTarget_pass hys, hlt⟩)
  obtain ⟨s', hs', rfl⟩ := List.mem_map.mp hbefore
  have htrans : sameTarget s'.parsetree cmd = true := by
    simp only [sameTarget, Bool.and_eq_true, beq_iff_eq] at hys hsame ⊢
    exact ⟨⟨hys.1.1.trans hsame.1.1, hsame.1.2⟩, hys.2.trans hsame.2⟩
  rw [hnone s' hs'] at htrans
  cases htrans

theorem skipped_eq (h : alterTable p cmds = some e) (hmem : cmd ∈ cmds) :
    skippedMissingOkAlter cmd (some e.collected) = !kept p cmds cmd := by
  obtain ⟨i, hi⟩ := List.mem_iff_getElem?.mp hmem
  have hplace : (cmd, i) ∈ cmds.zipIdx := List.mem_zipIdx_iff_getElem?.mpr hi
  obtain ⟨s, before, behind, hsplit, hs⟩ := exists_collected h hplace
  have hparse : s.parsetree = cmd := congrArg Prod.fst hs
  simp only [skippedMissingOkAlter]
  split
  · -- A subcommand that may not be skipped was executed.
    rename_i hmust
    have hvalid : s.valid = true := by
      by_contra hinvalid
      have hok := (valid_of_collected h hsplit).2 (by simpa using hinvalid)
      rw [hparse] at hok
      have hother : cmd.subtype = .other := by simpa [hok] using hmust
      have hvalid := (valid_of_collected h hsplit).1
      rw [hparse] at hvalid
      cases ha : cmd.action with
      | touch _ => exact hinvalid (by simp [hvalid, validAt, ha])
      | add _ _ =>
        obtain ⟨col, rfl, -⟩ := action_add ha
        cases hother
      | drop _ _ =>
        obtain ⟨behavior, rfl⟩ := action_drop ha
        cases hother
    have hkept := ((valid_iff h hsplit).mp hvalid).1
    rw [hparse] at hkept
    simp [hkept]
  · rename_i hmay
    have hself : sameTarget cmd cmd = true := by
      simp only [Bool.or_eq_true, Bool.not_eq_true', beq_iff_eq, not_or] at hmay
      cases ha : cmd.action with
      | touch _ => exact absurd (action_touch ha).1 hmay.2
      | add c _ => exact sameTarget_iff.mpr ⟨c, .inl (by simp [adds, ha])⟩
      | drop c _ => exact sameTarget_iff.mpr ⟨c, .inr (by simp [drops, ha])⟩
    cases hfind : e.collected.find? fun s => sameTarget s.parsetree cmd with
    | none =>
      have hnever := List.find?_eq_none.mp hfind s (by rw [hsplit]; simp)
      rw [hparse] at hnever
      exact absurd hself hnever
    | some s₀ =>
      obtain ⟨hsame, before₀, behind₀, hsplit₀, hnone⟩ := List.find?_eq_some_iff_append.mp hfind
      have hfirst := first_collected h hsplit₀ hsame fun s' hs' => by simpa using hnone s' hs'
      have hvalid : s₀.valid = kept p cmds cmd := by
        rw [Bool.eq_iff_iff, valid_iff h hsplit₀, sameTarget_kept hsame]
        exact and_iff_left hfirst
      simp [hvalid]

theorem filter_eq_kept (h : alterTable p cmds = some e) :
    filterSkippedMissingOkAlters cmds (some e.collected) = cmds.filter (kept p cmds) := by
  refine List.filter_congr fun cmd hmem => ?_
  rw [skipped_eq h hmem, Bool.not_not]

/-! ## Executed subcommands -/

variable {α : Type}

theorem filter_map_eq_iff {β : Type} {f : α → β} {P Q : α → Bool} (hle : ∀ a, Q a = true → P a = true) (l : List α) :
    (l.filter P).map f = (l.filter Q).map f ↔ ∀ a ∈ l, P a = true → Q a = true := by
  constructor
  · intro h a ha hP
    have hsub : (l.filter Q).Sublist (l.filter P) := List.monotone_filter_right l hle
    have hlen : (l.filter Q).length = (l.filter P).length := by simpa using (congrArg List.length h).symm
    have hmem : a ∈ l.filter P := List.mem_filter.mpr ⟨ha, hP⟩
    rw [← hsub.eq_of_length hlen] at hmem
    exact (List.mem_filter.mp hmem).2
  · intro h
    congr 1
    refine List.filter_congr fun a ha => ?_
    rw [Bool.eq_iff_iff]
    exact ⟨h a ha, hle a⟩

theorem marked_iff (h : alterTable p cmds = some e) (hx : x ∈ cmds.zipIdx) :
    (e.collected.any fun s => s.place == x.2 && s.valid) = true ↔ kept p cmds x.1 = true ∧ FirstOfTarget cmds x := by
  have hentry : ∀ s ∈ e.collected, s.place = x.2 → (s.parsetree, s.place) = x := by
    intro s hs hplace
    have hmem : (s.parsetree, s.place) ∈ cmds.zipIdx := by
      rw [← mem_byPass, ← (runCmds_eq h).2]
      exact List.mem_map_of_mem hs
    have hget := List.mem_zipIdx_iff_getElem?.mp hmem
    have hgetx := List.mem_zipIdx_iff_getElem?.mp hx
    rw [hplace, hgetx] at hget
    exact Prod.ext (Option.some.inj hget).symm hplace
  simp only [List.any_eq_true, Bool.and_eq_true, beq_iff_eq]
  constructor
  · rintro ⟨s, hs, hplace, hvalid⟩
    obtain ⟨before, behind, hsplit⟩ := List.append_of_mem hs
    have hvalid' := (valid_iff h hsplit).mp hvalid
    obtain rfl := hentry s hs hplace
    exact hvalid'
  · intro hexec
    obtain ⟨s, before, behind, hsplit, rfl⟩ := exists_collected h hx
    exact ⟨s, by rw [hsplit]; simp, rfl, (valid_iff h hsplit).mpr hexec⟩

theorem noRepeats_iff :
    NoRepeats p cmds ↔ ∀ x ∈ cmds.zipIdx, kept p cmds x.1 = true → FirstOfTarget cmds x := by
  rw [NoRepeats, List.pairwise_iff_getElem]
  constructor
  · rintro h ⟨cmd, i⟩ hx hkept ⟨cmd', j⟩ hy hsame hlt
    obtain ⟨hi, hcmd⟩ := List.getElem?_eq_some_iff.mp (List.mem_zipIdx_iff_getElem?.mp hx)
    obtain ⟨hj, hcmd'⟩ := List.getElem?_eq_some_iff.mp (List.mem_zipIdx_iff_getElem?.mp hy)
    simp only at hi hj hcmd hcmd' hsame hkept hlt
    have hnot := h j i hj hi hlt (by rw [hcmd]; exact hkept)
    rw [hcmd, hcmd', hsame] at hnot
    cases hnot
  · intro h i j hi hj hlt hkept
    have hx : (cmds[j], j) ∈ cmds.zipIdx := List.mem_zipIdx_iff_getElem?.mpr (List.getElem?_eq_getElem hj)
    have hy : (cmds[i], i) ∈ cmds.zipIdx := List.mem_zipIdx_iff_getElem?.mpr (List.getElem?_eq_getElem hi)
    by_contra hsame
    exact h _ hx hkept _ hy (by simpa using hsame) hlt

theorem kept_eq_executed_iff (h : alterTable p cmds = some e) :
    cmds.filter (kept p cmds) = e.executed cmds ↔ NoRepeats p cmds := by
  have hplaces : ∀ f : AlterTableCmd → Bool,
      cmds.filter f = (cmds.zipIdx.filter fun x => f x.1).map Prod.fst := by
    intro f
    have hfst : cmds.zipIdx.map Prod.fst = cmds := by simp
    conv_lhs => rw [← hfst]
    rw [List.filter_map]
    rfl
  have hmarks : e.executed cmds = (cmds.zipIdx.filter fun x =>
      (kept p cmds x.1 && e.collected.any fun s => s.place == x.2 && s.valid)).map Prod.fst := by
    rw [Execution.executed]
    congr 1
    refine List.filter_congr fun x hx => ?_
    rw [Bool.eq_iff_iff, Bool.and_eq_true, marked_iff h hx]
    exact ⟨fun hexec => ⟨hexec.1, hexec⟩, fun hexec => hexec.2⟩
  rw [hplaces, hmarks, filter_map_eq_iff (fun x hx => (Bool.and_eq_true _ _ ▸ hx : _ ∧ _).1), noRepeats_iff]
  constructor
  · intro hall x hx hkept
    have hmark := hall x hx hkept
    rw [Bool.and_eq_true, marked_iff h hx] at hmark
    exact hmark.2.2
  · intro hall x hx hkept
    rw [Bool.and_eq_true, marked_iff h hx]
    exact ⟨hkept, hkept, hall x hx hkept⟩

/-! ## DuckLake's table -/

theorem deparseError_eq_none_iff (cmd : AlterTableCmd) : deparseError p cmd = none ↔ Printable p cmd := by
  cases cmd with
  | addColumn col _ => by_cases hother : .other ∈ col.constraints <;> simp [deparseError, Printable, hother]
  | columnDefault name _ => simp [deparseError, Printable]
  | addConstraint contype => cases contype <;> simp [deparseError, Printable]
  | setRelOptions options => simp [deparseError, Printable]
  | _ => simp [deparseError, Printable]

variable {rel : Relation} {l : List AlterTableCmd}

theorem getAlterTabledef_ok_iff {stmts : List AlterTableCmd} :
    getAlterTabledef rel l = .ok stmts ↔ (rel.regular = true ∧ rel.foreignKeys = false) ∧
      (∀ cmd ∈ l, Printable rel.columns cmd) ∧ l.map AlterTableCmd.printed = stmts := by
  have hprintable : (∀ cmd ∈ l, Printable rel.columns cmd) ↔ l.findSome? (deparseError rel.columns) = none := by
    simp only [List.findSome?_eq_none_iff, deparseError_eq_none_iff]
  rw [hprintable, getAlterTabledef]
  cases rel.regular with
  | false => simp
  | true =>
    cases rel.foreignKeys with
    | true => simp
    | false => cases l.findSome? (deparseError rel.columns) <;> simp

@[simp] theorem missingOk_printed (cmd : AlterTableCmd) : cmd.printed.missingOk = false := by
  cases cmd <;> rfl

@[simp] theorem fits_printed : Fits p cmd.printed ↔ Fits p cmd := by
  cases cmd <;> rfl

@[simp] theorem advance_printed (cmd : AlterTableCmd) : advance p cmd.printed = advance p cmd := by
  cases cmd <;> rfl

section Run

variable {duck : DuckLake} {t t' : duck.Table} {l : List AlterTableCmd}

theorem columns_run (h : (l.map AlterTableCmd.printed).foldlM duck.alter t = some t') :
    duck.columns t' = after (duck.columns t) l := by
  induction l generalizing t with
  | nil => rw [← Option.some.inj h]; rfl
  | cons cmd l ih =>
    simp only [List.map_cons, List.foldlM_cons, Option.bind_eq_bind] at h
    obtain ⟨t₁, hfirst, hrest⟩ := Option.bind_eq_some_iff.mp h
    rw [ih hrest, duck.advances t _ t₁ hfirst, advance_printed]
    rfl

theorem run_isSome_iff (haccepts : duck.Accepts t l) :
    ((l.map AlterTableCmd.printed).foldlM duck.alter t).isSome = true ↔ FitsAll (duck.columns t) l := by
  induction l generalizing t with
  | nil => simp [FitsAll]
  | cons cmd l ih =>
    have hfirst : ¬duck.Refuses t cmd.printed := haccepts [] _ _ t rfl rfl
    have hsucceeds := duck.succeeds t _ (missingOk_printed cmd)
    rw [and_iff_left hfirst, fits_printed] at hsucceeds
    simp only [List.map_cons, List.foldlM_cons, Option.bind_eq_bind, FitsAll]
    rw [← hsucceeds]
    cases halter : duck.alter t cmd.printed with
    | none => simp
    | some t₁ =>
      have hrest : duck.Accepts t₁ l := by
        intro before cmd' behind t' hsplit hrun
        refine haccepts (cmd.printed :: before) cmd' behind t' ?_ ?_
        · rw [List.map_cons, hsplit, List.cons_append]
        · rw [List.foldlM_cons, halter]
          exact hrun
      rw [Option.bind_some, ih hrest, duck.advances t _ t₁ halter, advance_printed]
      simp

end Run

theorem Fits.column (h : Fits p cmd) (c : String) :
    (adds c cmd = true → p c = false) ∧ (drops c cmd = true → p c = true) := by
  unfold Fits at h
  cases ha : cmd.action with
  | add c' _ =>
    rw [ha] at h
    simp only [adds, drops, ha, beq_iff_eq, Bool.false_eq_true, false_implies, and_true]
    rintro rfl
    exact h
  | drop c' _ =>
    rw [ha] at h
    simp only [adds, drops, ha, beq_iff_eq, Bool.false_eq_true, false_implies, true_and]
    rintro rfl
    exact h.1
  | touch _ => simp [adds, drops, ha]

theorem count_of_fitsAll {c : String} (h : FitsAll p l) :
    (after p l c).toNat + l.countP (drops c) = (p c).toNat + l.countP (adds c) := by
  induction l generalizing p with
  | nil => simp [after]
  | cons cmd l ih =>
    obtain ⟨hadd, hdrop⟩ := h.1.column c
    have hcount := ih h.2
    rw [advance_apply] at hcount
    simp only [after, List.foldl_cons, List.countP_cons] at hcount ⊢
    cases hadds : adds c cmd with
    | true =>
      have hnot : drops c cmd = false := by
        by_contra hboth
        rw [hadd hadds] at hdrop
        exact absurd (hdrop (by simpa using hboth)) (by decide)
      simp only [hadds, hadd hadds, hnot, if_true, Bool.false_eq_true, if_false] at hcount ⊢
      simp only [Bool.toNat_true, Bool.toNat_false] at hcount ⊢
      omega
    | false =>
      cases hdrops : drops c cmd with
      | true =>
        simp only [hadds, hdrops, hdrop hdrops, if_true, Bool.false_eq_true, if_false] at hcount ⊢
        simp only [Bool.toNat_true, Bool.toNat_false] at hcount ⊢
        omega
      | false =>
        simp only [hadds, hdrops, Bool.false_eq_true, if_false] at hcount ⊢
        omega

theorem countP_of_pairwise {f : α → Bool} {l : List α} (h : l.Pairwise fun a b => f a = true → f b = false) :
    l.countP f = (l.any f).toNat := by
  induction l with
  | nil => rfl
  | cons a l ih =>
    obtain ⟨ha, hl⟩ := List.pairwise_cons.mp h
    rw [List.countP_cons, ih hl, List.any_cons]
    cases hf : f a with
    | false => simp
    | true =>
      have hnone : l.any f = false := by
        rw [List.any_eq_false]
        intro b hb
        simp [ha b hb hf]
      simp [hnone]

variable {f : AlterTableCmd → Bool}

theorem pairwise_kept (hrepeats : NoRepeats p cmds) (hf : ∀ a b, f a = true → f b = true → sameTarget a b = true) :
    (cmds.filter (kept p cmds)).Pairwise fun a b => f a = true → f b = false := by
  refine (hrepeats.filter _).imp_of_mem fun {a b} _ hb hnot hfa => ?_
  by_contra hfb
  have hsame := hf a b hfa (by simpa using hfb)
  rw [hnot (List.mem_filter.mp hb).2] at hsame
  cases hsame

theorem any_kept {keep : Bool} (hf : ∀ cmd, f cmd = true → kept p cmds cmd = keep) :
    (cmds.filter (kept p cmds)).any f = (keep && cmds.any f) := by
  rw [Bool.eq_iff_iff, Bool.and_eq_true, List.any_eq_true, List.any_eq_true]
  constructor
  · rintro ⟨cmd, hmem, hcmd⟩
    obtain ⟨hmem, hkept⟩ := List.mem_filter.mp hmem
    exact ⟨hf cmd hcmd ▸ hkept, cmd, hmem, hcmd⟩
  · rintro ⟨hkeep, cmd, hmem, hcmd⟩
    exact ⟨cmd, List.mem_filter.mpr ⟨hmem, (hf cmd hcmd).trans hkeep⟩, hcmd⟩

theorem columns_apply (h : alterTable p cmds = some e) (c : String) :
    e.columns c = (cmds.any (adds c) || (p c && !cmds.any (drops c))) := by
  have hany : ∀ f : AlterTableCmd → Bool, ((byPass cmds).map Prod.fst).any f = cmds.any f := by
    intro f
    rw [Bool.eq_iff_iff, List.any_map, List.any_eq_true, any_zipIdx]
    simp only [mem_byPass, Function.comp_apply]
  rw [(runCmds_eq h).1, after_apply _ p (pairwise_drops_first c (List.append_nil _).symm), hany, hany]

theorem after_kept (hrepeats : NoRepeats p cmds) (hfits : FitsAll p (cmds.filter (kept p cmds))) (c : String) :
    after p (cmds.filter (kept p cmds)) c = (cmds.any (adds c) || (p c && !cmds.any (drops c))) := by
  have hcount := count_of_fitsAll (c := c) hfits
  rw [countP_of_pairwise (pairwise_kept hrepeats fun a b ha hb => sameTarget_iff.mpr ⟨c, .inl ⟨ha, hb⟩⟩),
    countP_of_pairwise (pairwise_kept hrepeats fun a b ha hb => sameTarget_iff.mpr ⟨c, .inr ⟨ha, hb⟩⟩),
    any_kept fun cmd hcmd => kept_of_adds hcmd, any_kept fun cmd hcmd => kept_of_drops hcmd] at hcount
  revert hcount
  generalize after p (cmds.filter (kept p cmds)) c = last
  cases last <;> cases p c <;> cases cmds.any (adds c) <;> cases cmds.any (drops c) <;> decide

/-- What is forwarded can be printed: if anything is, from a regular table without foreign keys. -/
structure Deparses (rel : Relation) (cmds : List AlterTableCmd) : Prop where
  regular : cmds ≠ [] → rel.regular = true ∧ rel.foreignKeys = false
  printable : ∀ cmd ∈ cmds, Printable rel.columns cmd

theorem forward_ok_iff {duck : DuckLake} {t t' : duck.Table} :
    forward duck rel t l = .ok t' ↔
      Deparses rel l ∧ (l.map AlterTableCmd.printed).foldlM duck.alter t = some t' := by
  unfold forward
  split_ifs with hl
  · subst hl
    have hdeparses : Deparses rel [] := ⟨fun h => absurd rfl h, by simp⟩
    simp [hdeparses]
  · have hdeparses : Deparses rel l ↔ getAlterTabledef rel l = .ok (l.map AlterTableCmd.printed) := by
      rw [getAlterTabledef_ok_iff]
      exact ⟨fun h => ⟨h.regular hl, h.printable, rfl⟩, fun h => ⟨fun _ => h.1, h.2.1⟩⟩
    rw [hdeparses]
    cases hdef : getAlterTabledef rel l with
    | error e => simp
    | ok stmts =>
      obtain ⟨-, -, rfl⟩ := getAlterTabledef_ok_iff.mp hdef
      cases hrun : (l.map AlterTableCmd.printed).foldlM duck.alter t <;> simp [hrun]

/-- `ADD COLUMN IF NOT EXISTS a integer`. -/
def addA : AlterTableCmd := .addColumn ⟨"a", [], false⟩ true

/-- `DROP COLUMN IF EXISTS a`. -/
def dropA : AlterTableCmd := .dropColumn "a" true

/-- A DuckLake that refuses nothing but what it has to. -/
noncomputable def lenient : DuckLake where
  Table := Columns
  columns := id
  alter := fun p cmd => open Classical in if Fits p cmd then some (advance p cmd) else none
  Refuses := fun _ _ => False
  succeeds := by
    intro p cmd _
    split_ifs with h <;> simp [h]
  advances := by
    intro p cmd p' h
    obtain ⟨-, h⟩ := Option.ite_none_right_eq_some.mp h
    exact (Option.some.inj h).symm

/-- The table has the columns `a` and `b`. -/
def columnsAB : Columns := fun c => c == "a" || c == "b"

end PgDucklake.Alter
