import PgDucklake.Session.Statements

/-!
# The query of a CREATE TABLE AS

What the stack of pending queries is for: `Stmt.outcome` says of a statement whether it completes and which tables the
trigger fills on the way, each from the query of its own statement. There is no stack in it.

The hook pushes a query when `USING ducklake` is written, the trigger takes one when the new table is a ducklake table. As
long as the tables to be filled have it written, a session does what the outcome says, and each statement leaves the stack
as it found it; the first table for which it is not written gets no query, or that of a statement around it
(`tracks_stmt`). A mistake stays on record (`keeps_mistaken_stmt`), so the two cases exclude each other.
-/

namespace PgDucklake.Statements

open Lib Prog

/-! ## Outcomes -/

structure Outcome where
  completes : Bool
  fills : List Head

namespace Outcome

/-- A step that fills no table. -/
def plain (completes : Bool) : Outcome := ⟨completes, []⟩

def andThen (a b : Outcome) : Outcome := if a.completes then ⟨b.completes, a.fills ++ b.fills⟩ else a

def caughtIf (o : Outcome) (caught : Bool) : Outcome := ⟨o.completes || caught, o.fills⟩

/-- `USING ducklake` is written for each table that is filled. -/
def Written (o : Outcome) : Prop := ∀ h ∈ o.fills, h.usingDucklake = true

end Outcome

def Head.optionsValid (h : Head) : Bool :=
  !(h.createsTable && h.usingDucklake) || (parseOptions h.options none).isSome

def Head.fillOutcome (h : Head) : Outcome :=
  if h.kind == .createAs && !h.skipData then ⟨h.insertQuery.returns, [h]⟩ else .plain true

def Head.triggerOutcome (h : Head) : Outcome :=
  if h.syncing || h.skipped then .plain true
  else if !h.makesDucklake then .plain !h.variantColumns
  else if h.temporary then .plain false
  else (Outcome.plain (h.tabledef.returns && h.createQuery.returns)).andThen h.fillOutcome

mutual

def Stmt.outcome : Stmt → Outcome
  | .mk h before after =>
    (Outcome.plain h.optionsValid).andThen <|
      before.outcomes.andThen <|
      (Outcome.plain !(h.workFails || h.rejected)).andThen <|
      (if h.createsTable && h.tagged then h.triggerOutcome else .plain true).andThen <|
      after.outcomes.andThen (.plain !h.restFails)

def Stmts.outcomes : Stmts → Outcome
  | .nil => .plain true
  | .cons caught stmt rest => (stmt.outcome.caughtIf caught).andThen rest.outcomes

end

/-! ## Sessions that follow an outcome -/

/-- The trigger took another query than its own, or none. -/
def Session.Mistaken (s : Session) : Prop := ∃ f ∈ s.filled, f.taken ≠ some f.own

/-- Each table was filled from its own query, each statement left the stack as it found it, and the pending queries are
`stack`. -/
structure Session.InOrder (stack : List Nat) (s : Session) : Prop where
  pending : s.pendingCtasQueries = stack
  older : ∀ query ∈ stack, query < s.queries
  own : ∀ f ∈ s.filled, f.taken = some f.own
  balanced : ∀ b ∈ s.balances, b.2 = b.1

/-- The step ends as the outcome says and as `holds`, or a table is mistaken. -/
structure Outcome.Leads (o : Outcome) (completes : Bool) (holds : Session → Prop) (s : Session) : Prop where
  written : o.Written → o.completes = completes ∧ holds s
  not : ¬o.Written → s.Mistaken

/-- The end of a step with an outcome: `C` after a return, `E` after an error. -/
def Outcome.Tracks (o : Outcome) (C E : Session → Prop) : Exit Unit → Session → Prop :=
  Ends (fun _ => o.Leads true C) (o.Leads false E)

section Rules

variable {P C D E : Session → Prop} {a b o : Outcome} {p q : Prog Session Unit}

theorem written_plain (completes : Bool) : (Outcome.plain completes).Written := fun _ hh => by cases hh

theorem leads_plain {completes : Bool} {s : Session} (hs : P s) : (Outcome.plain completes).Leads completes P s :=
  ⟨fun _ => ⟨rfl, hs⟩, fun hnot => absurd (written_plain completes) hnot⟩

theorem written_andThen (ha : a.completes = true) : (a.andThen b).Written ↔ a.Written ∧ b.Written := by
  simp only [Outcome.Written, Outcome.andThen, if_pos ha, List.mem_append]
  exact ⟨fun h => ⟨fun x hx => h x (Or.inl hx), fun x hx => h x (Or.inr hx)⟩,
    fun h x hx => hx.elim (h.1 x) (h.2 x)⟩

theorem Outcome.Written.of_andThen (h : (a.andThen b).Written) : a.Written := by
  by_cases ha : a.completes = true
  · exact ((written_andThen ha).mp h).1
  · rwa [Outcome.andThen, if_neg ha] at h

theorem Outcome.Tracks.bind (hp : Spec P p (a.Tracks C E)) (hq : Spec C q (b.Tracks D E))
    (hkeeps : Keeps Session.Mistaken q) :
    Spec P (p >>= fun _ => q) ((a.andThen b).Tracks D E) := by
  have hmistaken : ∀ s : Session, s.Mistaken → ¬a.Written → (a.andThen b).Tracks D E (q s).1 (q s).2 := by
    intro s hs hnot
    have hnot' : ¬(a.andThen b).Written := fun hw => hnot hw.of_andThen
    exact Spec.mono hkeeps (fun _ ht => ht) (fun _ _ ht => ⟨fun hw => absurd hw hnot', fun _ => ht⟩)
      (fun _ ht => ⟨fun hw => absurd hw hnot', fun _ => ht⟩) s hs
  refine Spec.bind (A := fun _ => a.Leads true C) (hp.mono (fun _ hs => hs) (fun _ _ ht => ht) fun t ht => ?_)
    fun _ s hs => ?_
  · refine ⟨fun hw => ?_, fun hnot => ?_⟩
    · obtain ⟨hfails, ht'⟩ := ht.written hw.of_andThen
      exact ⟨by simp [Outcome.andThen, hfails], ht'⟩
    · by_cases ha : a.Written
      · -- the row ends here, with what was filled so far
        have hfails := (ht.written ha).1
        simp only [Outcome.andThen, hfails, Bool.false_eq_true, if_false] at hnot
        exact absurd ha hnot
      · exact ht.not ha
  · by_cases ha : a.Written
    · obtain ⟨hreturns, hs'⟩ := hs.written ha
      have hcompletes : (a.andThen b).completes = b.completes := by simp [Outcome.andThen, hreturns]
      have hwritten : (a.andThen b).Written ↔ b.Written := (written_andThen hreturns).trans (and_iff_right ha)
      refine hq.mono (fun _ ht => ht) (fun _ t ht => ?_) (fun t ht => ?_) s hs'
      · exact ⟨fun hw => hcompletes ▸ ht.written (hwritten.mp hw), fun hnot => ht.not fun hw => hnot (hwritten.mpr hw)⟩
      · exact ⟨fun hw => hcompletes ▸ ht.written (hwritten.mp hw), fun hnot => ht.not fun hw => hnot (hwritten.mpr hw)⟩
    · exact hmistaken s (hs.not ha) ha

theorem Outcome.Leads.map {completes : Bool} {s t : Session} (hs : o.Leads completes C s) (hC : C s → D t)
    (hmistaken : s.Mistaken → t.Mistaken) : o.Leads completes D t :=
  ⟨fun hw => ⟨(hs.written hw).1, hC (hs.written hw).2⟩, fun hnot => hmistaken (hs.not hnot)⟩

theorem Outcome.Tracks.mono (hp : Spec P p (o.Tracks C E)) {C' E' : Session → Prop} (hC : ∀ s, C s → C' s)
    (hE : ∀ s, E s → E' s) : Spec P p (o.Tracks C' E') :=
  Spec.mono hp (fun _ hs => hs) (fun _ s hs => hs.map (hC s) id) fun s hs => hs.map (hE s) id

theorem tracks_fails (c : Bool) (hE : ∀ s, P s → E s) :
    Spec P (when c (call .longjmp)) ((Outcome.plain !c).Tracks P E) := by
  cases c with
  | true => exact fun s hs => leads_plain (hE s hs)
  | false => exact fun s hs => leads_plain hs

theorem tracks_guarded (h : ∀ s, P s → o.Leads (p s).1.returns C (p s).2) : Spec P p.guarded (o.Tracks C C) := by
  intro s hs
  have hleads := h s hs
  rw [guarded_run]
  rcases hrun : p s with ⟨e, t⟩
  rw [hrun] at hleads
  cases e <;> exact hleads

theorem Outcome.Tracks.caught (hp : Spec P p (o.Tracks C C)) (caught : Bool) :
    Spec P (p.pgTry (if caught then pure () else call .longjmp)) ((o.caughtIf caught).Tracks C C) := by
  refine Spec.pgTry (B := o.Leads false C) (hp.mono (fun _ hs => hs) (fun _ t ht => ?_) fun _ ht => ht) ?_
  · refine ⟨fun hw => ?_, fun hnot => ht.not hnot⟩
    obtain ⟨hreturns, ht'⟩ := ht.written hw
    exact ⟨by simp [Outcome.caughtIf, hreturns], ht'⟩
  · intro t ht
    cases caught with
    | true => exact ⟨fun hw => ⟨Bool.or_true _, (ht.written hw).2⟩, fun hnot => ht.not hnot⟩
    | false => exact ⟨fun hw => ⟨(Bool.or_false _).trans (ht.written hw).1, (ht.written hw).2⟩, fun hnot => ht.not hnot⟩

end Rules

/-! ## Mistakes stay on record -/

/-- The two sessions differ in the create options only. -/
structure SameQueries (s t : Session) : Prop where
  pending : t.pendingCtasQueries = s.pendingCtasQueries
  queries : t.queries = s.queries
  filled : t.filled = s.filled
  balances : t.balances = s.balances

section Same

variable {s t : Session} {stack : List Nat}

theorem Session.Mistaken.congr (hs : s.Mistaken) (hfilled : t.filled = s.filled) : t.Mistaken := by
  rw [Session.Mistaken, hfilled]
  exact hs

theorem Session.InOrder.congr (hs : s.InOrder stack) (h : SameQueries s t) : t.InOrder stack where
  pending := h.pending.trans hs.pending
  older := h.queries ▸ hs.older
  own := h.filled ▸ hs.own
  balanced := h.balances ▸ hs.balanced

theorem sameQueries_createStatements (h : Head) (s : Session) : SameQueries s (createStatements h s).2 := by
  rcases createStatements_state (h := h) s with heq | heq <;> rw [heq] <;> exact ⟨rfl, rfl, rfl, rfl⟩

theorem createStatements_returns (h : Head) (s : Session) :
    (createStatements h s).1.returns = (h.tabledef.returns && h.createQuery.returns) := by
  cases htab : h.tabledef <;> simp [createStatements, htab, Exit.returns]

theorem createInDuckDB_run (h : Head) (taken : Option String) (s : Session) :
    (createInDuckDB h taken s).1.returns = (h.tabledef.returns && h.createQuery.returns) ∧
      SameQueries s (createInDuckDB h taken s).2 := by
  cases taken with
  | none =>
    have hrun : createInDuckDB h none s = createStatements h s := destructing_id s (createStatements h)
    rw [hrun]
    exact ⟨createStatements_returns h s, sameQueries_createStatements h s⟩
  | some path =>
    have hreturns := createStatements_returns h { s with tablePathOverride := some path }
    have hsame := sameQueries_createStatements h { s with tablePathOverride := some path }
    have hrun : createInDuckDB h (some path) s = destructing (createStatements h)
      (fun t => { t with tablePathOverride := none }) { s with tablePathOverride := some path } := rfl
    rcases hinner : createStatements h { s with tablePathOverride := some path } with ⟨e, t⟩
    rw [hinner] at hreturns hsame
    -- the destructor runs or not; the queries are the same either way
    cases e <;> simp only [hrun, destructing, hinner] <;>
      exact ⟨hreturns, hsame.pending, hsame.queries, hsame.filled, hsame.balances⟩

end Same

section Mistaken

theorem Session.Mistaken.fill {s t : Session} {f : Fill} (hs : s.Mistaken) (hfilled : t.filled = s.filled ++ [f]) :
    t.Mistaken := by
  obtain ⟨g, hg, hne⟩ := hs
  exact ⟨g, hfilled ▸ List.mem_append_left _ hg, hne⟩

theorem fillFromQuery_run (h : Head) (own : Nat) (s : Session) : fillFromQuery h own s =
    (if s.pendingCtasQueries.head?.isNone then .longjmp else h.insertQuery,
      { s with
        pendingCtasQueries := s.pendingCtasQueries.tail
        filled := s.filled ++ [⟨own, h.usingDucklake, s.pendingCtasQueries.head?⟩] }) := by
  cases hq : s.pendingCtasQueries <;> simp [fillFromQuery, takePendingCtasQuery, hq]

theorem keeps_mistaken_trigger (h : Head) (own : Nat) : Keeps Session.Mistaken (createTableTrigger h own) := by
  refine keeps_guarded fun s hs => ?_
  split_ifs
  · exact hs
  · exact hs
  · exact hs
  · exact hs
  · refine bind_keeps (Q := Session.Mistaken) hs fun taken t ht => ?_
    refine bind_keeps (Q := Session.Mistaken) (ht.congr (createInDuckDB_run h taken t).2.filled) fun _ u hu => ?_
    unfold when
    split
    · rw [fillFromQuery_run]
      exact hu.fill rfl
    · exact hu

theorem keeps_mistaken_remove (own : Nat) : Keeps Session.Mistaken (removePendingCtasQuery own) := by
  refine keeps_update fun s hs => hs.congr ?_
  unfold Session.removeCtasQuery
  split <;> rfl

theorem keeps_mistaken_strip (h : Head) : Keeps Session.Mistaken (stripOptions h) := by
  unfold stripOptions stripDucklakeCreateOptions
  split
  · rcases parseOptions h.options none with _ | ⟨_ | path, rest⟩
    · exact keeps_longjmp
    · exact keeps_pure false
    · exact (keeps_update fun s hs => hs.congr rfl).bind fun _ => keeps_pure true
  · exact keeps_pure false

theorem keeps_mistaken_hook {h : Head} {own : Nat} {before after : Prog Session Unit}
    (hbefore : Keeps Session.Mistaken before) (hafter : Keeps Session.Mistaken after) :
    Keeps Session.Mistaken (hookBody h own before after) := by
  have hprocess : Keeps Session.Mistaken (processUtility h own before after) :=
    hbefore.bind fun _ => (keeps_longjmp.when _).bind fun _ => ((keeps_mistaken_trigger h own).when _).bind fun _ =>
      hafter.bind fun _ => keeps_longjmp.when _
  have hcatch : ∀ stripped, Keeps Session.Mistaken (hookCatch h own stripped) := fun stripped =>
    ((keeps_update fun s hs => hs.congr rfl).when stripped).bind fun _ =>
      ((keeps_mistaken_remove own).when _).bind fun _ => keeps_longjmp
  refine (keeps_mistaken_strip h).bind fun stripped => ?_
  refine ((keeps_update fun s hs => hs.congr rfl).when _).bind fun _ => ?_
  exact (hprocess.pgTry (hcatch stripped)).bind fun _ => (keeps_mistaken_remove own).when _

mutual

theorem keeps_mistaken_stmt : ∀ stmt, Keeps Session.Mistaken (utilityHook stmt)
  | .mk h before after => by
    rw [utilityHook]
    have hbody : ∀ own, Keeps Session.Mistaken (hookBody h own (runAll before) (runAll after)) := fun _ =>
      keeps_mistaken_hook (keeps_mistaken_all before) (keeps_mistaken_all after)
    have hnew : Keeps Session.Mistaken newQuery := fun s hs => hs.congr rfl
    exact keeps_observed (hnew.bind hbody) fun s _ hs => hs.congr rfl

theorem keeps_mistaken_all : ∀ stmts, Keeps Session.Mistaken (runAll stmts)
  | .nil => by
    rw [runAll]
    exact keeps_pure ()
  | .cons caught stmt rest => by
    rw [runAll]
    exact (keeps_caught (keeps_mistaken_stmt stmt) caught).bind fun _ => keeps_mistaken_all rest

end

end Mistaken

/-! ## The trigger -/

/-- The pending queries when the statement is under way. -/
def Head.pendingWith (h : Head) (own : Nat) (stack : List Nat) : List Nat := if h.isCtas then own :: stack else stack

/-- After the trigger, which need not have taken the query. -/
def Head.LeftOver (h : Head) (own : Nat) (stack : List Nat) (s : Session) : Prop :=
  s.InOrder stack ∨ h.isCtas = true ∧ s.InOrder (own :: stack)

section Trigger

variable {h : Head} {own : Nat} {stack : List Nat} {s t : Session}

theorem Session.InOrder.leftOver (hs : s.InOrder (h.pendingWith own stack)) : h.LeftOver own stack s := by
  unfold Head.pendingWith at hs
  by_cases hctas : h.isCtas = true
  · rw [if_pos hctas] at hs
    exact Or.inr ⟨hctas, hs⟩
  · rw [if_neg hctas] at hs
    exact Or.inl hs

theorem fillFromQuery_own (hs : s.InOrder (own :: stack)) :
    (fillFromQuery h own s).1 = h.insertQuery ∧ (fillFromQuery h own s).2.InOrder stack := by
  rw [fillFromQuery_run]
  simp only [hs.pending, List.head?_cons, Option.isNone_some, Bool.false_eq_true, if_false, List.tail_cons, true_and]
  refine ⟨rfl, fun query hq => hs.older query (List.mem_cons_of_mem _ hq), fun f hf => ?_, hs.balanced⟩
  rcases List.mem_append.mp hf with hf | hf
  · exact hs.own f hf
  · rw [List.mem_singleton.mp hf]

theorem fillFromQuery_older (hs : s.InOrder stack) (holder : ∀ query ∈ stack, query < own) :
    (fillFromQuery h own s).2.Mistaken := by
  rw [fillFromQuery_run]
  refine ⟨⟨own, h.usingDucklake, s.pendingCtasQueries.head?⟩, List.mem_append_right _ (List.mem_singleton.mpr rfl), ?_⟩
  intro hown
  have hmem : own ∈ stack := hs.pending ▸ List.mem_of_mem_head? (Option.mem_def.mpr hown)
  exact Nat.lt_irrefl own (holder own hmem)

theorem fill_leads (hs : s.InOrder (h.pendingWith own stack)) (holder : ∀ query ∈ stack, query < own) :
    h.fillOutcome.Leads (when (h.kind == .createAs && !h.skipData) (fillFromQuery h own) s).1.returns
      (h.LeftOver own stack) (when (h.kind == .createAs && !h.skipData) (fillFromQuery h own) s).2 := by
  by_cases hfill : (h.kind == .createAs && !h.skipData) = true
  · have hkind : (h.kind == .createAs) = true := (Bool.and_eq_true_iff.mp hfill).1
    simp only [Head.fillOutcome, hfill, if_true, when]
    cases husing : h.usingDucklake with
    | true =>
      have hctas : h.isCtas = true := by simp only [Head.isCtas, hkind, husing, Bool.and_self]
      simp only [Head.pendingWith, hctas, if_true] at hs
      obtain ⟨hexit, horder⟩ := fillFromQuery_own hs
      have hwritten : Outcome.Written ⟨h.insertQuery.returns, [h]⟩ := fun g hg => List.mem_singleton.mp hg ▸ husing
      exact ⟨fun _ => ⟨by rw [hexit], Or.inl horder⟩, fun hnot => absurd hwritten hnot⟩
    | false =>
      have hctas : h.isCtas = false := by simp only [Head.isCtas, husing, Bool.and_false]
      simp only [Head.pendingWith, hctas, Bool.false_eq_true, if_false] at hs
      have hnot : ¬Outcome.Written ⟨h.insertQuery.returns, [h]⟩ := fun hw => by
        have hwritten := hw h (List.mem_singleton.mpr rfl)
        rw [husing] at hwritten
        cases hwritten
      exact ⟨fun hw => absurd hw hnot, fun _ => fillFromQuery_older hs holder⟩
  · simp only [Head.fillOutcome, hfill, Bool.false_eq_true, if_false, when]
    exact leads_plain hs.leftOver

theorem tracks_trigger (holder : ∀ query ∈ stack, query < own) :
    Spec (Session.InOrder (h.pendingWith own stack)) (createTableTrigger h own)
      (h.triggerOutcome.Tracks (h.LeftOver own stack) (h.LeftOver own stack)) := by
  refine tracks_guarded fun s hs => ?_
  unfold Head.triggerOutcome
  split_ifs with hskip hmakes hvariant htemp
  · exact leads_plain hs.leftOver
  · rw [hvariant]
    exact leads_plain hs.leftOver
  · rw [Bool.not_eq_true] at hvariant
    rw [hvariant]
    exact leads_plain hs.leftOver
  · exact leads_plain hs.leftOver
  · have htaken : SameQueries s { s with pending := none } := ⟨rfl, rfl, rfl, rfl⟩
    obtain ⟨hreturns, hsame⟩ := createInDuckDB_run h s.pending { s with pending := none }
    have horder := (hs.congr htaken).congr hsame
    have htake : takePendingCreateOptions s = (.ret s.pending, { s with pending := none }) := rfl
    rw [bind_run, htake]
    simp only [bind_run]
    rcases hrun : createInDuckDB h s.pending { s with pending := none } with ⟨e, t⟩
    rw [hrun] at hreturns horder
    rw [← hreturns]
    cases e with
    | ret a => exact fill_leads horder holder
    | longjmp => exact leads_plain horder.leftOver
    | thrown => exact leads_plain horder.leftOver

end Trigger

/-! ## The hook -/

section Hook

variable {h : Head} {own : Nat} {stack : List Nat} {before after : Prog Session Unit} {a b : Outcome} {s t : Session}

/-- The outcome of the statement once its options are read. -/
def Head.processOutcome (h : Head) (a b : Outcome) : Outcome :=
  a.andThen <| (Outcome.plain !(h.workFails || h.rejected)).andThen <|
    (if h.createsTable && h.tagged then h.triggerOutcome else .plain true).andThen <| b.andThen (.plain !h.restFails)

theorem tracks_process (holder : ∀ query ∈ stack, query < own)
    (hbefore : ∀ stack, Spec (Session.InOrder stack) before (a.Tracks (Session.InOrder stack) (Session.InOrder stack)))
    (hafter : ∀ stack, Spec (Session.InOrder stack) after (b.Tracks (Session.InOrder stack) (Session.InOrder stack)))
    (hkeeps : Keeps Session.Mistaken after) :
    Spec (Session.InOrder (h.pendingWith own stack)) (processUtility h own before after)
      ((h.processOutcome a b).Tracks (h.LeftOver own stack) (h.LeftOver own stack)) := by
  have hleft : ∀ s, Session.InOrder (h.pendingWith own stack) s → h.LeftOver own stack s := fun _ hs => hs.leftOver
  have htrigger : Spec (Session.InOrder (h.pendingWith own stack))
      (when (h.createsTable && h.tagged) (createTableTrigger h own))
      ((if h.createsTable && h.tagged then h.triggerOutcome else .plain true).Tracks (h.LeftOver own stack)
        (h.LeftOver own stack)) := by
    cases hfires : h.createsTable && h.tagged with
    | true => exact tracks_trigger holder
    | false => exact fun s hs => leads_plain (hleft s hs)
  have hrest : Spec (h.LeftOver own stack) after (b.Tracks (h.LeftOver own stack) (h.LeftOver own stack)) := by
    rintro s (hs | ⟨hctas, hs⟩)
    · exact Outcome.Tracks.mono (hafter stack) (fun _ => Or.inl) (fun _ => Or.inl) s hs
    · exact Outcome.Tracks.mono (hafter (own :: stack)) (fun _ ht => Or.inr ⟨hctas, ht⟩)
        (fun _ ht => Or.inr ⟨hctas, ht⟩) s hs
  have hend : Keeps Session.Mistaken (when h.restFails (call .longjmp)) := keeps_longjmp.when _
  have hkeepsAfter : Keeps Session.Mistaken (after >>= fun _ => when h.restFails (call .longjmp)) :=
    hkeeps.bind fun _ => hend
  have hkeepsTrigger := ((keeps_mistaken_trigger h own).when (h.createsTable && h.tagged)).bind fun _ => hkeepsAfter
  refine Outcome.Tracks.bind (Outcome.Tracks.mono (hbefore _) (fun _ hs => hs) hleft) ?_
    ((keeps_longjmp.when _).bind fun _ => hkeepsTrigger)
  refine Outcome.Tracks.bind (tracks_fails _ hleft) ?_ hkeepsTrigger
  exact Outcome.Tracks.bind htrigger (Outcome.Tracks.bind hrest (tracks_fails _ fun _ hs => hs) hend) hkeepsAfter

/-- The statement's own query is removed, if it is still there. -/
def Head.closed (h : Head) (own : Nat) (s : Session) : Session := if h.isCtas then s.removeCtasQuery own else s

theorem filled_closed (s : Session) : (h.closed own s).filled = s.filled := by
  unfold Head.closed Session.removeCtasQuery
  split_ifs <;> rfl

theorem inOrder_closed (holder : ∀ query ∈ stack, query < own) (hs : h.LeftOver own stack s) :
    (h.closed own s).InOrder stack := by
  rcases hs with hs | ⟨hctas, hs⟩
  · have hhead : s.pendingCtasQueries.head? ≠ some own := by
      intro hown
      have hmem : own ∈ stack := hs.pending ▸ List.mem_of_mem_head? (Option.mem_def.mpr hown)
      exact Nat.lt_irrefl own (holder own hmem)
    have hsame : h.closed own s = s := by simp [Head.closed, Session.removeCtasQuery, hhead]
    rw [hsame]
    exact hs
  · have hpop : h.closed own s = { s with pendingCtasQueries := stack } := by
      simp [Head.closed, hctas, Session.removeCtasQuery, hs.pending]
    rw [hpop]
    exact ⟨rfl, fun query hq => hs.older query (List.mem_cons_of_mem _ hq), hs.own, hs.balanced⟩

theorem remove_run (s : Session) : when h.isCtas (removePendingCtasQuery own) s = (.ret (), h.closed own s) := by
  cases hctas : h.isCtas <;> simp [when, Head.closed, hctas, removePendingCtasQuery]

theorem hookCatch_run (stripped : Bool) (s : Session) :
    ∃ t, hookCatch h own stripped s = (.longjmp, h.closed own t) ∧ SameQueries s t := by
  have hremove : ∀ t, (when h.isCtas (removePendingCtasQuery own) >>= fun _ => call .longjmp) t =
      ((.longjmp, h.closed own t) : Exit Unit × Session) := by
    intro t
    rw [bind_run, remove_run]
    rfl
  cases stripped with
  | true => exact ⟨{ s with pending := none }, hremove _, ⟨rfl, rfl, rfl, rfl⟩⟩
  | false => exact ⟨s, hremove s, ⟨rfl, rfl, rfl, rfl⟩⟩

theorem stripOptions_run (h : Head) (s : Session) :
    h.optionsValid = false ∧ stripOptions h s = (.longjmp, s) ∨
      h.optionsValid = true ∧ ∃ stripped t, stripOptions h s = (.ret stripped, t) ∧ SameQueries s t := by
  by_cases hducklake : (h.createsTable && h.usingDucklake) = true
  · simp only [Head.optionsValid, stripOptions, stripDucklakeCreateOptions, hducklake, if_true, Bool.not_true,
      Bool.false_or]
    rcases parseOptions h.options none with _ | ⟨_ | path, rest⟩
    · exact Or.inl ⟨rfl, rfl⟩
    · exact Or.inr ⟨rfl, false, s, rfl, ⟨rfl, rfl, rfl, rfl⟩⟩
    · exact Or.inr ⟨rfl, true, { s with pending := some path }, rfl, ⟨rfl, rfl, rfl, rfl⟩⟩
  · rw [Bool.not_eq_true] at hducklake
    refine Or.inr ⟨by simp [Head.optionsValid, hducklake], false, s, ?_, ⟨rfl, rfl, rfl, rfl⟩⟩
    simp [stripOptions, hducklake]

theorem tracks_hookRest (holder : ∀ query ∈ stack, query < own) {o : Outcome} {p : Prog Session Unit}
    (hp : Spec (Session.InOrder (h.pendingWith own stack)) p (o.Tracks (h.LeftOver own stack) (h.LeftOver own stack)))
    (stripped : Bool) :
    Spec (Session.InOrder (h.pendingWith own stack))
      (pgTry p (hookCatch h own stripped) >>= fun _ => when h.isCtas (removePendingCtasQuery own))
      (o.Tracks (Session.InOrder stack) (Session.InOrder stack)) := by
  have hcatch : Spec (o.Leads false (h.LeftOver own stack)) (hookCatch h own stripped)
      (o.Tracks (h.LeftOver own stack) (Session.InOrder stack)) := by
    intro s hs
    obtain ⟨t, hrun, hsame⟩ : ∃ t, hookCatch h own stripped s = (.longjmp, h.closed own t) ∧ SameQueries s t :=
      hookCatch_run stripped s
    rw [hrun]
    refine hs.map (fun hleft => inOrder_closed holder ?_) fun hm => hm.congr ((filled_closed t).trans hsame.filled)
    exact hleft.imp (·.congr hsame) fun hl => ⟨hl.1, hl.2.congr hsame⟩
  refine Spec.bind (hp.pgTry hcatch) fun _ s hs => ?_
  rw [remove_run]
  exact hs.map (inOrder_closed holder) fun hm => hm.congr (filled_closed s)

theorem tracks_hookBody {p q : Prog Session Unit} (holder : ∀ query ∈ stack, query < own)
    (hbefore : ∀ stack, Spec (Session.InOrder stack) p (a.Tracks (Session.InOrder stack) (Session.InOrder stack)))
    (hafter : ∀ stack, Spec (Session.InOrder stack) q (b.Tracks (Session.InOrder stack) (Session.InOrder stack)))
    (hkeeps : Keeps Session.Mistaken q) :
    Spec (fun s => s.InOrder stack ∧ own < s.queries) (hookBody h own p q)
      (((Outcome.plain h.optionsValid).andThen (h.processOutcome a b)).Tracks (Session.InOrder stack)
        (Session.InOrder stack)) := by
  rintro s ⟨hs, hnew⟩
  unfold hookBody
  rcases stripOptions_run h s with ⟨hvalid, hrun⟩ | ⟨hvalid, stripped, t, hrun, hsame⟩
  · rw [bind_run, hrun, hvalid]
    exact leads_plain hs
  · have hprocess : (Outcome.plain true).andThen (h.processOutcome a b) = h.processOutcome a b := rfl
    have hpush : ∃ u, when h.isCtas (pushPendingCtasQuery own) t = (.ret (), u) ∧ u.InOrder (h.pendingWith own stack) := by
      have ht := hs.congr hsame
      unfold Head.pendingWith
      cases hctas : h.isCtas with
      | false => exact ⟨t, rfl, ht⟩
      | true =>
        refine ⟨{ t with pendingCtasQueries := own :: t.pendingCtasQueries }, rfl, ?_⟩
        refine ⟨congrArg (own :: ·) ht.pending, fun query hq => ?_, ht.own, ht.balanced⟩
        rcases List.mem_cons.mp hq with rfl | hq
        · exact hsame.queries ▸ hnew
        · exact ht.older query hq
    obtain ⟨u, hpushed, hu⟩ := hpush
    rw [bind_run, hrun, hvalid, hprocess]
    simp only [bind_run t, hpushed]
    exact tracks_hookRest holder (tracks_process holder hbefore hafter hkeeps) stripped u hu

end Hook

/-! ## Statements and sessions -/

section Statements

theorem tracks_observed {o : Outcome} {stack : List Nat} {p : Prog Session Unit}
    (hp : Spec (Session.InOrder stack) p (o.Tracks (Session.InOrder stack) (Session.InOrder stack))) :
    Spec (Session.InOrder stack) (observed p) (o.Tracks (Session.InOrder stack) (Session.InOrder stack)) := by
  intro s hs
  have hq := hp s hs
  have hrecord : ∀ t : Session, t.InOrder stack →
      ({ t with balances := t.balances ++ [(s.pendingCtasQueries, t.pendingCtasQueries)] } : Session).InOrder stack := by
    intro t ht
    refine ⟨ht.pending, ht.older, ht.own, fun b hb => ?_⟩
    rcases List.mem_append.mp hb with hb | hb
    · exact ht.balanced b hb
    · rw [List.mem_singleton.mp hb]
      exact ht.pending.trans hs.pending.symm
  unfold observed
  rcases hrun : p s with ⟨e, t⟩
  rw [hrun] at hq
  cases e with
  | ret a => exact hq.map (hrecord t) fun hm => hm.congr rfl
  | longjmp => exact hq.map (hrecord t) fun hm => hm.congr rfl
  | thrown => exact hq

mutual

theorem tracks_stmt : ∀ (stmt : Stmt) (stack : List Nat),
    Spec (Session.InOrder stack) (utilityHook stmt)
      (stmt.outcome.Tracks (Session.InOrder stack) (Session.InOrder stack))
  | .mk h before after, stack => by
    rw [utilityHook, Stmt.outcome]
    refine tracks_observed fun s hs => ?_
    have hnew : newQuery s = (.ret s.queries, { s with queries := s.queries + 1 }) := rfl
    rw [bind_run, hnew]
    have horder : ({ s with queries := s.queries + 1 } : Session).InOrder stack :=
      ⟨hs.pending, fun query hq => Nat.lt_succ_of_lt (hs.older query hq), hs.own, hs.balanced⟩
    exact tracks_hookBody hs.older (tracks_all before) (tracks_all after) (keeps_mistaken_all after) _
      ⟨horder, Nat.lt_succ_self _⟩

theorem tracks_all : ∀ (stmts : Stmts) (stack : List Nat),
    Spec (Session.InOrder stack) (runAll stmts)
      (stmts.outcomes.Tracks (Session.InOrder stack) (Session.InOrder stack))
  | .nil, _ => by
    rw [runAll, Stmts.outcomes]
    exact fun s hs => leads_plain hs
  | .cons caught stmt rest, stack => by
    rw [runAll, Stmts.outcomes]
    exact Outcome.Tracks.bind (Outcome.Tracks.caught (tracks_stmt stmt stack) caught) (tracks_all rest stack)
      (keeps_mistaken_all rest)

end

end Statements

/-- Each table was filled from the query of its own statement, and each statement left the stack as it found it. -/
def Session.OwnQueries (s : Session) : Prop :=
  (∀ f ∈ s.filled, f.taken = some f.own) ∧ ∀ b ∈ s.balances, b.2 = b.1

/-- For every session: tables are filled from their own queries and the stack is kept, just if `USING ducklake` is written
for each table that is to be filled. -/
theorem own_queries_iff (stmts : Stmts) : (runAll stmts .start).2.OwnQueries ↔ stmts.outcomes.Written := by
  have hstart : Session.start.InOrder [] :=
    ⟨rfl, nofun, nofun, nofun⟩
  have hend := tracks_all stmts [] .start hstart
  have hleads : ∃ completes, stmts.outcomes.Leads completes (Session.InOrder []) (runAll stmts .start).2 := by
    rcases hrun : runAll stmts .start with ⟨e, t⟩
    rw [hrun] at hend
    cases e with
    | ret a => exact ⟨true, hend⟩
    | longjmp => exact ⟨false, hend⟩
    | thrown => exact hend.elim
  obtain ⟨completes, hleads⟩ := hleads
  constructor
  · intro hown
    by_contra hnot
    obtain ⟨f, hf, hne⟩ := hleads.not hnot
    exact hne (hown.1 f hf)
  · intro hwritten
    obtain ⟨-, horder⟩ := hleads.written hwritten
    exact ⟨horder.own, horder.balanced⟩

/-- Under `default_table_access_method = 'ducklake'`, a CREATE TABLE AS finds no query; called from the query of a CREATE
TABLE AS with USING ducklake it takes that statement's query, and the outer statement then finds none. -/
theorem unwritten_takes_other :
    (runAll (.cons true (.mk { Head.plain .createAs none [] with defaultAccessMethod := "ducklake" } .nil .nil) .nil)
        .start).2.filled = [⟨0, false, none⟩] ∧
      (runAll (.cons true (.mk (.plain .createAs (some "ducklake") [])
          (.cons false (.mk { Head.plain .createAs none [] with defaultAccessMethod := "ducklake" } .nil .nil) .nil) .nil)
        .nil) .start).2.filled = [⟨1, false, some 0⟩, ⟨0, true, none⟩] := ⟨rfl, rfl⟩

end PgDucklake.Statements
