import PgDucklake.Writer.Runs

/-!
# What a step does to its writer

`Moves` lists the transitions of a writer's batch and phase, with what they add to the history; `writerStep_moves` says
that there are no others. `next_others` and `next_history` are what a step leaves of the rest.
-/

namespace PgDucklake.Writer

open Lib

/-- A transition of a writer: the action, the writer after it and the new entries of the history. -/
inductive Moves (env : Env) (s : Store) (b : Backend) : Action → Backend → List Publication → Prop
  | prepareRead {w : Nat} (hb : b.phase = .prepareRead) : Moves env s b (.read w)
      ⟨b.batch, afterRead .prepareDerive .prepared
        (readPublicationState s.catalog (s.sees b.batch.ownerXid) b.batch int64Max)⟩ []
  | prepareDerive {w : Nat} {st : PublicationState} (hb : b.phase = .prepareDerive st) : Moves env s b (.derive w)
      ⟨b.batch, .prepared
        { st with recordCount := 0, nextRowId := deriveNextRowId s.catalog (s.sees b.batch.ownerXid) b.batch }⟩ []
  | reserve {w commandId : Nat} {answer : Option (Nat × Nat)} {st : PublicationState} (hb : b.phase = .prepared st) :
      Moves env s b (.reserve w commandId answer)
        ⟨b.batch.withCandidates st commandId answer, afterCheck .prewriting (checkPreparedState b.batch st)⟩ []
  | bind {w : Nat} {supportsInplace : Bool} (hb : b.phase = .prewriting) (hz : b.batch.rowsInserted = 0) :
      Moves env s b (.bind w supportsInplace)
        ⟨{ b.batch with inlineTableBound := true, rowPointerTrackingEnabled := supportsInplace }, .prewriting⟩ []
  | prewrite {w count : Nat} (hb : b.phase = .prewriting) : Moves env s b (.prewrite w count)
      ⟨b.batch.recordChunk s.catalog.inlined.length count, .prewriting⟩ []
  | publish {w : Nat} {answer : Bool} (hb : b.phase = .prewriting) : Moves env s b (.publish w answer)
      ⟨b.batch, publishPhase b.batch answer⟩ []
  | publishRead {w attempt : Nat} {valid : Bool} (hb : b.phase = .publishRead attempt valid) : Moves env s b (.read w)
      ⟨b.batch, afterRead (.publishDerive attempt valid) (.publishCheck attempt valid)
        (readPublicationState s.catalog (s.sees b.batch.ownerXid) b.batch b.batch.startSnapshotId)⟩ []
  | publishDerive {w attempt : Nat} {valid : Bool} {st : PublicationState} (hb : b.phase = .publishDerive attempt valid st) :
      Moves env s b (.derive w) ⟨b.batch, .publishCheck attempt valid
        { st with recordCount := 0, nextRowId := deriveNextRowId s.catalog (s.sees b.batch.ownerXid) b.batch }⟩ []
  | check {w attempt : Nat} {valid answer : Bool} {st : PublicationState} (hb : b.phase = .publishCheck attempt valid st) :
      Moves env s b (.check w answer)
        ⟨b.batch, afterCheck (.claim attempt (valid && answer) st) (checkPublicationState env b.batch st)⟩ []
  | claimLost {w commandId attempt : Nat} {valid : Bool} {st : PublicationState} (hb : b.phase = .claim attempt valid st)
      (hcl : claimSnapshot s b.batch.ownerXid (finalSnapshotId st) = .lost) :
      Moves env s b (.claim w commandId) ⟨b.batch, lostPhase env attempt⟩ []
  | claimed {w commandId attempt : Nat} {valid : Bool} {st : PublicationState} (hb : b.phase = .claim attempt valid st)
      (hcl : claimSnapshot s b.batch.ownerXid (finalSnapshotId st) = .claimed) :
      Moves env s b (.claim w commandId) ⟨b.batch, claimedPhase b.batch valid st⟩ []
  | retag {w commandId : Nat} {supportsInplace valid : Bool} {st : PublicationState} {after : Phase}
      (hb : b.phase = .retag valid st) (hp : after = .tableStats valid st ∨ ∃ e, after = .failed e) :
      Moves env s b (.retag w commandId supportsInplace) ⟨b.batch, after⟩ []
  | tableStats {w commandId : Nat} {valid : Bool} {st : PublicationState} {after : Phase}
      (hb : b.phase = .tableStats valid st) (hp : after = .changeRecord valid st ∨ ∃ e, after = .failed e) :
      Moves env s b (.tableStats w commandId) ⟨b.batch, after⟩ []
  | changeRecord {w commandId : Nat} {valid : Bool} {st : PublicationState} (hb : b.phase = .changeRecord valid st) :
      Moves env s b (.changeRecord w commandId) ⟨b.batch, .markPublished valid st⟩ []
  | markPublished {w : Nat} {valid : Bool} {st : PublicationState} (hb : b.phase = .markPublished valid st) :
      Moves env s b (.markPublished w) ⟨b.batch, .published valid st⟩ []
  | commit {w : Nat} {valid : Bool} {st : PublicationState} (hb : b.phase = .published valid st) :
      Moves env s b (.commit w) ⟨b.batch, .ended true⟩ [publicationOf b.batch st]
  | commitNothing {w : Nat} (hb : b.phase = .returned) : Moves env s b (.commit w) ⟨b.batch, .ended true⟩ []
  | abort {w : Nat} (hb : b.phase.isEnded = false) : Moves env s b (.abort w) ⟨b.batch, .ended false⟩ []

theorem writerStep_moves {env : Env} {s t : State} {w : Nat} {b : Backend} {a : Action}
    (hn : writerStep env s w b a = some t) :
    (∃ v, a = .callback v ∧ b.phase.isEnded = true ∧ t = { s with writers := Function.update s.writers w none }) ∨
      ∃ b' new, t.writers = Function.update s.writers w (some b') ∧ t.history = new ++ s.history ∧
        Moves env s.toStore b a b' new := by
  unfold writerStep at hn
  dsimp only at hn
  split at hn
  case h_1 hb => cases hn; exact Or.inr ⟨_, _, rfl, rfl, .prepareRead hb⟩
  case h_2 hb => cases hn; exact Or.inr ⟨_, _, rfl, rfl, .prepareDerive hb⟩
  case h_3 hb => cases hn; exact Or.inr ⟨_, _, rfl, rfl, .reserve hb⟩
  case h_4 hb =>
    split at hn
    · rename_i hz
      cases hn
      exact Or.inr ⟨_, _, rfl, rfl, .bind hb (by simpa using hz)⟩
    · cases hn
  case h_5 hb =>
    split at hn
    · cases hn; exact Or.inr ⟨_, _, rfl, rfl, .prewrite hb⟩
    · cases hn
  case h_6 hb => cases hn; exact Or.inr ⟨_, _, rfl, rfl, .publish hb⟩
  case h_7 hb => cases hn; exact Or.inr ⟨_, _, rfl, rfl, .publishRead hb⟩
  case h_8 hb => cases hn; exact Or.inr ⟨_, _, rfl, rfl, .publishDerive hb⟩
  case h_9 hb => cases hn; exact Or.inr ⟨_, _, rfl, rfl, .check hb⟩
  case h_10 hb =>
    split at hn
    · cases hn
    · rename_i hcl
      cases hn
      exact Or.inr ⟨_, _, rfl, rfl, .claimLost hb hcl⟩
    · rename_i hcl
      cases hn
      exact Or.inr ⟨_, _, rfl, rfl, .claimed hb hcl⟩
  case h_11 hb =>
    split at hn
    · cases hn; exact Or.inr ⟨_, _, rfl, rfl, .retag hb (Or.inr ⟨_, rfl⟩)⟩
    · cases hn; exact Or.inr ⟨_, _, rfl, rfl, .retag hb (Or.inl rfl)⟩
  case h_12 hb =>
    split at hn
    · cases hn; exact Or.inr ⟨_, _, rfl, rfl, .tableStats hb (Or.inr ⟨_, rfl⟩)⟩
    · cases hn; exact Or.inr ⟨_, _, rfl, rfl, .tableStats hb (Or.inl rfl)⟩
  case h_13 hb => cases hn; exact Or.inr ⟨_, _, rfl, rfl, .changeRecord hb⟩
  case h_14 hb => cases hn; exact Or.inr ⟨_, _, rfl, rfl, .markPublished hb⟩
  case h_15 hb => cases hn; exact Or.inr ⟨_, _, rfl, rfl, .commit hb⟩
  case h_16 hb => cases hn; exact Or.inr ⟨_, _, rfl, rfl, .commitNothing hb⟩
  case h_17 hb => cases hn; exact Or.inl ⟨_, rfl, by rw [hb]; rfl, rfl⟩
  case h_18 => cases hn
  case h_19 hended =>
    cases hn
    refine Or.inr ⟨_, _, rfl, rfl, .abort ?_⟩
    cases hp : b.phase with
    | ended c => exact absurd hp (hended c)
    | _ => rfl
  case h_20 => cases hn

section Next

variable {env : Env} {s t : State} {a : Action}

/-- An action of the writer `w`, other than the start of its transaction, is a step of it. -/
theorem next_writerStep {w : Nat} (hn : next env s a = some t) (ha : a.writer = some w)
    (hp : ∀ v tableId schemaVersion isTransactionBlock usesXactSnapshot nestLevel,
      a ≠ .prepare v tableId schemaVersion isTransactionBlock usesXactSnapshot nestLevel) :
    ∃ b, s.writers w = some b ∧ writerStep env s w b a = some t := by
  cases a with
  | prepare v tableId schemaVersion isTransactionBlock usesXactSnapshot nestLevel => exact absurd rfl (hp _ _ _ _ _ _)
  | external e => cases ha
  | _ =>
    simp only [Action.writer, Option.some.injEq] at ha
    subst ha
    simpa only [next, Action.writer, Option.bind_eq_some_iff] using hn

theorem next_prepare {w tableId schemaVersion nestLevel : Nat} {isTransactionBlock usesXactSnapshot : Bool}
    (hn : next env s (.prepare w tableId schemaVersion isTransactionBlock usesXactSnapshot nestLevel) = some t) :
    s.writers w = none ∧ t = { s with nextXid := s.nextXid + 1 }.setWriter w
      ⟨.empty tableId schemaVersion s.nextXid, preparePhase isTransactionBlock usesXactSnapshot nestLevel⟩ := by
  simp only [next] at hn
  split at hn
  · cases hn
  · rename_i hw
    cases hn
    exact ⟨hw, rfl⟩

theorem externalInsert_history (sees : Nat → Bool) (x snapshotId : Nat) : ∀ (inserts : List ExternalInsert)
    (acc : Catalog × List Publication), ∃ new,
      (inserts.foldl (externalInsert sees x snapshotId) acc).2 = new ++ acc.2
  | [], acc => ⟨[], rfl⟩
  | ins :: inserts, acc => by
    obtain ⟨new, hnew⟩ := externalInsert_history sees x snapshotId inserts (externalInsert sees x snapshotId acc ins)
    exact ⟨new ++ [_], by rw [List.foldl_cons, hnew, externalInsert, List.append_assoc]; rfl⟩

theorem next_external {e : ExternalCommit} (hn : next env s (.external e) = some t) :
    t.writers = s.writers ∧ ∃ new, t.history = new ++ s.history := by
  simp only [next] at hn
  split at hn
  · cases hn
  · split at hn
    · cases hn
      exact ⟨rfl, externalInsert_history _ _ _ _ _⟩
    · cases hn

theorem next_others {w : Nat} (hn : next env s a = some t) (ha : a.writer ≠ some w) : t.writers w = s.writers w := by
  have hstep : ∀ v b, a.writer = some v → writerStep env s v b a = some t → t.writers w = s.writers w := by
    intro v b hv hs
    have hne : w ≠ v := fun h => ha (h ▸ hv)
    rcases writerStep_moves hs with ⟨_, _, _, rfl⟩ | ⟨b', new, hw, _⟩
    · exact Function.update_of_ne hne _ _
    · rw [hw, Function.update_of_ne hne]
  cases a with
  | prepare v tableId schemaVersion isTransactionBlock usesXactSnapshot nestLevel =>
    obtain ⟨_, rfl⟩ := next_prepare hn
    have hne : w ≠ v := fun h => ha (by simp [Action.writer, h])
    exact Function.update_of_ne hne _ _
  | external e => rw [(next_external hn).1]
  | _ =>
    obtain ⟨b, _, hs⟩ := next_writerStep hn rfl (by simp)
    exact hstep _ b rfl hs

theorem next_history (hn : next env s a = some t) : ∃ new, t.history = new ++ s.history := by
  have hstep : ∀ v b, writerStep env s v b a = some t → ∃ new, t.history = new ++ s.history := by
    intro v b hs
    rcases writerStep_moves hs with ⟨_, _, _, rfl⟩ | ⟨b', new, _, hh, _⟩
    · exact ⟨[], rfl⟩
    · exact ⟨new, hh⟩
  cases a with
  | prepare v tableId schemaVersion isTransactionBlock usesXactSnapshot nestLevel =>
    obtain ⟨_, rfl⟩ := next_prepare hn
    exact ⟨[], rfl⟩
  | external e => exact (next_external hn).2
  | _ =>
    obtain ⟨b, _, hs⟩ := next_writerStep hn rfl nofun
    exact hstep _ b hs

end Next

end PgDucklake.Writer
