import PgDucklake.Fdw.Queries

/-!
# Frozen servers

A server with a frozen URL is not updatable by default, and its validator does not let it be made so. A table of the
server has an option of the same name that goes before the server's, and whose validator does not know the server. What
keeps a modification from DuckDB is the walk that refuses it (`Query.Refused`), and for a frozen server it asks the table's
option only (`frozen_isUpdatable_iff`).
-/

namespace PgDucklake.Fdw

/-- Both validators have accepted. -/
def ForeignTable.Accepted (table : ForeignTable) : Prop :=
  ducklakeFdwValidator table.server.options = .ok () ∧ ducklakeFdwTableValidator table.options = .ok ()

/-- The option of the table says that it is updatable. -/
def ForeignTable.SaysUpdatable (table : ForeignTable) : Prop :=
  ∃ value, getOptionValue table.options "updatable" = some value ∧ sameIgnoringCase value "true" = true

/-- Some query in it inserts into the relation, updates it or deletes from it. -/
def Query.Modifies (q : Query) (relid : Oid) : Prop :=
  ∃ q', Below everywhere q q' ∧ (q'.commandType = .insert ∨ q'.commandType = .update ∨ q'.commandType = .delete) ∧
    0 < q'.resultRelation ∧ ∃ rte, q'.rtable[q'.resultRelation - 1]? = some rte ∧ rte.relid = relid

/-- A query that modifies a table of a frozen server is not handed to DuckDB. -/
def FrozenReadOnly (session : Session) (forced : Bool) (q : Query) : Prop :=
  ∀ relid table, q.Modifies relid → session.state.ducklakeTable relid = some table →
    table.server.isFrozenServer = true → table.Accepted →
      ∀ routed, ducklakePlannerHook session forced q = .ok routed → routed.toDuckDB = false

/-- The walk that refuses is made and comes to a table that is not updatable, or no walk finds a foreign table and nothing
else asks for DuckDB. -/
def Stopped (session : Session) (forced : Bool) (q : Query) : Prop :=
  (session.initialized = true ∧ q.Refused session.state) ∨
    (forced = false ∧ ¬∃ relid, q.Mentions referencesWalk relid ∧ (session.state.recognised relid).isSome = true)

theorem validator_frozen {options : List (Text × Text)} (h : ducklakeFdwValidator options = .ok ())
    (hfrozen : (getOptionValue options "frozen_url").isSome = true) {value : Text}
    (hvalue : getOptionValue options "updatable" = some value) : sameIgnoringCase value "true" = false := by
  unfold ducklakeFdwValidator at h
  split at h
  · cases h
  · simp only [hfrozen, hvalue, Bool.true_and] at h
    by_contra htrue
    rw [Bool.not_eq_false] at htrue
    simp only [htrue] at h
    split_ifs at h

theorem frozen_isUpdatable_iff {table : ForeignTable} (hfrozen : table.server.isFrozenServer = true)
    (haccepted : table.Accepted) : table.isUpdatable = true ↔ table.SaysUpdatable := by
  unfold ForeignTable.isUpdatable ForeignTable.SaysUpdatable
  cases htable : getOptionValue table.options "updatable" with
  | some value => simp
  | none =>
    cases hserver : getOptionValue table.server.options "updatable" with
    | some value => simp [validator_frozen haccepted.1 hfrozen hserver]
    | none => simp [hfrozen]

theorem toDuckDB_false_iff (session : Session) (forced : Bool) (q : Query) :
    (∀ routed, ducklakePlannerHook session forced q = .ok routed → routed.toDuckDB = false) ↔
      Stopped session forced q := by
  unfold Stopped
  rw [← references_iff, Bool.not_eq_true]
  constructor
  · intro h
    by_cases hrefused : session.initialized = true ∧ q.Refused session.state
    · exact .inl hrefused
    · obtain ⟨routed, hhook⟩ := (hook_ok_iff session forced q).mpr fun hinit hq => hrefused ⟨hinit, hq⟩
      have hnot := h routed hhook
      rw [(hook_attached hhook).1, Bool.or_eq_false_iff] at hnot
      exact .inr hnot
  · rintro (⟨hinit, hq⟩ | ⟨hforced, hrefers⟩) routed hhook
    · exact absurd hq ((hook_ok_iff session forced q).mp ⟨routed, hhook⟩ hinit)
    · rw [(hook_attached hhook).1, hforced, hrefers]
      rfl

/-- Frozen servers are read-only for the queries that are stopped, and what stops a modification of a frozen server's table
is that the option of the table does not say otherwise. -/
theorem frozen_read_only_iff (session : Session) (forced : Bool) (q : Query) :
    (FrozenReadOnly session forced q ↔
      ∀ relid table, q.Modifies relid → session.state.ducklakeTable relid = some table →
        table.server.isFrozenServer = true → table.Accepted → Stopped session forced q) ∧
      ∀ table : ForeignTable, table.server.isFrozenServer = true → table.Accepted →
        (table.isUpdatable = false ↔ ¬table.SaysUpdatable) := by
  constructor
  · unfold FrozenReadOnly
    simp only [toDuckDB_false_iff]
  · intro table hfrozen haccepted
    rw [← frozen_isUpdatable_iff hfrozen haccepted, Bool.not_eq_true]

/-! ## A table that says it is updatable -/

def frozenTable : ForeignTable where
  fdwid := 1
  server := ⟨"s".toList, [("frozen_url".toList, "a.ducklake".toList)]⟩
  options := [("updatable".toList, "true".toList)]

/-- DELETE FROM the table. -/
def deleteFrozen : Query := .mk .delete 1 [.relation 1 []] [] []

/-- Both validators accept the options, and the deletion is handed to DuckDB. -/
theorem frozen_table_deleted_from :
    frozenTable.Accepted ∧ frozenTable.server.isFrozenServer = true ∧
      deleteFrozen.Modifies 1 ∧ (oneTable frozenTable).ducklakeTable 1 = some frozenTable ∧
      ducklakePlannerHook ⟨oneTable frozenTable, ⟨"db".toList, "u".toList⟩, true⟩ false deleteFrozen =
        .ok ⟨[frozenTable.server], true⟩ := by
  refine ⟨⟨by decide, by decide⟩, by decide, ?_, by decide, ?_⟩
  · exact ⟨deleteFrozen, .refl, .inr (.inr rfl), Nat.one_pos, _, rfl, rfl⟩
  · rfl

end PgDucklake.Fdw
