import Mathlib.Data.List.Basic
import Mathlib.Tactic.SplitIfs

/-!
# time_travel

`time_travel(schema, table, …)` joins its two names to one text and hands it to the form with one name, which takes it
apart again as a qualified name. The parser of qualified names is DuckDB's, and only its laws are known (`NameParser`).
`time_travel_exact_iff` says for which names the table that is looked up is the one that was named.
-/

namespace PgDucklake.TimeTravel

abbrev Text := List Char

/-- `QualifiedName`; an empty text is a part that is not there. -/
structure QualifiedName where
  catalog : Text
  schema : Text
  name : Text
  deriving DecidableEq, Repr

/-- Neither a point nor a quote. -/
def Simple (text : Text) : Prop := '.' ∉ text ∧ '"' ∉ text

instance (text : Text) : Decidable (Simple text) := inferInstanceAs (Decidable (_ ∧ _))

/-- `QualifiedName::Parse`; `none` is an error. Points separate, an empty text behind the last one is no component, quotes
are dropped, and without quotes there is no other way to write a point. -/
structure NameParser where
  parse : Text → Option QualifiedName
  join : ∀ s t, Simple s → Simple t → t ≠ [] → parse (s ++ '.' :: t) = some ⟨[], s, t⟩
  join_catalog : ∀ c s t, Simple c → Simple s → Simple t → t ≠ [] →
    parse (c ++ '.' :: (s ++ '.' :: t)) = some ⟨c, s, t⟩
  join_empty : ∀ s, Simple s → parse (s ++ ['.']) = some ⟨[], [], s⟩
  no_quote : ∀ input q, parse input = some q → '"' ∉ q.schema ∧ '"' ∉ q.name
  no_point : ∀ input q, '"' ∉ input → parse input = some q → '.' ∉ q.schema ∧ '.' ∉ q.name

/-- The table that is looked up in the DuckLake catalog. -/
structure Lookup where
  schema : Text
  table : Text
  deriving DecidableEq, Repr

def schemaOrPublic (schema : Text) : Text := if schema = [] then "public".toList else schema

section Bind

variable (parser : NameParser)

/-- `TimeTravelBind` as far as the lookup. The catalog of the name is not used. -/
def timeTravelBind (input : Text) : Option Lookup :=
  (parser.parse input).map fun qname => ⟨schemaOrPublic qname.schema, qname.name⟩

/-- `TimeTravelSchemaTableBind`. -/
def timeTravelSchemaTableBind (schemaName tableName : Text) : Option Lookup :=
  timeTravelBind parser (schemaName ++ ".".toList ++ tableName)

end Bind

/-- The table that is named. -/
def named (schemaName tableName : Text) : Lookup := ⟨schemaOrPublic schemaName, tableName⟩

section Exact

variable {parser : NameParser} {s t : Text}

theorem timeTravelSchemaTableBind_eq (parser : NameParser) (s t : Text) :
    timeTravelSchemaTableBind parser s t =
      (parser.parse (s ++ '.' :: t)).map fun qname => ⟨schemaOrPublic qname.schema, qname.name⟩ := by
  have hpoint : ".".toList = ['.'] := by decide
  rw [timeTravelSchemaTableBind, hpoint, List.append_assoc, List.singleton_append]
  rfl

theorem timeTravelSchemaTableBind_simple (hs : Simple s) (ht : Simple t) (hne : t ≠ []) :
    timeTravelSchemaTableBind parser s t = some (named s t) := by
  rw [timeTravelSchemaTableBind_eq, parser.join s t hs ht hne]
  rfl

theorem timeTravelSchemaTableBind_nil (hs : Simple s) :
    timeTravelSchemaTableBind parser s [] = some (named [] s) := by
  rw [timeTravelSchemaTableBind_eq, parser.join_empty s hs]
  rfl

theorem simple_of_lookup (h : timeTravelSchemaTableBind parser s t = some (named s t)) : Simple s ∧ Simple t := by
  rw [timeTravelSchemaTableBind_eq, Option.map_eq_some_iff] at h
  obtain ⟨q, hq, hsame⟩ := h
  have hschema : schemaOrPublic q.schema = schemaOrPublic s := congrArg Lookup.schema hsame
  have htable : q.name = t := congrArg Lookup.table hsame
  have hpublic : Simple "public".toList := ⟨by decide, by decide⟩
  have hempty : Simple [] := ⟨List.not_mem_nil, List.not_mem_nil⟩
  have hs : s = [] ∨ s = "public".toList ∨ s = q.schema := by
    unfold schemaOrPublic at hschema
    split_ifs at hschema with hq hs
    · exact .inl hs
    · exact .inr (.inl hschema.symm)
    · exact .inl ‹s = []›
    · exact .inr (.inr hschema.symm)
  -- Quotes are dropped, so neither name has one; then every point separates.
  obtain ⟨hquoteSchema, hquoteTable⟩ := parser.no_quote _ q hq
  rw [htable] at hquoteTable
  have hquote : '"' ∉ s := by
    rcases hs with rfl | rfl | rfl
    · exact hempty.2
    · exact hpublic.2
    · exact hquoteSchema
  obtain ⟨hpointSchema, hpointTable⟩ := parser.no_point _ q (by simp [hquote, hquoteTable]) hq
  rw [htable] at hpointTable
  refine ⟨?_, hpointTable, hquoteTable⟩
  rcases hs with rfl | rfl | rfl
  · exact hempty
  · exact hpublic
  · exact ⟨hpointSchema, hquoteSchema⟩

/-- A table name and a schema name that reach the lookup as they are. -/
def Addressable (s t : Text) : Prop := Simple s ∧ Simple t ∧ (t = [] → s = [])

theorem lookup_iff (parser : NameParser) (s t : Text) :
    timeTravelSchemaTableBind parser s t = some (named s t) ↔ Addressable s t := by
  constructor
  · intro h
    obtain ⟨hs, ht⟩ := simple_of_lookup h
    refine ⟨hs, ht, ?_⟩
    rintro rfl
    rw [timeTravelSchemaTableBind_nil hs, Option.some.injEq] at h
    exact congrArg Lookup.table h
  · rintro ⟨hs, ht, hempty⟩
    by_cases hne : t = []
    · obtain rfl := hempty hne
      subst hne
      exact timeTravelSchemaTableBind_nil hs
    · exact timeTravelSchemaTableBind_simple hs ht hne

/-- **Time travel addresses the named table** exactly if neither name has a point or a quote and the table has a name; two
such pairs are looked up as two tables unless they name one. -/
theorem time_travel_exact_iff (parser : NameParser) (s t s' t' : Text) :
    (timeTravelSchemaTableBind parser s t = some (named s t) ∧
        timeTravelSchemaTableBind parser s' t' = some (named s' t') ∧
        (timeTravelSchemaTableBind parser s t = timeTravelSchemaTableBind parser s' t' → named s t = named s' t')) ↔
      Addressable s t ∧ Addressable s' t' := by
  constructor
  · rintro ⟨h, h', -⟩
    exact ⟨(lookup_iff parser s t).mp h, (lookup_iff parser s' t').mp h'⟩
  · rintro ⟨hst, hst'⟩
    have h := (lookup_iff parser s t).mpr hst
    have h' := (lookup_iff parser s' t').mpr hst'
    refine ⟨h, h', fun hsame => ?_⟩
    rw [h, h', Option.some.injEq] at hsame
    exact hsame

end Exact

/-! ## A parser without quotes -/

theorem splitOn_point {s t : Text} (hs : Simple s) (ht : Simple t) : (s ++ '.' :: t).splitOn '.' = [s, t] := by
  have h := @List.splitOn_intercalate _ [s, t] _ _ '.' (by simp [hs.1, ht.1]) (by simp)
  simpa using h

theorem splitOn_two_points {c s t : Text} (hc : Simple c) (hs : Simple s) (ht : Simple t) :
    (c ++ '.' :: (s ++ '.' :: t)).splitOn '.' = [c, s, t] := by
  have h := @List.splitOn_intercalate _ [c, s, t] _ _ '.' (by simp [hc.1, hs.1, ht.1]) (by simp)
  simpa using h

/-- Two or three simple components, and nothing else. -/
def parsePoints (input : Text) : Option QualifiedName :=
  match input.splitOn '.' with
  | [s, t] => if Simple s ∧ Simple t then some (if t = [] then ⟨[], [], s⟩ else ⟨[], s, t⟩) else none
  | [c, s, t] => if Simple s ∧ Simple t then some ⟨c, s, t⟩ else none
  | _ => none

theorem simple_of_parsePoints {input : Text} {q : QualifiedName} (h : parsePoints input = some q) :
    Simple q.schema ∧ Simple q.name := by
  unfold parsePoints at h
  split at h
  · obtain ⟨hst, hq⟩ := Option.ite_none_right_eq_some.mp h
    obtain rfl := Option.some.inj hq
    split
    · exact ⟨⟨List.not_mem_nil, List.not_mem_nil⟩, hst.1⟩
    · exact hst
  · obtain ⟨hst, hq⟩ := Option.ite_none_right_eq_some.mp h
    obtain rfl := Option.some.inj hq
    exact hst
  · cases h

def pointParser : NameParser where
  parse := parsePoints
  join := by
    intro s t hs ht hne
    simp [parsePoints, splitOn_point hs ht, hs, ht, hne]
  join_catalog := by
    intro c s t hc hs ht _
    simp [parsePoints, splitOn_two_points hc hs ht, hs, ht]
  join_empty := by
    intro s hs
    have ht : Simple [] := ⟨List.not_mem_nil, List.not_mem_nil⟩
    simp [parsePoints, splitOn_point hs ht, hs, ht]
  no_quote := fun _ _ h => ⟨(simple_of_parsePoints h).1.2, (simple_of_parsePoints h).2.2⟩
  no_point := fun _ _ _ h => ⟨(simple_of_parsePoints h).1.1, (simple_of_parsePoints h).2.1⟩

/-- Schema `a.b` is looked up as schema `b`, which is another one, by every parser that has the laws, as by
`pointParser`. -/
theorem point_in_schema :
    (∀ parser : NameParser, timeTravelSchemaTableBind parser "a.b".toList "t".toList = some ⟨"b".toList, "t".toList⟩ ∧
      timeTravelSchemaTableBind parser "a.b".toList "t".toList =
        timeTravelSchemaTableBind parser "b".toList "t".toList) ∧
      Nonempty NameParser ∧ named "a.b".toList "t".toList ≠ named "b".toList "t".toList := by
  refine ⟨fun parser => ?_, ⟨pointParser⟩, by decide⟩
  have h := parser.join_catalog "a".toList "b".toList "t".toList (by decide) (by decide) (by decide) (by decide)
  have hab : timeTravelSchemaTableBind parser "a.b".toList "t".toList = some ⟨"b".toList, "t".toList⟩ := by
    rw [timeTravelSchemaTableBind_eq]
    exact congrArg _ h
  have hb : timeTravelSchemaTableBind parser "b".toList "t".toList = some ⟨"b".toList, "t".toList⟩ :=
    timeTravelSchemaTableBind_simple (by decide) (by decide) (by decide)
  exact ⟨hab, hab.trans hb.symm⟩

end PgDucklake.TimeTravel
