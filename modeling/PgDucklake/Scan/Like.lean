import PgDucklake.Scan.Expressions

/-!
# Constants as LIKE patterns

`contains`, `prefix` and `suffix` with a constant become a `LIKE` whose pattern is written into the query as a quoted
literal. The pattern goes through two kinds of escaping: the one of patterns and the one of literals.
`like_literal_iff` says when PostgreSQL reads back the literal that was meant, up to where it was meant to end, and
matches with it what the function finds. The query is handed to the parser as a C string.
-/

namespace PgDucklake.Filters

open Lib

/-- A literal at the start of a text, with `standard_conforming_strings` on: its value and what follows it. -/
def readLiteral : Text → Option (Text × Text)
  | '\'' :: text => readQuoted '\'' text
  | _ => none

/-- The characters with a meaning in a `LIKE` pattern without an `ESCAPE` clause. -/
def likeWildcards : Wildcards Char := ⟨'%', '_', some '\\'⟩

/-- `h LIKE pattern`; `none` is an error. -/
def likeMatches (pattern h : Text) : Option Bool := (parseItems likeWildcards pattern).map (matchItems · h)

/-- What the functions look for. -/
def LikeFunc.Finds (func : LikeFunc) (n h : Text) : Prop :=
  match func with
  | .contains => n <:+: h
  | .suffixOf => n <:+ h
  | .prefixOf => n <+: h

/-- What the printer writes after a literal: the end of the query, a closing parenthesis, or a blank and the next word.
(After a newline a literal could go on.) -/
def Follows (rest : Text) : Prop :=
  '\x00' ∉ rest ∧ (rest = [] ∨ (∃ t, rest = ')' :: t) ∨ ∃ c t, rest = ' ' :: c :: t ∧ c ≠ '\'' ∧ ¬c.isWhitespace)

/-- The predicate that is written for a needle, wherever it stands in a query, holds the needle's literal and nothing
else, and matches a string exactly if the function finds the needle in it. -/
def Written (duck : DuckText) (func : LikeFunc) (n : Text) : Prop :=
  ∀ (haystack : BoundExpr) (column hay before rest : Text), haystack.isVarchar →
    expressionToString duck column haystack = some hay → '\x00' ∉ before ++ hay → Follows rest →
    ∃ predicate pattern, expressionToString duck column (.function (.needle func) false [haystack, .constant (.varchar n)]) =
        some predicate ∧
      let query := cString (before ++ predicate ++ rest)
      let start := before ++ hay ++ " LIKE ".toList
      start <+: query ∧ readLiteral (query.drop start.length) = some (pattern, rest) ∧
        ∀ h, ∃ b, likeMatches pattern h = some b ∧ (b = true ↔ func.Finds n h)

/-! ## The pattern -/

/-- The pattern before it is quoted. -/
def LikeFunc.pattern (func : LikeFunc) (n : Text) : Text :=
  match func with
  | .contains => '%' :: (escaped likeWildcards '\\' n ++ ['%'])
  | .suffixOf => '%' :: escaped likeWildcards '\\' n
  | .prefixOf => escaped likeWildcards '\\' n ++ ['%']

theorem replace_cons (c d : Char) (replacement text : Text) :
    replace c replacement (d :: text) = (if d = c then replacement else [d]) ++ replace c replacement text := by
  simp [replace]

theorem replace_append (c : Char) (replacement s t : Text) :
    replace c replacement (s ++ t) = replace c replacement s ++ replace c replacement t := List.flatMap_append

theorem replaced_eq : ∀ n : Text,
    replace '_' ['\\', '_'] (replace '%' ['\\', '%'] (replace '\\' ['\\', '\\'] (replace '\'' ['\'', '\''] n))) =
      doubled '\'' (escaped likeWildcards '\\' n)
  | [] => rfl
  | c :: n => by
    have ih := replaced_eq n
    have hdoubled : doubled '\'' (escaped likeWildcards '\\' (c :: n)) =
        doubled '\'' (escaped likeWildcards '\\' [c]) ++ doubled '\'' (escaped likeWildcards '\\' n) := by
      rw [← doubled_append]
      simp [escaped]
    rw [hdoubled, ← ih]
    simp only [replace_cons, replace_append]
    congr 1
    -- what becomes of one character
    by_cases hquote : c = '\''
    · subst hquote
      decide
    by_cases hescape : c = '\\'
    · subst hescape
      decide
    by_cases hany : c = '%'
    · subst hany
      decide
    by_cases hone : c = '_'
    · subst hone
      decide
    simp [replace, doubled, escaped, likeWildcards, hquote, hescape, hany, hone]

theorem likeString_eq (func : LikeFunc) (n : Text) :
    likeString func n = '\'' :: (doubled '\'' (func.pattern n) ++ ['\'']) := by
  have hany : doubled '\'' ['%'] = ['%'] := rfl
  have hcons : ∀ s : Text, doubled '\'' ('%' :: s) = '%' :: doubled '\'' s := fun s => by simp [doubled]
  cases func <;> simp [likeString, LikeFunc.pattern, replaced_eq, doubled_append, hany, hcons]

theorem parse_pattern (func : LikeFunc) (n : Text) :
    parseItems likeWildcards (func.pattern n) = some (match func with
      | .contains => .anySequence :: (n.map .literal ++ [.anySequence])
      | .suffixOf => .anySequence :: n.map .literal
      | .prefixOf => n.map .literal ++ [.anySequence]) := by
  have hescape : likeWildcards.escape = some '\\' := rfl
  have hnil : parseItems likeWildcards [] = some [] := rfl
  have hcons : ∀ s : Text, parseItems likeWildcards ('%' :: s) = (parseItems likeWildcards s).map (.anySequence :: ·) :=
    fun s => parseItems_cons (by decide) s
  have hsuffix := parseItems_escaped hescape n []
  rw [List.append_nil] at hsuffix
  cases func
  · simp only [LikeFunc.pattern, hcons, parseItems_escaped hescape, hnil, Option.map_some]
  · simp only [LikeFunc.pattern, hcons, hsuffix, hnil, Option.map_some, List.append_nil]
  · simp only [LikeFunc.pattern, hcons, parseItems_escaped hescape, hnil, Option.map_some]

theorem likeMatches_pattern (func : LikeFunc) (n h : Text) :
    ∃ b, likeMatches (func.pattern n) h = some b ∧ (b = true ↔ func.Finds n h) := by
  rw [likeMatches, parse_pattern]
  refine ⟨_, rfl, ?_⟩
  cases func
  · exact matchItems_infix n h
  · exact matchItems_suffix n h
  · exact matchItems_start n h

/-! ## The literal in the query -/

theorem Follows.head_ne {rest : Text} (h : Follows rest) : rest.head? ≠ some '\'' := by
  obtain ⟨-, rfl | ⟨t, rfl⟩ | ⟨c, t, rfl, -⟩⟩ := h <;> simp

theorem mem_doubled {quote c : Char} {s : Text} (h : c ∈ doubled quote s) : c ∈ s := by
  simp only [doubled, List.mem_flatMap] at h
  obtain ⟨d, hd, hc⟩ := h
  split at hc
  · rename_i heq
    obtain rfl : c = quote := by simpa using hc
    exact heq ▸ hd
  · obtain rfl : c = d := by simpa using hc
    exact hd

theorem mem_escaped {c : Char} {n : Text} (h : c ∈ escaped likeWildcards '\\' n) : c = '\\' ∨ c ∈ n := by
  simp only [escaped, List.mem_flatMap] at h
  obtain ⟨d, hd, hc⟩ := h
  split at hc
  · rcases List.mem_cons.mp hc with rfl | hc
    · exact Or.inl rfl
    · obtain rfl : c = d := by simpa using hc
      exact Or.inr hd
  · obtain rfl : c = d := by simpa using hc
    exact Or.inr hd

theorem mem_pattern {c : Char} {func : LikeFunc} {n : Text} (h : c ∈ func.pattern n) :
    c = '%' ∨ c = '\\' ∨ c ∈ n := by
  cases func <;> simp only [LikeFunc.pattern, List.mem_cons, List.mem_append, List.not_mem_nil, or_false] at h
  · rcases h with h | h | h
    · exact Or.inl h
    · exact Or.inr (mem_escaped h)
    · exact Or.inl h
  · rcases h with h | h
    · exact Or.inl h
    · exact Or.inr (mem_escaped h)
  · rcases h with h | h
    · exact Or.inr (mem_escaped h)
    · exact Or.inl h

theorem likeString_no_nul {func : LikeFunc} {n : Text} (h : '\x00' ∉ n) : '\x00' ∉ likeString func n := by
  rw [likeString_eq]
  intro hmem
  simp only [List.mem_cons, List.mem_append, List.not_mem_nil, or_false] at hmem
  rcases hmem with hmem | hmem | hmem
  · exact absurd hmem (by decide)
  · rcases mem_pattern (mem_doubled hmem) with hmem | hmem | hmem
    · exact absurd hmem (by decide)
    · exact absurd hmem (by decide)
    · exact h hmem
  · exact absurd hmem (by decide)

theorem needle_predicate {duck : DuckText} {func : LikeFunc} {haystack : BoundExpr} {column hay : Text} (n : Text)
    (hvarchar : haystack.isVarchar) (hhay : expressionToString duck column haystack = some hay) :
    expressionToString duck column (.function (.needle func) false [haystack, .constant (.varchar n)]) =
      some (hay ++ " LIKE ".toList ++ likeString func n) := by
  simp [expressionToString, expressionsToString, hhay, functionToString, funcToLikeString, hvarchar,
    funcArgToLikeString]

theorem readLiteral_cut {func : LikeFunc} {n : Text} (hn : '\x00' ∈ n) (rest : Text) :
    readLiteral (cString (likeString func n ++ rest)) = none := by
  obtain ⟨n₁, n₂, rfl, hfirst⟩ := List.eq_append_cons_of_mem hn
  -- up to the NUL the text is an opening quote and a quoted piece of the pattern
  obtain ⟨piece, tail, hpiece, hsplit⟩ : ∃ piece tail : Text, '\x00' ∉ piece ∧
      func.pattern (n₁ ++ '\x00' :: n₂) = piece ++ '\x00' :: tail := by
    have hescaped : escaped likeWildcards '\\' (n₁ ++ '\x00' :: n₂) =
        escaped likeWildcards '\\' n₁ ++ '\x00' :: escaped likeWildcards '\\' n₂ := by
      simp [escaped, likeWildcards]
    have hpre : '\x00' ∉ escaped likeWildcards '\\' n₁ := fun hmem =>
      (mem_escaped hmem).elim (by decide) hfirst
    cases func
    · exact ⟨'%' :: escaped likeWildcards '\\' n₁, escaped likeWildcards '\\' n₂ ++ ['%'],
        by simp [hpre], by simp [LikeFunc.pattern, hescaped]⟩
    · exact ⟨'%' :: escaped likeWildcards '\\' n₁, escaped likeWildcards '\\' n₂,
        by simp [hpre], by simp [LikeFunc.pattern, hescaped]⟩
    · exact ⟨escaped likeWildcards '\\' n₁, escaped likeWildcards '\\' n₂ ++ ['%'],
        hpre, by simp [LikeFunc.pattern, hescaped]⟩
  have hopen : '\x00' ∉ '\'' :: doubled '\'' piece := by
    simp only [List.mem_cons, not_or]
    exact ⟨by decide, fun hmem => hpiece (mem_doubled hmem)⟩
  have htext : likeString func (n₁ ++ '\x00' :: n₂) ++ rest =
      ('\'' :: doubled '\'' piece) ++ '\x00' :: (doubled '\'' tail ++ '\'' :: rest) := by
    rw [likeString_eq, hsplit, doubled_append]
    simp [doubled]
  have hend : cString ('\x00' :: (doubled '\'' tail ++ '\'' :: rest)) = [] := by simp [cString]
  rw [htext, cString_append hopen, hend, List.append_nil, readLiteral, readQuoted_unterminated]

/-- The written predicate is the one that was meant, for exactly the needles without a NUL. -/
theorem like_literal_iff (duck : DuckText) (func : LikeFunc) (n : Text) : Written duck func n ↔ '\x00' ∉ n := by
  constructor
  · intro hwritten hn
    obtain ⟨predicate, pattern, hpredicate, -, hread, -⟩ := hwritten (.columnRef true) ['a'] ['a'] [] [] rfl rfl
      (by decide) ⟨by decide, Or.inl rfl⟩
    rw [needle_predicate n rfl rfl] at hpredicate
    obtain rfl := Option.some.inj hpredicate
    have hstart : '\x00' ∉ ['a'] ++ " LIKE ".toList := by decide
    rw [List.nil_append, List.nil_append, List.append_assoc, cString_append hstart, List.drop_left,
      readLiteral_cut hn] at hread
    cases hread
  · intro hn haystack column hay before rest hvarchar hhay hnul hrest
    refine ⟨_, func.pattern n, needle_predicate n hvarchar hhay, ?_⟩
    have hquery : before ++ (hay ++ " LIKE ".toList ++ likeString func n) ++ rest =
        (before ++ hay ++ " LIKE ".toList) ++ (likeString func n ++ rest) := by
      simp only [List.append_assoc]
    have hstart : '\x00' ∉ before ++ hay ++ " LIKE ".toList := by
      rw [List.mem_append, not_or]
      exact ⟨hnul, by decide⟩
    have hend : '\x00' ∉ likeString func n ++ rest := by
      rw [List.mem_append, not_or]
      exact ⟨likeString_no_nul hn, hrest.1⟩
    have hliteral : readLiteral (likeString func n ++ rest) = some (func.pattern n, rest) := by
      have htext : likeString func n ++ rest = '\'' :: (doubled '\'' (func.pattern n) ++ '\'' :: rest) := by
        rw [likeString_eq]
        simp
      rw [htext, readLiteral, readQuoted_doubled _ hrest.head_ne]
    rw [hquery, cString_append hstart, (cString_eq_self_iff _).mpr hend]
    refine ⟨List.prefix_append _ _, ?_, likeMatches_pattern func n⟩
    rw [List.drop_left, hliteral]

/-- `contains(a, chr(0))`: the text of the query ends inside the literal. -/
theorem nul_needle_unterminated : (∀ duck, ¬Written duck .contains ['\x00']) ∧
    readLiteral ((cString ("a LIKE ".toList ++ likeString .contains ['\x00'])).drop 7) = none := by
  refine ⟨fun duck h => ?_, by decide⟩
  obtain ⟨predicate, pattern, hpredicate, -, hread, -⟩ := h (.columnRef true) ['a'] ['a'] [] [] rfl rfl (by decide)
    ⟨by decide, Or.inl rfl⟩
  rw [needle_predicate _ rfl rfl] at hpredicate
  obtain rfl := Option.some.inj hpredicate
  have hcut : readLiteral ((cString ([] ++ (['a'] ++ " LIKE ".toList ++ likeString .contains ['\x00']) ++ [])).drop
      ([] ++ ['a'] ++ " LIKE ".toList).length) = none := by decide
  rw [hcut] at hread
  cases hread

end PgDucklake.Filters
