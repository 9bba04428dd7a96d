import PgDucklake.Lib.Spelling

/-!
# Identifiers

A name is printed as it is if it is safe, a word that is read as it stands and means nothing else, and between double
quotes otherwise (`Identifiers.write`). Printed names can be followed by a stop (`reads_write`) or by a point and another name
(`lex_write_dot`). A name that is printed between quotes is never the name itself, not even when it is read as part of a
literal (`readQuoted_delimited_ne`).
-/

namespace Lib

/-! ## Points -/

theorem startsWord_isDigit {c : Char} (hc : startsWord c = true) : c.isDigit = false := by
  by_contra h
  simp only [Bool.not_eq_false] at h
  simp only [startsWord, Char.isDigit, isAlpha_iff, isUpper_iff, isLower_iff, Bool.or_eq_true, Bool.and_eq_true,
    beq_iff_eq, decide_eq_true_eq, ge_iff_le, UInt32.le_iff_toNat_le] at hc h
  have h0 : '0'.val.toNat = 48 := rfl
  have h9 : '9'.val.toNat = 57 := rfl
  have hA : 'A'.val.toNat = 65 := rfl
  have ha : 'a'.val.toNat = 97 := rfl
  have hunderscore : '_'.val.toNat = 95 := rfl
  have hval : c.toNat = c.val.toNat := rfl
  rcases hc with (hc | rfl) | hc <;> omega

theorem lex_dot {more : List Char} {c : Char} (hc : c.isDigit = false) :
    lex ('.' :: c :: more) = (lex (c :: more)).map (.symbol '.' :: ·) := by
  have hpoint : nextLexeme ('.' :: c :: more) = some (some (.symbol '.'), c :: more) := by
    have hfirst : (((c :: more).head?.map Char.isDigit).getD false) = false := by simp [hc]
    simp only [nextLexeme, hfirst]
    rfl
  rw [lex_cons, hpoint]
  rfl

theorem lex_word_dot {name more : List Char} {c : Char} (hname : plainWord name = true) (hc : c.isDigit = false) :
    lex (name ++ '.' :: c :: more) = (lex (c :: more)).map ([.word name, .symbol '.'] ++ ·) := by
  cases name with
  | nil => cases hname
  | cons d name =>
    simp only [plainWord, Bool.and_eq_true] at hname
    rw [List.cons_append, lex_cons, nextLexeme_word hname.1 hname.2 (by rintro e ⟨⟩; decide)]
    simp only [Option.bind_some, Option.toList_some]
    rw [lex_dot hc, Option.map_map]
    rfl

/-! ## Names -/

/-- `fold` is what a word is read as, in lower case or as it is. -/
structure Identifiers where
  safe : List Char → Bool
  reserved : List Char → Bool
  fold : List Char → List Char
  word : ∀ n, safe n = true → plainWord n = true
  folded : ∀ n, safe n = true → fold n = n
  free : ∀ n, safe n = true → reserved n = false

namespace Identifiers

variable (ids : Identifiers)

def write (n : List Char) : List Char := if ids.safe n then n else delimited n

def lexeme (n : List Char) : Lexeme := if ids.safe n then .word n else .quoted n

/-- The name that a lexeme stands for. -/
def nameOf : Lexeme → Option (List Char)
  | .word w => if ids.reserved w then none else some (ids.fold w)
  | .quoted n => some n
  | _ => none

variable {ids}

theorem nameOf_lexeme (n : List Char) : ids.nameOf (ids.lexeme n) = some n := by
  unfold lexeme
  split_ifs with hsafe
  · simp [nameOf, ids.free n hsafe, ids.folded n hsafe]
  · rfl

theorem reads_write {n : List Char} (hn : n ≠ []) : Reads (ids.write n) [ids.lexeme n] := by
  unfold write lexeme
  split_ifs with hsafe
  · exact reads_word (ids.word n hsafe)
  · exact reads_delimited hn

theorem not_safe_nil : ids.safe [] = false := by
  by_contra h
  rw [Bool.not_eq_false] at h
  cases ids.word [] h

theorem write_cons (n : List Char) : ∃ c t, ids.write n = c :: t ∧ c.isDigit = false := by
  unfold write
  split_ifs with hsafe
  · cases n with
    | nil => rw [not_safe_nil] at hsafe; cases hsafe
    | cons c t =>
      have hword := ids.word _ hsafe
      simp only [plainWord, Bool.and_eq_true] at hword
      exact ⟨c, t, rfl, startsWord_isDigit hword.1⟩
  · exact ⟨'"', _, rfl, by decide⟩

theorem lex_delimited_dot {n more : List Char} {c : Char} (hn : n ≠ []) (hc : c.isDigit = false) :
    lex (delimited n ++ '.' :: c :: more) = (lex (c :: more)).map ([.quoted n, .symbol '.'] ++ ·) := by
  have hread : readQuoted '"' (doubled '"' n ++ ['"'] ++ '.' :: c :: more) = some (n, '.' :: c :: more) := by
    rw [List.append_assoc]
    exact readQuoted_doubled n (by simp)
  rw [delimited, List.cons_append, lex_quoted, hread]
  simp only [Option.bind_some, if_neg hn, lex_dot hc, Option.map_map]
  rfl

theorem lex_write_dot {n : List Char} (hn : n ≠ []) (m more : List Char) :
    lex (ids.write n ++ '.' :: (ids.write m ++ more)) =
      (lex (ids.write m ++ more)).map ([ids.lexeme n, .symbol '.'] ++ ·) := by
  obtain ⟨c, t, hm, hc⟩ := @write_cons ids m
  rw [hm, List.cons_append]
  by_cases hsafe : ids.safe n = true
  · rw [write, lexeme, if_pos hsafe, if_pos hsafe]
    exact lex_word_dot (ids.word n hsafe) hc
  · rw [write, lexeme, if_neg hsafe, if_neg hsafe]
    exact lex_delimited_dot hn hc

theorem reads_write_dot {n m : List Char} (hn : n ≠ []) (hm : m ≠ []) :
    Reads (ids.write n ++ '.' :: ids.write m) [ids.lexeme n, .symbol '.', ids.lexeme m] := by
  intro more hmore
  rw [List.append_assoc, List.cons_append, lex_write_dot hn, reads_write hm more hmore, Option.map_map]
  rfl

theorem lex_write_nil {more : List Char} (hmore : more.head? ≠ some '"') : lex (ids.write [] ++ more) = none := by
  have hread : readQuoted '"' ('"' :: more) = some ([], more) := readQuoted_quote hmore
  rw [write, if_neg (by simp [not_safe_nil])]
  change lex ('"' :: '"' :: more) = none
  rw [lex_quoted, hread]
  rfl

end Identifiers

/-! ## Quotes at the beginning -/

/-- The number of double quotes that the text begins with. -/
def leadingQuotes : List Char → Nat
  | [] => 0
  | c :: t => if c = '"' then leadingQuotes t + 1 else 0

theorem leadingQuotes_le_doubled (more : List Char) : ∀ n : List Char,
    leadingQuotes n ≤ leadingQuotes (doubled '"' n ++ more)
  | [] => Nat.zero_le _
  | c :: n => by
    by_cases hc : c = '"'
    · subst hc
      have ih := leadingQuotes_le_doubled more n
      have hdoubled : doubled '"' ('"' :: n) ++ more = '"' :: '"' :: (doubled '"' n ++ more) := by simp [doubled]
      rw [hdoubled]
      simp only [leadingQuotes, if_true]
      omega
    · simp [leadingQuotes, hc]

theorem leadingQuotes_le_readQuoted : ∀ {text body rest : List Char}, readQuoted '\'' text = some (body, rest) →
    leadingQuotes text ≤ leadingQuotes body
  | [], _, _, h => by cases h
  | [c], body, rest, h => by
    by_cases hc : c = '"'
    · subst hc
      simp [readQuoted] at h
    · simp [leadingQuotes, hc]
  | c :: d :: text, body, rest, h => by
    by_cases hc : c = '"'
    · subst hc
      have hstep : readQuoted '\'' ('"' :: d :: text) =
          (readQuoted '\'' (d :: text)).map fun p => ('"' :: p.1, p.2) := by
        simp [readQuoted]
      rw [hstep, Option.map_eq_some_iff] at h
      obtain ⟨⟨body', rest'⟩, hread, heq⟩ := h
      have ih := leadingQuotes_le_readQuoted hread
      obtain ⟨rfl, rfl⟩ := Prod.mk.injEq .. ▸ heq
      simp only [leadingQuotes, if_true] at ih ⊢
      omega
    · simp [leadingQuotes, hc]

theorem readQuoted_delimited_ne {n more body rest : List Char}
    (h : readQuoted '\'' (delimited n ++ more) = some (body, rest)) : body ≠ n := by
  have hbody := leadingQuotes_le_readQuoted h
  have hname := leadingQuotes_le_doubled (['"'] ++ more) n
  have htext : delimited n ++ more = '"' :: (doubled '"' n ++ (['"'] ++ more)) := by simp [delimited]
  rw [htext] at hbody
  rintro rfl
  simp only [leadingQuotes, if_true] at hbody
  omega

end Lib
