import Mathlib.Data.List.TakeWhile
import Mathlib.Tactic.Common
import PgDucklake.Lib.Patterns

/-!
# Lexemes of SQL

The character level of SQL: words, delimited identifiers, string literals, numbers and symbols, with blanks and comments
between them (`lex`). A text is read to the same lexemes before anything that cannot belong to its last lexeme
(`Reads`), so that a printed statement is read piece by piece. A string literal or an identifier that is printed between
quotes without doubling those inside is read back exactly if there are none (`lex_literal_iff`, `lex_quoted_iff`).

Literals that go on after a line break are read as several; dollar quotes and parameters are symbols and words.
-/

namespace Lib

inductive Lexeme
  /-- A keyword or a name, as it is written. -/
  | word (text : List Char)
  | quoted (name : List Char)
  | literal (text : List Char)
  | number (text : List Char)
  | symbol (c : Char)
  deriving DecidableEq, Repr

/-! ## Characters -/

def blanks : List Char := [' ', '\t', '\n', '\r', Char.ofNat 11, Char.ofNat 12]

def startsWord (c : Char) : Bool := c.isAlpha || c == '_' || decide (128 ≤ c.toNat)

def continuesWord (c : Char) : Bool := startsWord c || c.isDigit || c == '$'

/-- Characters that end a lexeme and belong to none but themselves. -/
def stops : List Char := blanks ++ [',', '(', ')', ';', ':']

/-- What follows a lexeme does not go on with it. -/
def Stops (rest : List Char) : Prop := ∀ c, rest.head? = some c → c ∈ stops

variable {c : Char}

theorem stops_cons (hc : c ∈ stops) (rest : List Char) : Stops (c :: rest) := by
  intro d hd
  simp only [List.head?_cons, Option.some.injEq] at hd
  exact hd ▸ hc

/-! ## One lexeme -/

/-- The rest of a block comment, which may hold others. -/
def skipBlock : Nat → List Char → Option (List Char)
  | _, [] => none
  | _, [_] => none
  | depth, c :: d :: text =>
    if c = '*' ∧ d = '/' then
      match depth with
      | 0 => some text
      | depth + 1 => skipBlock depth text
    else if c = '/' ∧ d = '*' then skipBlock (depth + 1) text
    else skipBlock depth (d :: text)

/-- The character that an escape of one character stands for. -/
def unescaped (c : Char) : Option Char :=
  if c = 'n' then some '\n'
  else if c = 't' then some '\t'
  else if c = 'r' then some '\r'
  else if c = 'b' then some (Char.ofNat 8)
  else if c = 'f' then some (Char.ofNat 12)
  else if c.isDigit || c == 'x' || c == 'u' || c == 'U' then none
  else some c

/-- The contents of an escape string, after its opening quote, and what follows the closing one. Escapes by number are not
read. -/
def readEscaped : List Char → Option (List Char × List Char)
  | [] => none
  | [c] => if c = '\'' then some ([], []) else none
  | c :: d :: text =>
    if c = '\'' then
      if d = '\'' then (readEscaped text).map fun (body, rest) => ('\'' :: body, rest)
      else some ([], d :: text)
    else if c = '\\' then
      (unescaped d).bind fun e => (readEscaped text).map fun (body, rest) => (e :: body, rest)
    else (readEscaped (d :: text)).map fun (body, rest) => (c :: body, rest)

/-- The fraction of a number, if there is one. -/
def readFraction : List Char → List Char × List Char
  | [] => ([], [])
  | c :: text => if c = '.' then (c :: text.takeWhile Char.isDigit, text.dropWhile Char.isDigit) else ([], c :: text)

/-- The exponent of a number, if there is one. -/
def readExponent : List Char → List Char × List Char
  | [] => ([], [])
  | [c] => ([], [c])
  | c :: d :: text =>
    if c ≠ 'e' ∧ c ≠ 'E' then ([], c :: d :: text)
    else if d.isDigit then (c :: d :: text.takeWhile Char.isDigit, text.dropWhile Char.isDigit)
    else if (d = '+' ∨ d = '-') ∧ (text.head?.map Char.isDigit).getD false then
      (c :: d :: text.takeWhile Char.isDigit, text.dropWhile Char.isDigit)
    else ([], c :: d :: text)

def readNumber (text : List Char) : List Char × List Char :=
  let fraction := readFraction (text.dropWhile Char.isDigit)
  let exponent := readExponent fraction.2
  (text.takeWhile Char.isDigit ++ fraction.1 ++ exponent.1, exponent.2)

/-- The first lexeme of a text, or none for blanks and comments, and the rest. -/
def nextLexeme : List Char → Option (Option Lexeme × List Char)
  | [] => none
  | c :: text =>
    if c ∈ blanks then some (none, text)
    else if c = '-' ∧ text.head? = some '-' then some (none, text.dropWhile (· ≠ '\n'))
    else if c = '/' ∧ text.head? = some '*' then (skipBlock 0 text.tail).map (none, ·)
    else if c = '"' then
      (readQuoted '"' text).bind fun (name, rest) => if name = [] then none else some (some (.quoted name), rest)
    else if c = '\'' then (readQuoted '\'' text).map fun (body, rest) => (some (.literal body), rest)
    else if startsWord c then
      let word := c :: text.takeWhile continuesWord
      let rest := text.dropWhile continuesWord
      if (word = ['e'] ∨ word = ['E']) ∧ rest.head? = some '\'' then
        (readEscaped rest.tail).map fun (body, rest) => (some (.literal body), rest)
      else some (some (.word word), rest)
    else if c.isDigit then
      let number := readNumber (c :: text)
      some (some (.number number.1), number.2)
    else if c = '.' ∧ (text.head?.map Char.isDigit).getD false then
      let number := readNumber (c :: text)
      some (some (.number number.1), number.2)
    else some (some (.symbol c), text)

def lexFrom : Nat → List Char → Option (List Lexeme)
  | _, [] => some []
  | 0, _ :: _ => none
  | n + 1, c :: text => (nextLexeme (c :: text)).bind fun (t, rest) => (lexFrom n rest).map (t.toList ++ ·)

/-- The lexemes of a text; `none` if a literal, an identifier or a comment has no end. -/
def lex (text : List Char) : Option (List Lexeme) := lexFrom text.length text

/-! ## What is left -/

theorem skipBlock_suffix : ∀ {depth : Nat} {text rest : List Char}, skipBlock depth text = some rest → rest <:+ text
  | _, [], _, h => by cases h
  | _, [_], _, h => by cases h
  | depth, c :: d :: text, rest, h => by
    have htext : text <:+ c :: d :: text := (List.suffix_cons d text).trans (List.suffix_cons c _)
    simp only [skipBlock] at h
    split at h
    · cases depth with
      | zero =>
        cases h
        exact htext
      | succ depth => exact (skipBlock_suffix h).trans htext
    · split at h
      · exact (skipBlock_suffix h).trans htext
      · exact (skipBlock_suffix h).trans (List.suffix_cons c _)

theorem readEscaped_suffix : ∀ {text body rest : List Char}, readEscaped text = some (body, rest) → rest <:+ text
  | [], _, _, h => by cases h
  | [c], _, _, h => by
    by_cases hc : c = '\''
    · simp only [readEscaped, if_pos hc, Option.some.injEq, Prod.mk.injEq] at h
      exact h.2 ▸ List.nil_suffix
    · simp [readEscaped, hc] at h
  | c :: d :: text, body, rest, h => by
    have htext : text <:+ c :: d :: text := (List.suffix_cons d text).trans (List.suffix_cons c _)
    simp only [readEscaped] at h
    split at h
    · split at h
      · simp only [Option.map_eq_some_iff, Prod.mk.injEq] at h
        obtain ⟨⟨body', rest'⟩, h, -, rfl⟩ := h
        exact (readEscaped_suffix h).trans htext
      · simp only [Option.some.injEq, Prod.mk.injEq] at h
        exact h.2 ▸ List.suffix_cons c _
    · split at h
      · simp only [Option.bind_eq_some_iff, Option.map_eq_some_iff, Prod.mk.injEq] at h
        obtain ⟨e, -, ⟨body', rest'⟩, h, -, rfl⟩ := h
        exact (readEscaped_suffix h).trans htext
      · simp only [Option.map_eq_some_iff, Prod.mk.injEq] at h
        obtain ⟨⟨body', rest'⟩, h, -, rfl⟩ := h
        exact (readEscaped_suffix h).trans (List.suffix_cons c _)

theorem readFraction_suffix : ∀ text : List Char, (readFraction text).2 <:+ text
  | [] => List.suffix_rfl
  | c :: text => by
    simp only [readFraction]
    split
    · exact (List.dropWhile_suffix _).trans (List.suffix_cons c text)
    · exact List.suffix_rfl

theorem readExponent_suffix : ∀ text : List Char, (readExponent text).2 <:+ text
  | [] => List.suffix_rfl
  | [c] => List.suffix_rfl
  | c :: d :: text => by
    have hdrop : text.dropWhile Char.isDigit <:+ c :: d :: text :=
      ((List.dropWhile_suffix _).trans (List.suffix_cons d text)).trans (List.suffix_cons c _)
    simp only [readExponent]
    split
    · exact List.suffix_rfl
    · split
      · exact hdrop
      · split
        · exact hdrop
        · exact List.suffix_rfl

theorem readNumber_suffix (hc : c.isDigit = true ∨ c = '.') (text : List Char) :
    (readNumber (c :: text)).2 <:+ text := by
  simp only [readNumber]
  refine (readExponent_suffix _).trans ?_
  rcases hc with hc | rfl
  · simp only [List.dropWhile_cons, hc, if_true]
    exact (readFraction_suffix _).trans (List.dropWhile_suffix _)
  · have hpoint : ('.' :: text).dropWhile Char.isDigit = '.' :: text := rfl
    rw [hpoint]
    exact List.dropWhile_suffix _

variable {text rest : List Char}

theorem nextLexeme_suffix {t : Option Lexeme} (h : nextLexeme (c :: text) = some (t, rest)) : rest <:+ text := by
  simp only [nextLexeme] at h
  split at h
  · cases h
    exact List.suffix_rfl
  split at h
  · cases h
    exact List.dropWhile_suffix _
  split at h
  · simp only [Option.map_eq_some_iff, Prod.mk.injEq] at h
    obtain ⟨rest', h, -, rfl⟩ := h
    exact (skipBlock_suffix h).trans (List.tail_suffix text)
  split at h
  · simp only [Option.bind_eq_some_iff] at h
    obtain ⟨⟨name, rest'⟩, h, hname⟩ := h
    split at hname
    · cases hname
    · cases hname
      exact readQuoted_suffix h
  split at h
  · simp only [Option.map_eq_some_iff, Prod.mk.injEq] at h
    obtain ⟨⟨body, rest'⟩, h, -, rfl⟩ := h
    exact readQuoted_suffix h
  split at h
  · split at h
    · simp only [Option.map_eq_some_iff, Prod.mk.injEq] at h
      obtain ⟨⟨body, rest'⟩, h, -, rfl⟩ := h
      exact ((readEscaped_suffix h).trans (List.tail_suffix _)).trans (List.dropWhile_suffix _)
    · cases h
      exact List.dropWhile_suffix _
  split at h
  · rename_i hdigit
    cases h
    exact readNumber_suffix (.inl hdigit) text
  split at h
  · rename_i hpoint
    cases h
    exact readNumber_suffix (.inr hpoint.1) text
  · cases h
    exact List.suffix_rfl

/-! ## Lexeme by lexeme -/

theorem lexFrom_eq_lex : ∀ {n : Nat} {text : List Char}, text.length ≤ n → lexFrom n text = lex text := by
  intro n
  induction n using Nat.strong_induction_on with
  | _ n ih =>
    intro text hn
    cases text with
    | nil => cases n <;> rfl
    | cons c text =>
      cases n with
      | zero => simp at hn
      | succ n =>
        simp only [lex, List.length_cons, lexFrom]
        cases hnext : nextLexeme (c :: text) with
        | none => rfl
        | some p =>
          have hlength := (nextLexeme_suffix hnext).length_le
          simp only [List.length_cons] at hn
          simp only [Option.bind_some]
          rw [ih n (Nat.lt_succ_self n) (by omega), ih text.length (by omega) (by omega)]

@[simp]
theorem lex_nil : lex [] = some [] := rfl

theorem lex_cons (c : Char) (text : List Char) :
    lex (c :: text) = (nextLexeme (c :: text)).bind fun (t, rest) => (lex rest).map (t.toList ++ ·) := by
  simp only [lex, List.length_cons, lexFrom]
  cases hnext : nextLexeme (c :: text) with
  | none => rfl
  | some p =>
    simp only [Option.bind_some]
    rw [lexFrom_eq_lex (nextLexeme_suffix hnext).length_le]
    rfl

/-! ## What follows a lexeme -/

section Follows

variable {more : List Char}

variable {c : Char}

theorem Stops.head_ne (hmore : Stops more) (hc : c ∉ stops) : more.head? ≠ some c :=
  fun h => hc (hmore c h)

theorem takeWhile_append_stops {p : Char → Bool} (hp : ∀ c ∈ stops, p c = false) (hmore : Stops more) :
    ∀ text : List Char, (text ++ more).takeWhile p = text.takeWhile p
  | [] => by
    cases more with
    | nil => rfl
    | cons c more => simp [hp c (hmore c rfl)]
  | c :: text => by
    rw [List.cons_append, List.takeWhile_cons, List.takeWhile_cons, takeWhile_append_stops hp hmore text]

theorem dropWhile_append_stops {p : Char → Bool} (hp : ∀ c ∈ stops, p c = false) (hmore : Stops more) :
    ∀ text : List Char, (text ++ more).dropWhile p = text.dropWhile p ++ more
  | [] => by
    cases more with
    | nil => rfl
    | cons c more => simp [hp c (hmore c rfl)]
  | c :: text => by
    rw [List.cons_append, List.dropWhile_cons, List.dropWhile_cons, dropWhile_append_stops hp hmore text]
    split <;> rfl

theorem isDigit_stops : ∀ c ∈ stops, c.isDigit = false := by
  simpa using show stops.all (!·.isDigit) = true by decide

theorem continuesWord_stops : ∀ c ∈ stops, continuesWord c = false := by
  simpa using show stops.all (!continuesWord ·) = true by decide

variable {text : List Char}

theorem head?_append_stops (hmore : Stops more) (hc : c ∉ stops) :
    (text ++ more).head? = some c ↔ text.head? = some c := by
  cases text with
  | nil => simpa using hmore.head_ne hc
  | cons d text => simp

theorem digit_head_append_stops (hmore : Stops more) (text : List Char) :
    (((text ++ more).head?.map Char.isDigit).getD false) = ((text.head?.map Char.isDigit).getD false) := by
  cases text with
  | nil =>
    cases more with
    | nil => rfl
    | cons c more => simp [isDigit_stops c (hmore c rfl)]
  | cons d text => rfl

theorem skipBlock_append : ∀ {depth : Nat} {text rest : List Char}, skipBlock depth text = some rest →
    skipBlock depth (text ++ more) = some (rest ++ more)
  | _, [], _, h => by cases h
  | _, [_], _, h => by cases h
  | depth, c :: d :: text, rest, h => by
    simp only [skipBlock, List.cons_append] at h ⊢
    split at h
    · rename_i hclose
      rw [if_pos hclose]
      cases depth with
      | zero =>
        cases h
        rfl
      | succ depth => exact skipBlock_append h
    · rename_i hclose
      rw [if_neg hclose]
      split at h
      · rename_i hopen
        rw [if_pos hopen]
        exact skipBlock_append h
      · rename_i hopen
        rw [if_neg hopen]
        exact skipBlock_append h

theorem readEscaped_append (hmore : more.head? ≠ some '\'') : ∀ {text body rest : List Char},
    readEscaped text = some (body, rest) → readEscaped (text ++ more) = some (body, rest ++ more)
  | [], _, _, h => by cases h
  | [c], body, rest, h => by
    by_cases hc : c = '\''
    · simp only [readEscaped, if_pos hc, Option.some.injEq, Prod.mk.injEq] at h
      obtain ⟨rfl, rfl⟩ := h
      subst hc
      cases more with
      | nil => rfl
      | cons d more =>
        have hd : d ≠ '\'' := fun hd => hmore (by simp [hd])
        simp [readEscaped, hd]
    · simp [readEscaped, hc] at h
  | c :: d :: text, body, rest, h => by
    simp only [readEscaped, List.cons_append] at h ⊢
    split at h
    · rename_i hc
      rw [if_pos hc]
      split at h
      · rename_i hd
        simp only [Option.map_eq_some_iff, Prod.mk.injEq] at h
        obtain ⟨⟨body', rest'⟩, h, rfl, rfl⟩ := h
        simp [hd, readEscaped_append hmore h]
      · rename_i hd
        simp only [Option.some.injEq, Prod.mk.injEq] at h
        obtain ⟨rfl, rfl⟩ := h
        simp [hd]
    · rename_i hc
      rw [if_neg hc]
      split at h
      · rename_i hescape
        simp only [Option.bind_eq_some_iff, Option.map_eq_some_iff, Prod.mk.injEq] at h
        obtain ⟨e, he, ⟨body', rest'⟩, h, rfl, rfl⟩ := h
        simp [hescape, he, readEscaped_append hmore h]
      · rename_i hescape
        simp only [Option.map_eq_some_iff, Prod.mk.injEq] at h
        obtain ⟨⟨body', rest'⟩, h, rfl, rfl⟩ := h
        have ih := readEscaped_append hmore h
        rw [List.cons_append] at ih
        simp [hescape, ih]

theorem readFraction_append (hmore : Stops more) (text : List Char) :
    readFraction (text ++ more) = ((readFraction text).1, (readFraction text).2 ++ more) := by
  cases text with
  | nil =>
    cases more with
    | nil => rfl
    | cons c more =>
      have hc : c ≠ '.' := fun h => hmore.head_ne (show '.' ∉ stops by decide) (by simp [h])
      simp [readFraction, hc]
  | cons c text =>
    simp only [readFraction, List.cons_append]
    split
    · rw [takeWhile_append_stops isDigit_stops hmore, dropWhile_append_stops isDigit_stops hmore]
    · rfl

theorem readExponent_append (hmore : Stops more) : ∀ text : List Char,
    readExponent (text ++ more) = ((readExponent text).1, (readExponent text).2 ++ more)
  | [] => by
    match more, hmore with
    | [], _ => rfl
    | [c], _ => rfl
    | c :: d :: more, hmore =>
      have hc : c ≠ 'e' ∧ c ≠ 'E' :=
        ⟨fun h => hmore.head_ne (show 'e' ∉ stops by decide) (by simp [h]),
          fun h => hmore.head_ne (show 'E' ∉ stops by decide) (by simp [h])⟩
      simp [readExponent, hc]
  | [c] => by
    cases more with
    | nil => rfl
    | cons d more =>
      have hdigit : d.isDigit = false := isDigit_stops d (hmore d rfl)
      have hsign : ¬(d = '+' ∨ d = '-') := by
        rintro (h | h)
        · exact hmore.head_ne (show '+' ∉ stops by decide) (by simp [h])
        · exact hmore.head_ne (show '-' ∉ stops by decide) (by simp [h])
      simp [readExponent, hdigit, hsign]
  | c :: d :: text => by
    simp only [readExponent, List.cons_append, digit_head_append_stops hmore,
      takeWhile_append_stops isDigit_stops hmore, dropWhile_append_stops isDigit_stops hmore]
    split
    · rfl
    · split
      · rfl
      · split <;> rfl

theorem readNumber_append (hmore : Stops more) (text : List Char) :
    readNumber (text ++ more) = ((readNumber text).1, (readNumber text).2 ++ more) := by
  simp only [readNumber, takeWhile_append_stops isDigit_stops hmore, dropWhile_append_stops isDigit_stops hmore,
    readFraction_append hmore, readExponent_append hmore]

theorem nextLexeme_append (hmore : Stops more) {rest : List Char} {t : Option Lexeme}
    (hcomment : ¬['-', '-'] <+: text) (h : nextLexeme text = some (t, rest)) :
    nextLexeme (text ++ more) = some (t, rest ++ more) := by
  cases text with
  | nil => cases h
  | cons c text =>
    have hquote := hmore.head_ne (show '\'' ∉ stops by decide)
    have hdelimiter := hmore.head_ne (show '"' ∉ stops by decide)
    simp only [nextLexeme, List.cons_append, head?_append_stops hmore (show '-' ∉ stops by decide),
      head?_append_stops hmore (show '*' ∉ stops by decide), takeWhile_append_stops continuesWord_stops hmore,
      dropWhile_append_stops continuesWord_stops hmore, head?_append_stops hmore (show '\'' ∉ stops by decide),
      digit_head_append_stops hmore] at h ⊢
    split at h
    · rename_i hblank
      cases h
      rw [if_pos hblank]
    rename_i hblank
    rw [if_neg hblank]
    split at h
    · rename_i hline
      cases text with
      | nil => cases hline.2
      | cons d text =>
        simp only [List.head?_cons, Option.some.injEq] at hline
        exact absurd ⟨text, by simp [hline.1, hline.2]⟩ hcomment
    rename_i hline
    rw [if_neg hline]
    split at h
    · rename_i hopen
      cases text with
      | nil => cases hopen.2
      | cons d text =>
        simp only [Option.map_eq_some_iff, Prod.mk.injEq, List.tail_cons] at h
        obtain ⟨rest', h, rfl, rfl⟩ := h
        simp [hopen, skipBlock_append h]
    rename_i hopen
    rw [if_neg hopen]
    split at h
    · rename_i hname
      rw [if_pos hname]
      simp only [Option.bind_eq_some_iff] at h
      obtain ⟨⟨name, rest'⟩, h, hempty⟩ := h
      rw [readQuoted_append hdelimiter h]
      split at hempty
      · cases hempty
      · rename_i hname
        cases hempty
        simp [hname]
    rename_i hname
    rw [if_neg hname]
    split at h
    · rename_i hliteral
      rw [if_pos hliteral]
      simp only [Option.map_eq_some_iff, Prod.mk.injEq] at h
      obtain ⟨⟨body, rest'⟩, h, rfl, rfl⟩ := h
      simp [readQuoted_append hquote h]
    rename_i hliteral
    rw [if_neg hliteral]
    split at h
    · rename_i hword
      rw [if_pos hword]
      split at h
      · rename_i hescape
        rw [if_pos hescape]
        simp only [Option.map_eq_some_iff, Prod.mk.injEq] at h
        obtain ⟨⟨body, rest'⟩, h, rfl, rfl⟩ := h
        have htail : (text.dropWhile continuesWord ++ more).tail = (text.dropWhile continuesWord).tail ++ more := by
          cases hdrop : text.dropWhile continuesWord with
          | nil => simp [hdrop] at hescape
          | cons d text => rfl
        simp [htail, readEscaped_append hquote h]
      · rename_i hescape
        rw [if_neg hescape]
        cases h
        rfl
    rename_i hword
    rw [if_neg hword]
    simp only [← List.cons_append, readNumber_append hmore]
    split at h
    · rename_i hdigit
      rw [if_pos hdigit]
      cases h
      rfl
    rename_i hdigit
    rw [if_neg hdigit]
    split at h
    · rename_i hpoint
      rw [if_pos hpoint]
      cases h
      rfl
    · rename_i hpoint
      rw [if_neg hpoint]
      cases h
      rfl

end Follows

/-! ## Pieces of a text -/

/-- The text is read to these lexemes, whatever comes after it. -/
def Reads (text : List Char) (lexemes : List Lexeme) : Prop :=
  ∀ more, Stops more → lex (text ++ more) = (lex more).map (lexemes ++ ·)

theorem reads_nil : Reads [] [] := by
  intro more _
  simp

variable {lexemes : List Lexeme}

theorem reads_of_lex (hcomment : ¬['-', '-'] <:+: text) (h : lex text = some lexemes) : Reads text lexemes := by
  intro more hmore
  induction hn : text.length using Nat.strong_induction_on generalizing text lexemes with
  | _ n ih =>
    cases text with
    | nil =>
      cases h
      simp
    | cons c text =>
      rw [lex_cons] at h
      simp only [Option.bind_eq_some_iff, Option.map_eq_some_iff] at h
      obtain ⟨⟨t, rest⟩, hnext, lexemes, hrest, rfl⟩ := h
      have hsuffix := nextLexeme_suffix hnext
      have hlength : rest.length < n := by
        rw [← hn]
        exact Nat.lt_succ_of_le hsuffix.length_le
      have hfree : ¬['-', '-'] <:+: rest := fun h =>
        hcomment (h.trans (hsuffix.trans (List.suffix_cons c text)).isInfix)
      have hhead : ¬['-', '-'] <+: c :: text := fun h => hcomment h.isInfix
      have happend := nextLexeme_append hmore hhead hnext
      rw [List.cons_append] at happend ⊢
      rw [lex_cons, happend]
      simp only [Option.bind_some, ih rest.length hlength hfree hrest rfl, Option.map_map]
      congr 1
      funext ls
      simp

variable {s t : List Char} {ls ms : List Lexeme}

theorem Reads.append (hs : Reads s ls) (ht : Reads t ms) (hstop : ∀ more, Stops more → Stops (t ++ more)) :
    Reads (s ++ t) (ls ++ ms) := by
  intro more hmore
  rw [List.append_assoc, hs _ (hstop more hmore), ht more hmore, Option.map_map]
  congr 1
  funext ls
  simp

/-! ## Words -/

def plainWord : List Char → Bool
  | [] => false
  | c :: text => startsWord c && text.all continuesWord

theorem startsWord_ne (hc : startsWord c = true) :
    c ∉ blanks ∧ c ≠ '-' ∧ c ≠ '/' ∧ c ≠ '"' ∧ c ≠ '\'' := by
  have hblanks : ∀ c ∈ blanks, startsWord c = false := by
    simpa using show blanks.all (!startsWord ·) = true by decide
  refine ⟨?_, ?_, ?_, ?_, ?_⟩
  · intro h
    simp [hblanks c h] at hc
  all_goals
    rintro rfl
    revert hc
    decide

variable {more : List Char}

theorem nextLexeme_word (hc : startsWord c = true) (htext : text.all continuesWord = true)
    (hmore : ∀ d, more.head? = some d → continuesWord d = false ∧ d ≠ '\'') :
    nextLexeme (c :: (text ++ more)) = some (some (.word (c :: text)), more) := by
  obtain ⟨hblank, hline, hopen, hname, hliteral⟩ := startsWord_ne hc
  have hall := List.all_eq_true.mp htext
  have htake : (text ++ more).takeWhile continuesWord = text := by
    rw [List.takeWhile_append_of_pos hall]
    cases more with
    | nil => simp
    | cons d more => simp [(hmore d rfl).1]
  have hdrop : (text ++ more).dropWhile continuesWord = more := by
    rw [List.dropWhile_append_of_pos hall]
    cases more with
    | nil => rfl
    | cons d more => simp [(hmore d rfl).1]
  have hquote : more.head? ≠ some '\'' := fun h => (hmore _ h).2 rfl
  simp only [nextLexeme, hblank, hline, hopen, hname, hliteral, hc, htake, hdrop, hquote, false_and, and_false, if_false,
    if_true]

theorem reads_word (h : plainWord text = true) : Reads text [.word text] := by
  intro more hmore
  cases text with
  | nil => cases h
  | cons c text =>
    simp only [plainWord, Bool.and_eq_true] at h
    have hstop : ∀ d, more.head? = some d → continuesWord d = false ∧ d ≠ '\'' := by
      intro d hd
      refine ⟨continuesWord_stops d (hmore d hd), ?_⟩
      rintro rfl
      exact hmore.head_ne (show '\'' ∉ stops by decide) hd
    rw [List.cons_append, lex_cons, nextLexeme_word h.1 h.2 hstop]
    rfl

variable {w : List Char}

theorem plainWord_of_nextLexeme (h : nextLexeme text = some (some (.word w), rest)) :
    plainWord w = true := by
  cases text with
  | nil => cases h
  | cons c text =>
    simp only [nextLexeme] at h
    split at h
    · cases h
    split at h
    · cases h
    split at h
    · simp at h
    split at h
    · simp only [Option.bind_eq_some_iff] at h
      obtain ⟨⟨name, rest'⟩, -, hname⟩ := h
      split at hname <;> cases hname
    split at h
    · simp at h
    split at h
    · rename_i hc
      split at h
      · simp at h
      · cases h
        simp only [plainWord, hc, Bool.true_and, List.all_eq_true]
        intro d hd
        exact List.mem_takeWhile_imp hd
    split at h
    · cases h
    split at h
    · cases h
    · cases h

theorem exists_nextLexeme_of_mem_lex {l : Lexeme} (h : lex text = some lexemes) (hmem : l ∈ lexemes) :
    ∃ s rest, nextLexeme s = some (some l, rest) := by
  induction hn : text.length using Nat.strong_induction_on generalizing text lexemes with
  | _ n ih =>
    cases text with
    | nil =>
      cases h
      cases hmem
    | cons c text =>
      rw [lex_cons] at h
      simp only [Option.bind_eq_some_iff, Option.map_eq_some_iff] at h
      obtain ⟨⟨t, rest⟩, hnext, lexemes, hrest, rfl⟩ := h
      rcases List.mem_append.mp hmem with hfirst | hlater
      · cases t with
        | none => cases hfirst
        | some t =>
          obtain rfl := List.mem_singleton.mp hfirst
          exact ⟨_, _, hnext⟩
      · refine ih rest.length ?_ hrest hlater rfl
        rw [← hn]
        exact Nat.lt_succ_of_le (nextLexeme_suffix hnext).length_le

theorem plainWord_of_mem_lex (h : lex text = some lexemes) (hmem : .word w ∈ lexemes) : plainWord w = true := by
  obtain ⟨s, rest, hnext⟩ := exists_nextLexeme_of_mem_lex h hmem
  exact plainWord_of_nextLexeme hnext

theorem lex_word_iff (hmore : Stops more) (lexemes : List Lexeme) :
    lex (text ++ more) = some (.word text :: lexemes) ↔ plainWord text = true ∧ lex more = some lexemes := by
  constructor
  · intro h
    have hplain : plainWord text = true := plainWord_of_mem_lex h (List.mem_cons_self ..)
    rw [reads_word hplain more hmore] at h
    simpa [hplain] using h
  · rintro ⟨hplain, h⟩
    rw [reads_word hplain more hmore, h]
    rfl

/-! ## Quotes -/

theorem lex_blank (text : List Char) : lex (' ' :: text) = lex text := by
  have hnext : nextLexeme (' ' :: text) = some (none, text) := rfl
  rw [lex_cons, hnext]
  simp

/-- The symbols that stand for themselves before any text. -/
def lone : List Char := [',', '(', ')', ';', ':']

theorem lex_symbol (hc : c ∈ lone) (text : List Char) :
    lex (c :: text) = (lex text).map (.symbol c :: ·) := by
  simp only [lone, List.mem_cons, List.not_mem_nil, or_false] at hc
  rcases hc with rfl | rfl | rfl | rfl | rfl <;>
  · rw [lex_cons]
    rfl

theorem Reads.symbol (h : Reads text lexemes) (hc : c ∈ lone) :
    Reads (c :: text) (.symbol c :: lexemes) := by
  intro more hmore
  rw [List.cons_append, lex_symbol hc, h more hmore, Option.map_map]
  rfl

theorem Reads.blank (h : Reads text lexemes) : Reads (' ' :: text) lexemes := by
  intro more hmore
  rw [List.cons_append, lex_blank, h more hmore]

theorem Reads.append_stop (hs : Reads s ls) (ht : Reads (c :: t) ms) (hc : c ∈ stops) :
    Reads (s ++ c :: t) (ls ++ ms) :=
  hs.append ht fun more _ => stops_cons hc (t ++ more)

theorem lex_literal (text : List Char) :
    lex ('\'' :: text) = (readQuoted '\'' text).bind fun (body, rest) => (lex rest).map (.literal body :: ·) := by
  have hnext : nextLexeme ('\'' :: text) =
      (readQuoted '\'' text).map fun (body, rest) => (some (.literal body), rest) := rfl
  rw [lex_cons, hnext]
  cases readQuoted '\'' text <;> rfl

theorem lex_quoted (text : List Char) :
    lex ('"' :: text) = (readQuoted '"' text).bind fun (name, rest) =>
      if name = [] then none else (lex rest).map (.quoted name :: ·) := by
  have hnext : nextLexeme ('"' :: text) = (readQuoted '"' text).bind fun (name, rest) =>
      if name = [] then none else some (some (.quoted name), rest) := rfl
  rw [lex_cons, hnext]
  cases readQuoted '"' text with
  | none => rfl
  | some p =>
    simp only [Option.bind_some]
    split <;> rfl

theorem lex_literal_iff (hrest : rest.head? ≠ some '\'') (lexemes : List Lexeme) :
    lex ('\'' :: (text ++ '\'' :: rest)) = some (.literal text :: lexemes) ↔ '\'' ∉ text ∧ lex rest = some lexemes := by
  rw [lex_literal]
  simp only [Option.bind_eq_some_iff, Option.map_eq_some_iff, List.cons.injEq, Lexeme.literal.injEq]
  constructor
  · rintro ⟨⟨body, more⟩, hread, ls, hls, rfl, rfl⟩
    obtain ⟨htext, rfl⟩ := (readQuoted_plain_iff hrest body more).mp hread
    exact ⟨htext, hls⟩
  · rintro ⟨htext, hls⟩
    exact ⟨(text, rest), readQuoted_plain hrest htext, lexemes, hls, rfl, rfl⟩

theorem lex_quoted_iff (hrest : rest.head? ≠ some '"') (lexemes : List Lexeme) :
    lex ('"' :: (text ++ '"' :: rest)) = some (.quoted text :: lexemes) ↔
      ('"' ∉ text ∧ text ≠ []) ∧ lex rest = some lexemes := by
  rw [lex_quoted]
  simp only [Option.bind_eq_some_iff]
  constructor
  · rintro ⟨⟨name, more⟩, hread, hname⟩
    split at hname
    · cases hname
    · rename_i hempty
      simp only [Option.map_eq_some_iff, List.cons.injEq, Lexeme.quoted.injEq] at hname
      obtain ⟨ls, hls, rfl, rfl⟩ := hname
      obtain ⟨htext, rfl⟩ := (readQuoted_plain_iff hrest name more).mp hread
      exact ⟨⟨htext, hempty⟩, hls⟩
  · rintro ⟨⟨htext, hempty⟩, hls⟩
    exact ⟨(text, rest), readQuoted_plain hrest htext, by simp [hempty, hls]⟩

section Readers

variable {β : Type} {f : List Lexeme → Option β} {b : β} {text rest : List Char}

theorem lex_literal_bind_iff (hrest : rest.head? ≠ some '\'')
    (hf : ∀ body ls, f (.literal body :: ls) = some b → body = text) :
    (lex ('\'' :: (text ++ '\'' :: rest))).bind f = some b ↔
      '\'' ∉ text ∧ (lex rest).bind (fun ls => f (.literal text :: ls)) = some b := by
  simp only [Option.bind_eq_some_iff]
  constructor
  · rintro ⟨lexemes, hlex, hb⟩
    have hfirst := hlex
    rw [lex_literal] at hfirst
    simp only [Option.bind_eq_some_iff, Option.map_eq_some_iff] at hfirst
    obtain ⟨⟨body, more⟩, -, ls, -, rfl⟩ := hfirst
    obtain rfl := hf body ls hb
    obtain ⟨htext, hls⟩ := (lex_literal_iff hrest ls).mp hlex
    exact ⟨htext, ls, hls, hb⟩
  · rintro ⟨htext, ls, hls, hb⟩
    exact ⟨.literal text :: ls, (lex_literal_iff hrest ls).mpr ⟨htext, hls⟩, hb⟩

theorem lex_quoted_bind_iff (hrest : rest.head? ≠ some '"')
    (hf : ∀ name ls, f (.quoted name :: ls) = some b → name = text) :
    (lex ('"' :: (text ++ '"' :: rest))).bind f = some b ↔
      ('"' ∉ text ∧ text ≠ []) ∧ (lex rest).bind (fun ls => f (.quoted text :: ls)) = some b := by
  simp only [Option.bind_eq_some_iff]
  constructor
  · rintro ⟨lexemes, hlex, hb⟩
    have hfirst := hlex
    rw [lex_quoted] at hfirst
    simp only [Option.bind_eq_some_iff] at hfirst
    obtain ⟨⟨name, more⟩, -, hname⟩ := hfirst
    split at hname
    · cases hname
    · simp only [Option.map_eq_some_iff] at hname
      obtain ⟨ls, -, rfl⟩ := hname
      obtain rfl := hf name ls hb
      obtain ⟨htext, hls⟩ := (lex_quoted_iff hrest ls).mp hlex
      exact ⟨htext, ls, hls, hb⟩
  · rintro ⟨htext, ls, hls, hb⟩
    exact ⟨.quoted text :: ls, (lex_quoted_iff hrest ls).mpr ⟨htext, hls⟩, hb⟩

theorem lex_word_bind_iff (hrest : Stops rest) (hf : ∀ ls, f ls = some b → ∃ ms, ls = .word text :: ms) :
    (lex (text ++ rest)).bind f = some b ↔
      plainWord text = true ∧ (lex rest).bind (fun ls => f (.word text :: ls)) = some b := by
  simp only [Option.bind_eq_some_iff]
  constructor
  · rintro ⟨lexemes, hlex, hb⟩
    obtain ⟨ls, rfl⟩ := hf lexemes hb
    obtain ⟨hplain, hls⟩ := (lex_word_iff hrest ls).mp hlex
    exact ⟨hplain, ls, hls, hb⟩
  · rintro ⟨hplain, ls, hls, hb⟩
    exact ⟨.word text :: ls, (lex_word_iff hrest ls).mpr ⟨hplain, hls⟩, hb⟩

theorem Reads.bind {s : List Char} {ls : List Lexeme} (hs : Reads s ls) (hrest : Stops rest) :
    (lex (s ++ rest)).bind f = (lex rest).bind fun ms => f (ls ++ ms) := by
  rw [hs rest hrest]
  cases lex rest <;> rfl

end Readers

end Lib
