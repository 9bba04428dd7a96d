import PgDucklake.Lib.Lexemes

/-!
# Spelling and reading of statements

How names and strings are printed so that they are read back: a name between double quotes (`delimited`), a string as a
literal (`quoteLiteral`), and, as a structure, any way of printing names that are read back (`Spelling`). On the reading
side, what statements have in common: keywords, names, and options in parentheses (`readItems`).
-/

namespace Lib

/-! ## Reading -/

def keyword (k : String) : Lexeme → Bool
  | .word w => w.map Char.toLower == k.toList
  | _ => false

/-- Nothing follows but semicolons. -/
def atEnd (lexemes : List Lexeme) : Bool := lexemes.all (· == .symbol ';')

/-- The name that a lexeme stands for. -/
def nameOf : Lexeme → Option (List Char)
  | .word w => some w
  | .quoted name => some name
  | _ => none

def isValue : Lexeme → Bool
  | .symbol _ => false
  | _ => true

/-- Options `name value, …` after the opening parenthesis, to the end of the statement. -/
def readItems : List Lexeme → Option (List (Lexeme × Lexeme))
  | name :: value :: .symbol c :: rest =>
    if (nameOf name).isNone || !isValue value then none
    else if c = ',' then (readItems rest).map ((name, value) :: ·)
    else if c = ')' ∧ atEnd rest = true then some [(name, value)]
    else none
  | _ => none

variable {ls : List Lexeme} {name value : Lexeme}

theorem readItems_cons {items : List (Lexeme × Lexeme)} (h : readItems ls = some ((name, value) :: items)) :
    ∃ rest, ls = name :: value :: rest := by
  unfold readItems at h
  split at h
  · split at h
    · cases h
    · split at h
      · simp only [Option.map_eq_some_iff, List.cons.injEq, Prod.mk.injEq] at h
        obtain ⟨_, -, ⟨rfl, rfl⟩, -⟩ := h
        exact ⟨_, rfl⟩
      · split at h
        · cases h
          exact ⟨_, rfl⟩
        · cases h
  · cases h

theorem readItems_comma (hname : (nameOf name).isSome = true) (hvalue : isValue value = true) (ls : List Lexeme) :
    readItems (name :: value :: .symbol ',' :: ls) = (readItems ls).map ((name, value) :: ·) := by
  have hnone : (nameOf name).isNone = false := by simp [hname]
  simp [readItems, hnone, hvalue]

theorem readItems_close (hname : (nameOf name).isSome = true) (hvalue : isValue value = true) (hls : atEnd ls = true) :
    readItems (name :: value :: .symbol ')' :: ls) = some [(name, value)] := by
  have hnone : (nameOf name).isNone = false := by simp [hname]
  simp [readItems, hnone, hvalue, hls]

/-- The lexemes of a list with commas. -/
def separated : List (List Lexeme) → List Lexeme
  | [] => []
  | [ls] => ls
  | ls :: lss => ls ++ .symbol ',' :: separated lss

theorem reads_separated {texts : List (List Char)} {lss : List (List Lexeme)} (h : List.Forall₂ Reads texts lss) :
    Reads ([',', ' '].intercalate texts) (separated lss) := by
  induction h with
  | nil => exact reads_nil
  | @cons text ls texts lss htext hrest ih =>
    cases hrest with
    | nil => simpa [List.intercalate, separated] using htext
    | @cons text' ls' texts lss htext' hrest =>
      have hcomma := htext.append_stop (ih.blank.symbol (show ',' ∈ lone by decide)) (by decide)
      simpa [List.intercalate, List.intersperse, separated] using hcomma

theorem bind_map_cons_iff {α β : Type} {x : Option α} {f : α → Option (List β)} {b : β} {l : List β} :
    (x.bind fun a => (f a).map (b :: ·)) = some (b :: l) ↔ x.bind f = some l := by
  simp only [Option.bind_eq_some_iff, Option.map_eq_some_iff, List.cons.injEq, true_and, exists_eq_right]

/-! ## Printing -/

/-- A name between double quotes. -/
def delimited (name : List Char) : List Char := '"' :: (doubled '"' name ++ ['"'])

theorem reads_delimited {name : List Char} (hname : name ≠ []) : Reads (delimited name) [.quoted name] := by
  intro more hmore
  have hquote := hmore.head_ne (show '"' ∉ stops by decide)
  have hread : readQuoted '"' (doubled '"' name ++ ['"'] ++ more) = some (name, more) := by
    rw [List.append_assoc]
    exact readQuoted_doubled name hquote
  rw [delimited, List.cons_append, lex_quoted, hread]
  simp [hname]

/-- Names as they are printed: each is read back. -/
structure Spelling where
  write : List Char → List Char
  reads : ∀ name, name ≠ [] → ∃ l, nameOf l = some name ∧ Reads (write name) [l]

/-- Every name between quotes. -/
def Spelling.delimited : Spelling where
  write := Lib.delimited
  reads := fun name hname => ⟨.quoted name, rfl, reads_delimited hname⟩

/-- Quotes and backslashes doubled. -/
def doubledEscapes (text : List Char) : List Char :=
  text.flatMap fun c => if c = '\'' ∨ c = '\\' then [c, c] else [c]

/-- A string as a literal. With a backslash it is an escape string. -/
def quoteLiteral (text : List Char) : List Char :=
  if '\\' ∈ text then 'E' :: '\'' :: (doubledEscapes text ++ ['\'']) else '\'' :: (doubledEscapes text ++ ['\''])

theorem reads_literal (text : List Char) : Reads ('\'' :: (doubled '\'' text ++ ['\''])) [.literal text] := by
  intro more hmore
  have hquote := hmore.head_ne (show '\'' ∉ stops by decide)
  have hread : readQuoted '\'' (doubled '\'' text ++ ['\''] ++ more) = some (text, more) := by
    rw [List.append_assoc]
    exact readQuoted_doubled text hquote
  rw [List.cons_append, lex_literal, hread]
  rfl

theorem doubledEscapes_eq : ∀ {text : List Char}, '\\' ∉ text → doubledEscapes text = doubled '\'' text
  | [], _ => rfl
  | c :: text, h => by
    simp only [List.mem_cons, not_or] at h
    have ih := doubledEscapes_eq h.2
    simp only [doubledEscapes, doubled, List.flatMap_cons] at ih ⊢
    rw [ih]
    by_cases hquote : c = '\''
    · simp [hquote]
    · simp [hquote, Ne.symm h.1]

theorem readEscaped_doubled {rest : List Char} (hrest : rest.head? ≠ some '\'') : ∀ text : List Char,
    readEscaped (doubledEscapes text ++ '\'' :: rest) = some (text, rest)
  | [] => by
    cases rest with
    | nil => rfl
    | cons d rest =>
      have hd : d ≠ '\'' := fun h => hrest (by simp [h])
      simp [doubledEscapes, readEscaped, hd]
  | c :: text => by
    have ih := readEscaped_doubled hrest text
    simp only [doubledEscapes] at ih
    by_cases hquote : c = '\''
    · simp [doubledEscapes, hquote, readEscaped, ih]
    · by_cases hescape : c = '\\'
      · have hself : unescaped '\\' = some '\\' := by decide
        simp [doubledEscapes, hescape, readEscaped, ih, hself]
      · have hlist : doubledEscapes (c :: text) ++ '\'' :: rest = c :: (doubledEscapes text ++ '\'' :: rest) := by
          simp [doubledEscapes, hquote, hescape]
        have hmore : ∃ d more, doubledEscapes text ++ '\'' :: rest = d :: more := by
          cases h : doubledEscapes text ++ '\'' :: rest with
          | nil => simp at h
          | cons d more => exact ⟨d, more, rfl⟩
        obtain ⟨d, more, hmore⟩ := hmore
        rw [hlist, hmore, readEscaped, if_neg hquote, if_neg hescape, ← hmore]
        simp [doubledEscapes, ih]

theorem reads_quoteLiteral (text : List Char) : Reads (quoteLiteral text) [.literal text] := by
  unfold quoteLiteral
  split
  · intro more hmore
    have hquote := hmore.head_ne (show '\'' ∉ stops by decide)
    have hread : readEscaped (doubledEscapes text ++ ['\''] ++ more) = some (text, more) := by
      rw [List.append_assoc]
      exact readEscaped_doubled hquote text
    have hnext : nextLexeme ('E' :: '\'' :: (doubledEscapes text ++ ['\''] ++ more)) =
        (readEscaped (doubledEscapes text ++ ['\''] ++ more)).map fun p => (some (.literal p.1), p.2) := by
      rfl
    rw [List.cons_append, List.cons_append, lex_cons, hnext, hread]
    rfl
  · rename_i hescape
    rw [doubledEscapes_eq hescape]
    exact reads_literal text

/-! ## Case -/

/-- Names are often compared, and kept, in lower case. -/
def lowered (text : List Char) : List Char := text.map Char.toLower

variable {c : Char}

theorem isUpper_iff : c.isUpper = true ↔ 'A'.val.toNat ≤ c.val.toNat ∧ c.val.toNat ≤ 'Z'.val.toNat := by
  rw [show c.isUpper = decide (c.val ≥ 'A'.val ∧ c.val ≤ 'Z'.val) from rfl]
  simp [UInt32.le_iff_toNat_le]

theorem isLower_iff : c.isLower = true ↔ 'a'.val.toNat ≤ c.val.toNat ∧ c.val.toNat ≤ 'z'.val.toNat := by
  rw [show c.isLower = (decide (c.val ≥ 'a'.val) && decide (c.val ≤ 'z'.val)) from rfl]
  simp [UInt32.le_iff_toNat_le]

theorem isAlpha_iff : c.isAlpha = true ↔ c.isUpper = true ∨ c.isLower = true := by
  rw [show c.isAlpha = (c.isUpper || c.isLower) from rfl, Bool.or_eq_true]

theorem toLower_cases (c : Char) : c.toLower = c ∨ c.isUpper = true ∧ c.toLower.isLower = true := by
  unfold Char.toLower
  split
  · rename_i h
    simp only [ge_iff_le, UInt32.le_iff_toNat_le] at h
    rw [isUpper_iff, isLower_iff]
    refine .inr ⟨h, ?_⟩
    dsimp only
    have hsum : (c.val + ('a'.val - 'A'.val)).toNat = c.val.toNat + 32 := by
      have hlast : 'Z'.val.toNat = 90 := rfl
      have hstep : ('a'.val - 'A'.val).toNat = 32 := rfl
      rw [UInt32.toNat_add]
      omega
    have hfirst : 'A'.val.toNat = 65 := rfl
    have hlast : 'Z'.val.toNat = 90 := rfl
    have hlower : 'a'.val.toNat = 97 := rfl
    have hend : 'z'.val.toNat = 122 := rfl
    omega
  · exact .inl rfl

theorem toLower_of_isLower (h : c.isLower = true) : c.toLower = c := by
  rcases toLower_cases c with hc | ⟨hupper, -⟩
  · exact hc
  · rw [isLower_iff] at h
    rw [isUpper_iff] at hupper
    have hlast : 'Z'.val.toNat = 90 := rfl
    have hlower : 'a'.val.toNat = 97 := rfl
    omega

theorem lowered_lowered (text : List Char) : lowered (lowered text) = lowered text := by
  simp only [lowered, List.map_map]
  apply List.map_congr_left
  intro c _
  rcases toLower_cases c with hc | ⟨-, hlower⟩
  · exact congrArg Char.toLower hc
  · exact toLower_of_isLower hlower

theorem startsWord_toLower (hc : startsWord c = true) : startsWord c.toLower = true := by
  rcases toLower_cases c with h | ⟨-, hlower⟩
  · rw [h]
    exact hc
  · simp [startsWord, isAlpha_iff.2 (.inr hlower)]

theorem continuesWord_toLower (hc : continuesWord c = true) : continuesWord c.toLower = true := by
  rcases toLower_cases c with h | ⟨-, hlower⟩
  · rw [h]
    exact hc
  · simp [continuesWord, startsWord, isAlpha_iff.2 (.inr hlower)]

theorem plainWord_lowered {text : List Char} (h : plainWord text = true) : plainWord (lowered text) = true := by
  cases text with
  | nil => cases h
  | cons c text =>
    simp only [plainWord, lowered, List.map_cons, Bool.and_eq_true, List.all_eq_true, List.mem_map] at h ⊢
    refine ⟨startsWord_toLower h.1, ?_⟩
    rintro d ⟨e, he, rfl⟩
    exact continuesWord_toLower (h.2 e he)

end Lib
