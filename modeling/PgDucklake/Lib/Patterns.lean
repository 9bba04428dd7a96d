import Mathlib.Data.List.Infix
import Mathlib.Data.List.TakeWhile

/-!
# C strings, quoted literals and wildcard patterns

A C string ends at its first NUL (`cString`). A quoted literal doubles the quotes inside it and ends at the first quote that is not doubled (`readQuoted`). A wildcard
pattern is a list of items: any sequence, any one character, or a given character (`matchItems`). In a text a pattern
is written with an escape character before what is meant literally (`parseItems`). An escaped text stands for itself
(`parseItems_escaped`), so that a pattern made of it and of wildcards around it looks for the text as an infix, a
prefix or a suffix.
-/

namespace Lib

instance lawfulBEqText : LawfulBEq (List Char) := inferInstance

/-! ## C strings -/

/-- What is left of a text that is passed as a C string. -/
def cString (text : List Char) : List Char := text.takeWhile (· ≠ '\x00')

theorem cString_append {text : List Char} (h : '\x00' ∉ text) (rest : List Char) :
    cString (text ++ rest) = text ++ cString rest := by
  rw [cString, List.takeWhile_append_of_pos]
  · rfl
  · intro c hc
    simp only [decide_eq_true_eq]
    rintro rfl
    exact h hc

theorem cString_eq_self_iff (text : List Char) : cString text = text ↔ '\x00' ∉ text := by
  rw [cString, List.takeWhile_eq_self_iff]
  simp only [decide_eq_true_eq]
  exact ⟨fun h hmem => h _ hmem rfl, fun h c hc heq => h (heq ▸ hc)⟩

variable {α : Type} [DecidableEq α]

/-! ## Quoted literals -/

/-- Every quote of a text doubled. -/
def doubled (quote : α) (text : List α) : List α :=
  text.flatMap fun c => if c = quote then [quote, quote] else [c]

/-- The contents of a literal, after its opening quote, and what follows the closing one. -/
def readQuoted (quote : α) : List α → Option (List α × List α)
  | [] => none
  | [c] => if c = quote then some ([], []) else none
  | c :: d :: text =>
    if c = quote then
      if d = quote then (readQuoted quote text).map fun (body, rest) => (quote :: body, rest)
      else some ([], d :: text)
    else (readQuoted quote (d :: text)).map fun (body, rest) => (c :: body, rest)

theorem doubled_append (quote : α) (s t : List α) : doubled quote (s ++ t) = doubled quote s ++ doubled quote t :=
  List.flatMap_append

theorem readQuoted_cons {quote c : α} (hc : c ≠ quote) (text : List α) :
    readQuoted quote (c :: text) = (readQuoted quote text).map fun (body, rest) => (c :: body, rest) := by
  cases text with
  | nil => simp [readQuoted, hc]
  | cons d text => simp [readQuoted, hc]

theorem readQuoted_quote {quote : α} {rest : List α} (hrest : rest.head? ≠ some quote) :
    readQuoted quote (quote :: rest) = some ([], rest) := by
  cases rest with
  | nil => simp [readQuoted]
  | cons d rest =>
    have hd : d ≠ quote := fun h => hrest (by simp [h])
    simp [readQuoted, hd]

theorem readQuoted_doubled_append (quote : α) : ∀ (s text : List α),
    readQuoted quote (doubled quote s ++ text) = (readQuoted quote text).map fun (body, rest) => (s ++ body, rest)
  | [], text => by simp [doubled]
  | c :: s, text => by
    have ih := readQuoted_doubled_append quote s text
    have hstep : readQuoted quote (doubled quote (c :: s) ++ text) =
        (readQuoted quote (doubled quote s ++ text)).map fun (body, rest) => (c :: body, rest) := by
      by_cases hc : c = quote
      · subst hc
        simp [doubled, readQuoted]
      · simp only [doubled, List.flatMap_cons, hc, if_false, List.cons_append]
        exact readQuoted_cons hc _
    rw [hstep, ih, Option.map_map]
    rfl

theorem readQuoted_doubled {quote : α} (s : List α) {rest : List α} (hrest : rest.head? ≠ some quote) :
    readQuoted quote (doubled quote s ++ quote :: rest) = some (s, rest) := by
  rw [readQuoted_doubled_append, readQuoted_quote hrest]
  simp

theorem readQuoted_unterminated (quote : α) (s : List α) : readQuoted quote (doubled quote s) = none := by
  have h := readQuoted_doubled_append quote s []
  rw [List.append_nil] at h
  rw [h]
  rfl

theorem readQuoted_suffix {quote : α} : ∀ {text body rest : List α}, readQuoted quote text = some (body, rest) →
    rest <:+ text
  | [], body, rest, h => by cases h
  | [c], body, rest, h => by
    by_cases hc : c = quote
    · simp only [readQuoted, if_pos hc, Option.some.injEq, Prod.mk.injEq] at h
      exact h.2 ▸ List.nil_suffix
    · simp [readQuoted, hc] at h
  | c :: d :: text, body, rest, h => by
    by_cases hc : c = quote
    · by_cases hd : d = quote
      · simp only [readQuoted, if_pos hc, if_pos hd, Option.map_eq_some_iff, Prod.mk.injEq] at h
        obtain ⟨⟨body', rest'⟩, h, -, rfl⟩ := h
        exact ((readQuoted_suffix h).trans (List.suffix_cons d text)).trans (List.suffix_cons c _)
      · simp only [readQuoted, if_pos hc, if_neg hd, Option.some.injEq, Prod.mk.injEq] at h
        exact h.2 ▸ List.suffix_cons c _
    · rw [readQuoted_cons hc] at h
      simp only [Option.map_eq_some_iff, Prod.mk.injEq] at h
      obtain ⟨⟨body', rest'⟩, h, -, rfl⟩ := h
      exact (readQuoted_suffix h).trans (List.suffix_cons c _)

theorem readQuoted_append {quote : α} {more : List α} (hmore : more.head? ≠ some quote) :
    ∀ {text body rest : List α}, readQuoted quote text = some (body, rest) →
      readQuoted quote (text ++ more) = some (body, rest ++ more)
  | [], body, rest, h => by cases h
  | [c], body, rest, h => by
    by_cases hc : c = quote
    · simp only [readQuoted, if_pos hc, Option.some.injEq, Prod.mk.injEq] at h
      obtain ⟨rfl, rfl⟩ := h
      rw [hc]
      exact readQuoted_quote hmore
    · simp [readQuoted, hc] at h
  | c :: d :: text, body, rest, h => by
    by_cases hc : c = quote
    · by_cases hd : d = quote
      · simp only [readQuoted, if_pos hc, if_pos hd, Option.map_eq_some_iff, Prod.mk.injEq] at h
        obtain ⟨⟨body', rest'⟩, h, rfl, rfl⟩ := h
        simp [readQuoted, hc, hd, readQuoted_append hmore h]
      · simp only [readQuoted, if_pos hc, if_neg hd, Option.some.injEq, Prod.mk.injEq] at h
        obtain ⟨rfl, rfl⟩ := h
        simp [readQuoted, hc, hd]
    · rw [readQuoted_cons hc] at h
      simp only [Option.map_eq_some_iff, Prod.mk.injEq] at h
      obtain ⟨⟨body', rest'⟩, h, rfl, rfl⟩ := h
      have ih := readQuoted_append hmore h
      rw [List.cons_append, readQuoted_cons hc, ih]
      rfl

theorem readQuoted_plain {quote : α} {rest : List α} (hrest : rest.head? ≠ some quote) : ∀ {text : List α},
    quote ∉ text → readQuoted quote (text ++ quote :: rest) = some (text, rest)
  | [], _ => readQuoted_quote hrest
  | c :: text, htext => by
    simp only [List.mem_cons, not_or] at htext
    rw [List.cons_append, readQuoted_cons (Ne.symm htext.1), readQuoted_plain hrest htext.2]
    rfl

theorem readQuoted_head {quote : α} : ∀ {text body rest : List α}, text.head? ≠ some quote →
    readQuoted quote text = some (body, rest) → ∃ c tail, c ≠ quote ∧ body = c :: tail
  | [], body, rest, _, h => by cases h
  | c :: text, body, rest, htext, h => by
    have hc : c ≠ quote := fun hc => htext (by simp [hc])
    rw [readQuoted_cons hc] at h
    simp only [Option.map_eq_some_iff, Prod.mk.injEq] at h
    obtain ⟨⟨tail, _⟩, -, rfl, -⟩ := h
    exact ⟨c, tail, hc, rfl⟩

theorem readQuoted_behind {quote : α} {rest : List α} (hrest : rest.head? ≠ some quote) : ∀ (text : List α) (k : Nat)
    (more : List α), readQuoted quote (text ++ quote :: rest) ≠ some (List.replicate (k + 1) quote ++ text, more)
  | [], k, more, h => by
    rw [List.nil_append, readQuoted_quote hrest] at h
    simp at h
  | [c], k, more, h => by
    by_cases hc : c = quote
    · subst hc
      simp only [List.cons_append, List.nil_append, readQuoted, if_true, Option.map_eq_some_iff, Prod.mk.injEq,
        List.replicate_succ, List.cons.injEq, true_and] at h
      obtain ⟨⟨body, more'⟩, h, hbody, -⟩ := h
      obtain ⟨d, tail, hd, rfl⟩ := readQuoted_head hrest h
      cases k with
      | zero => simp [hd] at hbody
      | succ k => simp [List.replicate_succ, hd] at hbody
    · rw [List.singleton_append, readQuoted_cons hc] at h
      simp [List.replicate_succ, hc] at h
  | c :: d :: text, k, more, h => by
    by_cases hc : c = quote
    · subst hc
      by_cases hd : d = c
      · subst hd
        simp only [List.cons_append, readQuoted, if_true, Option.map_eq_some_iff, Prod.mk.injEq, List.replicate_succ,
          List.cons.injEq, true_and] at h
        obtain ⟨⟨body, more'⟩, h, hbody, -⟩ := h
        have hshift : body = List.replicate (k + 1 + 1) d ++ text := by
          simpa [List.replicate_succ'] using hbody
        exact readQuoted_behind hrest text (k + 1) more' (hshift ▸ h)
      · simp [readQuoted, hd, List.replicate_succ] at h
    · rw [List.cons_append, readQuoted_cons hc] at h
      simp [List.replicate_succ, hc] at h

theorem readQuoted_plain_iff {quote : α} {rest : List α} (hrest : rest.head? ≠ some quote) (text more : List α) :
    readQuoted quote (text ++ quote :: rest) = some (text, more) ↔ quote ∉ text ∧ more = rest := by
  constructor
  · intro h
    have htext : quote ∉ text := by
      intro hmem
      -- up to the first quote the reading agrees with the text, from there on it is behind
      induction text generalizing more with
      | nil => cases hmem
      | cons c text ih =>
        by_cases hc : c = quote
        · subst hc
          cases text with
          | nil =>
            simp only [List.cons_append, List.nil_append, readQuoted, if_true, Option.map_eq_some_iff, Prod.mk.injEq,
              List.cons.injEq, true_and] at h
            obtain ⟨⟨body, more'⟩, h, hbody, -⟩ := h
            obtain ⟨d, tail, -, rfl⟩ := readQuoted_head hrest h
            cases hbody
          | cons d text =>
            by_cases hd : d = c
            · subst hd
              simp only [List.cons_append, readQuoted, if_true, Option.map_eq_some_iff, Prod.mk.injEq, List.cons.injEq,
                true_and] at h
              obtain ⟨⟨body, more'⟩, h, hbody, -⟩ := h
              have hshift : body = List.replicate (0 + 1) d ++ text := hbody
              exact readQuoted_behind hrest text 0 more' (hshift ▸ h)
            · simp [readQuoted, hd] at h
        · rw [List.cons_append, readQuoted_cons hc] at h
          simp only [Option.map_eq_some_iff, Prod.mk.injEq, List.cons.injEq, true_and] at h
          obtain ⟨⟨body, _⟩, h, rfl, rfl⟩ := h
          exact ih _ h (List.mem_of_ne_of_mem (Ne.symm hc) hmem)
    rw [readQuoted_plain hrest htext] at h
    simp only [Option.some.injEq, Prod.mk.injEq, true_and] at h
    exact ⟨htext, h.symm⟩
  · rintro ⟨htext, rfl⟩
    exact readQuoted_plain hrest htext

/-! ## Wildcards -/

/-- An item of a pattern. -/
inductive PatternItem (α : Type)
  | anySequence
  | anyOne
  | literal (c : α)
  deriving DecidableEq, Repr

/-- The whole text matches the items. -/
def matchItems : List (PatternItem α) → List α → Bool
  | [], text => text.isEmpty
  | .anySequence :: items, text => text.tails.any (matchItems items)
  | .anyOne :: items, text =>
    match text with
    | [] => false
    | _ :: text => matchItems items text
  | .literal c :: items, text =>
    match text with
    | [] => false
    | d :: text => c == d && matchItems items text

theorem matchItems_literals (items : List (PatternItem α)) : ∀ s text : List α,
    matchItems (s.map .literal ++ items) text = true ↔ ∃ rest, text = s ++ rest ∧ matchItems items rest = true
  | [], text => by simp
  | c :: s, [] => by simp [matchItems]
  | c :: s, d :: text => by
    have ih := matchItems_literals items s text
    simp only [List.map_cons, List.cons_append, matchItems, Bool.and_eq_true, beq_iff_eq, ih, List.cons.injEq]
    constructor
    · rintro ⟨rfl, rest, rfl, hrest⟩
      exact ⟨rest, ⟨rfl, rfl⟩, hrest⟩
    · rintro ⟨rest, ⟨rfl, rfl⟩, hrest⟩
      exact ⟨rfl, rest, rfl, hrest⟩

theorem matchItems_anySequence (items : List (PatternItem α)) (text : List α) :
    matchItems (.anySequence :: items) text = true ↔ ∃ skipped rest, text = skipped ++ rest ∧
      matchItems items rest = true := by
  simp only [matchItems, List.any_eq_true, List.mem_tails]
  constructor
  · rintro ⟨rest, ⟨skipped, rfl⟩, hrest⟩
    exact ⟨skipped, rest, rfl, hrest⟩
  · rintro ⟨skipped, rest, rfl, hrest⟩
    exact ⟨rest, ⟨skipped, rfl⟩, hrest⟩

theorem matchItems_trailing (text : List α) : matchItems [.anySequence] text = true :=
  (matchItems_anySequence [] text).mpr ⟨text, [], by simp, rfl⟩

theorem matchItems_start (s text : List α) :
    matchItems (s.map .literal ++ [.anySequence]) text = true ↔ s <+: text := by
  rw [matchItems_literals]
  constructor
  · rintro ⟨rest, rfl, -⟩
    exact ⟨rest, rfl⟩
  · rintro ⟨rest, rfl⟩
    exact ⟨rest, rfl, matchItems_trailing rest⟩

theorem matchItems_suffix (s text : List α) :
    matchItems (.anySequence :: s.map .literal) text = true ↔ s <:+ text := by
  rw [matchItems_anySequence]
  constructor
  · rintro ⟨skipped, rest, rfl, hrest⟩
    rw [← List.append_nil (s.map _), matchItems_literals] at hrest
    obtain ⟨last, rfl, hlast⟩ := hrest
    obtain rfl : last = [] := List.isEmpty_iff.mp hlast
    exact ⟨skipped, by simp⟩
  · rintro ⟨skipped, rfl⟩
    refine ⟨skipped, s, rfl, ?_⟩
    rw [← List.append_nil (s.map _), matchItems_literals]
    exact ⟨[], by simp, rfl⟩

theorem matchItems_infix (s text : List α) :
    matchItems (.anySequence :: (s.map .literal ++ [.anySequence])) text = true ↔ s <:+: text := by
  rw [matchItems_anySequence]
  constructor
  · rintro ⟨skipped, rest, rfl, hrest⟩
    obtain ⟨last, rfl⟩ := (matchItems_start s rest).mp hrest
    exact ⟨skipped, last, by simp⟩
  · rintro ⟨skipped, last, rfl⟩
    exact ⟨skipped, s ++ last, by simp, (matchItems_start s _).mpr ⟨last, rfl⟩⟩

/-! ## Patterns in a text -/

/-- The characters that a pattern gives a meaning: the wildcards and, where there is one, the escape character. -/
structure Wildcards (α : Type) where
  sequence : α
  one : α
  escape : Option α

/-- The items of a written pattern. There must be a character after an escape character. -/
def parseItems (w : Wildcards α) : List α → Option (List (PatternItem α))
  | [] => some []
  | [c] =>
    if w.escape = some c then none
    else some [if c = w.sequence then .anySequence else if c = w.one then .anyOne else .literal c]
  | c :: d :: text =>
    if w.escape = some c then (parseItems w text).map (.literal d :: ·)
    else (parseItems w (d :: text)).map
      ((if c = w.sequence then .anySequence else if c = w.one then .anyOne else .literal c) :: ·)

/-- A text with the escape character before every character that has a meaning. -/
def escaped (w : Wildcards α) (escape : α) (text : List α) : List α :=
  text.flatMap fun c => if c = escape ∨ c = w.sequence ∨ c = w.one then [escape, c] else [c]

theorem parseItems_cons {w : Wildcards α} {c : α} (hc : w.escape ≠ some c) (text : List α) :
    parseItems w (c :: text) = (parseItems w text).map
      ((if c = w.sequence then .anySequence else if c = w.one then .anyOne else .literal c) :: ·) := by
  cases text with
  | nil => simp [parseItems, hc]
  | cons d text => simp [parseItems, hc]

theorem parseItems_escaped {w : Wildcards α} {escape : α} (hescape : w.escape = some escape) : ∀ s text : List α,
    parseItems w (escaped w escape s ++ text) = (parseItems w text).map (s.map .literal ++ ·)
  | [], text => by simp [escaped]
  | c :: s, text => by
    have ih := parseItems_escaped hescape s text
    have hstep : parseItems w (escaped w escape (c :: s) ++ text) =
        (parseItems w (escaped w escape s ++ text)).map (.literal c :: ·) := by
      by_cases hc : c = escape ∨ c = w.sequence ∨ c = w.one
      · simp [escaped, hc, parseItems, hescape]
      · have hplain : w.escape ≠ some c := by
          rw [hescape]
          exact fun h => hc (Or.inl (Option.some.inj h).symm)
        simp only [not_or] at hc
        simp only [escaped, List.flatMap_cons, hc, or_self, if_false, List.cons_append]
        rw [parseItems_cons hplain]
        simp [hc]
    rw [hstep, ih, Option.map_map]
    rfl

end Lib
