import Mathlib.Data.List.Basic
import Mathlib.Data.List.Forall2
import Mathlib.Data.List.Infix
import Mathlib.Tactic.Cases
import PgDucklake.Lib.Patterns

/-!
# Replacing words in a text with quotations

`replace` puts a value for every occurrence of a word, from left to right. A text with quotations is a list of cells: a
character of the text itself, or a whole quotation. Replacing in the cells leaves quotations alone; replacing in the
characters does not look where a quotation begins. A word without quotes and a value between quotes make the difference
visible in the number of quotes, so the two agree only if no quotation holds one of the words (`substitute_eq_iff`).
-/

namespace Lib

variable {α : Type}

section Words

variable {word : List α}

/-- A word without the character is a beginning of what is before the character already. -/
theorem prefix_append_cons_iff {c : α} (h : c ∉ word) (s t : List α) : word <+: s ++ c :: t ↔ word <+: s := by
  induction s generalizing word with
  | nil =>
    cases word with
    | nil => simp
    | cons d word =>
      have hne : d ≠ c := fun heq => h (heq ▸ List.mem_cons_self)
      simp [hne]
  | cons e s ih =>
    cases word with
    | nil => simp
    | cons d word =>
      have hword : c ∉ word := fun hmem => h (List.mem_cons_of_mem _ hmem)
      simp only [List.cons_append, List.cons_prefix_cons, ih hword]

theorem not_prefix_cons {c : α} (hne : word ≠ []) (h : c ∉ word) (t : List α) : ¬word <+: c :: t := by
  intro hprefix
  have hempty : word <+: [] := (prefix_append_cons_iff h [] t).mp hprefix
  exact hne (List.prefix_nil.mp hempty)

theorem infix_append_cons_iff {c : α} (hne : word ≠ []) (h : c ∉ word) (s t : List α) :
    word <:+: s ++ c :: t ↔ word <:+: s ∨ word <:+: t := by
  induction s with
  | nil =>
    have hempty : ¬word <:+: [] := fun hnil => hne (List.infix_nil.mp hnil)
    simp [List.infix_cons_iff, not_prefix_cons hne h t, hempty]
  | cons d s ih =>
    have hprefix : word <+: d :: (s ++ c :: t) ↔ word <+: d :: s := prefix_append_cons_iff h (d :: s) t
    rw [List.cons_append, List.infix_cons_iff, List.infix_cons_iff, ih, hprefix, or_assoc]

/-- What is left of a text after a match has as many quotes as the text had. -/
theorem countP_after_match {quote : α → Bool} (hne : word ≠ []) (hword : ∀ c ∈ word, quote c = false) {c : α}
    {t : List α} (h : word <+: c :: t) : (t.drop (word.length - 1)).countP quote = (c :: t).countP quote := by
  have hnone : word.countP quote = 0 := List.countP_eq_zero.mpr fun c hc => by simp [hword c hc]
  cases word with
  | nil => exact absurd rfl hne
  | cons d word =>
    obtain ⟨rest, hrest⟩ := h
    have htail : word ++ rest = t := (List.cons.inj hrest).2
    rw [← hrest, List.countP_append, hnone, Nat.zero_add, List.length_cons, Nat.add_sub_cancel, ← htail, List.drop_left]

end Words

/-! ## Cells -/

/-- A piece of a text with quotations. -/
inductive Cell (α : Type)
  | char (c : α)
  | quotation (text : List α)
  deriving DecidableEq

def Cell.text : Cell α → List α
  | .char c => [c]
  | .quotation text => text

def flatten (cells : List (Cell α)) : List α := cells.flatMap Cell.text

/-- The text begins and ends with a quote. -/
structure Quoted (quote : α → Bool) (text : List α) : Prop where
  first : ∃ c t, text = c :: t ∧ quote c = true
  last : ∃ s c, text = s ++ [c] ∧ quote c = true

def Cell.WellFormed (quote : α → Bool) : Cell α → Prop
  | .char c => quote c = false
  | .quotation text => Quoted quote text

/-- A word without quotes, and a quotation to put in its place. -/
structure Replacement (quote : α → Bool) where
  word : List α
  value : List α
  word_ne : word ≠ []
  word_plain : ∀ c ∈ word, quote c = false
  value_quoted : Quoted quote value

namespace Replacement

variable {quote : α → Bool} {r : Replacement quote}

theorem not_mem_word {c : α} (h : quote c = true) : c ∉ r.word := by
  intro hmem
  rw [r.word_plain c hmem] at h
  cases h

theorem value_quotes : 0 < r.value.countP quote := by
  obtain ⟨c, t, hvalue, hc⟩ := r.value_quoted.first
  rw [hvalue, List.countP_cons, if_pos hc]
  exact Nat.succ_pos _

theorem char_of_match {x : Cell α} {cells : List (Cell α)} (h : r.word.map .char <+: x :: cells) :
    ∃ c, x = .char c := by
  cases hword : r.word with
  | nil => exact absurd hword r.word_ne
  | cons d word =>
    rw [hword, List.map_cons, List.cons_prefix_cons] at h
    exact ⟨d, h.1.symm⟩

/-- What a match goes over is characters. -/
theorem chars_of_match {x : Cell α} {cells : List (Cell α)} (h : r.word.map .char <+: x :: cells) :
    ∀ y ∈ cells.take (r.word.length - 1), ∃ c, y = .char c := by
  obtain ⟨rest, hrest⟩ := h
  cases hword : r.word with
  | nil => exact absurd hword r.word_ne
  | cons d word =>
    rw [hword, List.map_cons, List.cons_append, List.cons.injEq] at hrest
    have hlength : (d :: word).length - 1 = (word.map Cell.char).length := by simp
    rw [← hrest.2, hlength, List.take_left]
    intro y hy
    obtain ⟨c, -, rfl⟩ := List.mem_map.mp hy
    exact ⟨c, rfl⟩

end Replacement

/-! ## Quotations that have grown -/

section Grown

variable (quote : α → Bool)

/-- The first cell is the second, or a quotation with more quotes. -/
inductive Grown : Cell α → Cell α → Prop
  | same (x : Cell α) : Grown x x
  | more {s t : List α} : t.countP quote < s.countP quote → Grown (.quotation s) (.quotation t)

variable {quote} {as bs : List (Cell α)}

theorem grown_prefix_iff (word : List α) (h : List.Forall₂ (Grown quote) as bs) :
    word.map .char <+: as ↔ word.map .char <+: bs := by
  induction h generalizing word with
  | nil => rfl
  | cons hhead _ ih =>
    cases word with
    | nil => simp
    | cons d word =>
      rw [List.map_cons, List.cons_prefix_cons, List.cons_prefix_cons, ih word]
      cases hhead with
      | same x => rfl
      | more hmore => simp

/-- Cells that have grown have more quotes. -/
theorem eq_or_countP_lt (h : List.Forall₂ (Grown quote) as bs) :
    as = bs ∨ (flatten bs).countP quote < (flatten as).countP quote := by
  induction h with
  | nil => exact .inl rfl
  | @cons x y as bs hhead _ ih =>
    have hcons : ∀ (x : Cell α) (cells : List (Cell α)),
        (flatten (x :: cells)).countP quote = x.text.countP quote + (flatten cells).countP quote :=
      fun x cells => List.countP_append
    rw [hcons, hcons]
    cases hhead with
    | same x =>
      rcases ih with rfl | hlt
      · exact .inl rfl
      · exact .inr (Nat.add_lt_add_left hlt _)
    | more hmore =>
      refine .inr (Nat.add_lt_add_of_lt_of_le hmore ?_)
      rcases ih with rfl | hlt
      · exact Nat.le_refl _
      · exact hlt.le

theorem flatten_eq_iff (h : List.Forall₂ (Grown quote) as bs) : flatten as = flatten bs ↔ as = bs := by
  refine ⟨fun heq => (eq_or_countP_lt h).resolve_right ?_, congrArg flatten⟩
  rw [heq]
  exact Nat.lt_irrefl _

end Grown

/-! ## Replacing in a text -/

variable [DecidableEq α]

/-- The text with the first `skip` characters, the rest of a match, left out. -/
def replaceFrom (word value : List α) : (skip : Nat) → List α → List α
  | _, [] => []
  | skip + 1, _ :: t => replaceFrom word value skip t
  | 0, c :: t =>
    if word <+: c :: t then value ++ replaceFrom word value (word.length - 1) t
    else c :: replaceFrom word value 0 t

def replace (word value text : List α) : List α := replaceFrom word value 0 text

section Replace

variable {word value : List α}

@[simp] theorem replaceFrom_nil (skip : Nat) : replaceFrom word value skip [] = [] := by
  cases skip <;> rfl

theorem replaceFrom_match {c : α} {t : List α} (h : word <+: c :: t) :
    replaceFrom word value 0 (c :: t) = value ++ replaceFrom word value (word.length - 1) t := by
  rw [replaceFrom, if_pos h]

theorem replaceFrom_pass {c : α} {t : List α} (h : ¬word <+: c :: t) :
    replaceFrom word value 0 (c :: t) = c :: replaceFrom word value 0 t := by
  rw [replaceFrom, if_neg h]

/-- No match reaches over a character that the word does not have. -/
theorem replaceFrom_append_cons {c : α} (hne : word ≠ []) (h : c ∉ word) (s t : List α) {skip : Nat}
    (hskip : skip ≤ s.length) :
    replaceFrom word value skip (s ++ c :: t) = replaceFrom word value skip s ++ c :: replace word value t := by
  induction s generalizing skip with
  | nil =>
    obtain rfl : skip = 0 := by simpa using hskip
    exact replaceFrom_pass (not_prefix_cons hne h t)
  | cons d s ih =>
    cases skip with
    | succ skip => exact ih (by simpa using hskip)
    | zero =>
      by_cases hmatch : word <+: d :: s
      · have hlong : word <+: d :: (s ++ c :: t) := (prefix_append_cons_iff h (d :: s) t).mpr hmatch
        have hlength : word.length - 1 ≤ s.length := by
          have := hmatch.length_le
          simp only [List.length_cons] at this
          omega
        rw [List.cons_append, replaceFrom_match hlong, replaceFrom_match hmatch, ih hlength, List.append_assoc]
      · have hlong : ¬word <+: d :: (s ++ c :: t) := fun hl => hmatch ((prefix_append_cons_iff h (d :: s) t).mp hl)
        rw [List.cons_append, replaceFrom_pass hlong, replaceFrom_pass hmatch, ih (Nat.zero_le _), List.cons_append]

theorem replace_append_cons {c : α} (hne : word ≠ []) (h : c ∉ word) (s t : List α) :
    replace word value (s ++ c :: t) = replace word value s ++ c :: replace word value t :=
  replaceFrom_append_cons hne h s t (Nat.zero_le _)

/-- A text without the word stays. -/
theorem replace_of_absent : ∀ {text : List α}, ¬word <:+: text → replace word value text = text
  | [], _ => rfl
  | c :: t, h => by
    rw [List.infix_cons_iff, not_or] at h
    exact (replaceFrom_pass h.1).trans (congrArg (c :: ·) (replace_of_absent h.2))

variable {quote : α → Bool} (value) (hne : word ≠ []) (hword : ∀ c ∈ word, quote c = false)

include hne hword in
theorem countP_le_replaceFrom :
    ∀ (text : List α) (skip : Nat), (text.drop skip).countP quote ≤ (replaceFrom word value skip text).countP quote
  | [], skip => by simp
  | _ :: t, skip + 1 => countP_le_replaceFrom t skip
  | c :: t, 0 => by
    by_cases hmatch : word <+: c :: t
    · have ih := countP_le_replaceFrom t (word.length - 1)
      rw [countP_after_match hne hword hmatch] at ih
      rw [replaceFrom_match hmatch, List.countP_append]
      exact Nat.le_add_left_of_le ih
    · have ih := countP_le_replaceFrom t 0
      rw [replaceFrom_pass hmatch, List.drop_zero, List.countP_cons, List.countP_cons]
      exact Nat.add_le_add_right ih _

include hne hword in
theorem countP_le_replace (text : List α) : text.countP quote ≤ (replace word value text).countP quote :=
  countP_le_replaceFrom value hne hword text 0

variable {value}

include hne hword in
/-- A replacement by a value with quotes adds quotes. -/
theorem countP_lt_replace (hvalue : 0 < value.countP quote) :
    ∀ {text : List α}, word <:+: text → text.countP quote < (replace word value text).countP quote
  | [], h => absurd (List.infix_nil.mp h) hne
  | c :: t, h => by
    by_cases hmatch : word <+: c :: t
    · have hrest := countP_le_replaceFrom value hne hword t (word.length - 1)
      rw [countP_after_match hne hword hmatch] at hrest
      rw [replace, replaceFrom_match hmatch, List.countP_append]
      omega
    · have hlater : word <:+: t := (List.infix_cons_iff.mp h).resolve_left hmatch
      have ih := countP_lt_replace hvalue hlater
      rw [replace, replaceFrom_pass hmatch, List.countP_cons, List.countP_cons]
      exact Nat.add_lt_add_right ih _

end Replace

/-! ## Replacing in cells -/

namespace Replacement

variable {quote : α → Bool} (r : Replacement quote)

/-- The replacement in the characters. -/
def inText (text : List α) : List α := replace r.word r.value text

/-- The replacement outside the quotations. -/
def inCells (cells : List (Cell α)) : List (Cell α) := replace (r.word.map .char) [.quotation r.value] cells

/-- The replacement inside a quotation. -/
def inCell : Cell α → Cell α
  | .char c => .char c
  | .quotation text => .quotation (r.inText text)

variable {r}

theorem inText_quoted {text : List α} (h : Quoted quote text) : Quoted quote (r.inText text) := by
  obtain ⟨⟨c, t, htext, hc⟩, s, d, htext', hd⟩ := h
  constructor
  · refine ⟨c, r.inText t, ?_, hc⟩
    rw [htext]
    exact replace_append_cons r.word_ne (not_mem_word hc) [] t
  · refine ⟨r.inText s, d, ?_, hd⟩
    rw [htext']
    exact replace_append_cons r.word_ne (not_mem_word hd) s []

/-- A quotation ends what comes before it and begins what comes after. -/
theorem inText_quoted_append {text : List α} (h : Quoted quote text) (rest : List α) :
    r.inText (text ++ rest) = r.inText text ++ r.inText rest := by
  obtain ⟨s, d, htext, hd⟩ := h.last
  have hnot := not_mem_word (r := r) hd
  unfold inText
  rw [htext, List.append_assoc, List.singleton_append, replace_append_cons r.word_ne hnot,
    replace_append_cons r.word_ne hnot s [], List.append_assoc]
  rfl

theorem inText_eq_self_iff (text : List α) : r.inText text = text ↔ ¬r.word <:+: text := by
  constructor
  · intro heq hinfix
    have hlt := countP_lt_replace r.word_ne r.word_plain r.value_quotes hinfix
    rw [show replace r.word r.value text = text from heq] at hlt
    exact Nat.lt_irrefl _ hlt
  · exact replace_of_absent

theorem inCell_wellFormed {x : Cell α} (h : x.WellFormed quote) : (r.inCell x).WellFormed quote := by
  cases x with
  | char c => exact h
  | quotation text => exact inText_quoted h

variable (r) in
/-- The characters and quotations are those of the cells, or new. -/
theorem mem_replaceFrom {x : Cell α} : ∀ (cells : List (Cell α)) (skip : Nat),
    x ∈ replaceFrom (r.word.map .char) [.quotation r.value] skip cells → x ∈ cells ∨ x = .quotation r.value
  | [], skip, h => by simp at h
  | y :: cells, skip + 1, h => (mem_replaceFrom cells skip h).imp_left (List.mem_cons_of_mem y)
  | y :: cells, 0, h => by
    by_cases hmatch : r.word.map .char <+: y :: cells
    · rw [replaceFrom_match hmatch, List.singleton_append, List.mem_cons] at h
      rcases h with rfl | h
      · exact .inr rfl
      · exact (mem_replaceFrom cells _ h).imp_left (List.mem_cons_of_mem y)
    · rw [replaceFrom_pass hmatch, List.mem_cons] at h
      rcases h with rfl | h
      · exact .inl List.mem_cons_self
      · exact (mem_replaceFrom cells _ h).imp_left (List.mem_cons_of_mem y)

theorem inCells_wellFormed {cells : List (Cell α)} (h : ∀ x ∈ cells, x.WellFormed quote) :
    ∀ x ∈ r.inCells cells, x.WellFormed quote := by
  intro x hx
  rcases mem_replaceFrom r cells 0 hx with hold | rfl
  · exact h x hold
  · exact r.value_quoted

/-- A match in the characters is a match in the cells. -/
theorem prefix_flatten_iff (word : List α) (hword : ∀ c ∈ word, quote c = false) (cells : List (Cell α))
    (h : ∀ x ∈ cells, x.WellFormed quote) : word <+: flatten cells ↔ word.map .char <+: cells.map r.inCell := by
  induction cells generalizing word with
  | nil => simp [flatten]
  | cons x cells ih =>
    cases word with
    | nil => simp
    | cons d word =>
      cases x with
      | char c =>
        have hrest := ih word (fun c hc => hword c (List.mem_cons_of_mem _ hc))
          (fun x hx => h x (List.mem_cons_of_mem _ hx))
        have hflat : flatten (.char c :: cells) = c :: flatten cells := rfl
        rw [hflat, List.map_cons, List.map_cons, List.cons_prefix_cons, List.cons_prefix_cons, hrest]
        simp [inCell]
      | quotation text =>
        obtain ⟨q, t, rfl, hq⟩ := (h _ List.mem_cons_self : Quoted quote text).first
        have hne : d ≠ q := by
          rintro rfl
          rw [hword d List.mem_cons_self] at hq
          cases hq
        have hflat : flatten (.quotation (q :: t) :: cells) = q :: (t ++ flatten cells) := rfl
        rw [hflat, List.map_cons, List.map_cons, List.cons_prefix_cons, List.cons_prefix_cons]
        simp [hne, inCell]

theorem replaceFrom_flatten (cells : List (Cell α)) (h : ∀ x ∈ cells, x.WellFormed quote) {skip : Nat}
    (hskip : ∀ x ∈ cells.take skip, ∃ c, x = .char c) :
    replaceFrom r.word r.value skip (flatten cells) =
      flatten (replaceFrom (r.word.map .char) [.quotation r.value] skip (cells.map r.inCell)) := by
  induction cells generalizing skip with
  | nil => simp [flatten]
  | cons x cells ih =>
    have hrest : ∀ x ∈ cells, x.WellFormed quote := fun x hx => h x (List.mem_cons_of_mem _ hx)
    cases skip with
    | succ skip =>
      obtain ⟨c, rfl⟩ := hskip x (by simp)
      exact ih hrest fun x hx => hskip x (by simp [hx])
    | zero =>
      have hnext : replaceFrom r.word r.value 0 (flatten cells) = _ := ih hrest (by simp)
      cases x with
      | char c =>
        have hiff := prefix_flatten_iff (r := r) r.word r.word_plain (.char c :: cells) h
        have hflat : flatten (.char c :: cells) = c :: flatten cells := rfl
        rw [hflat] at hiff ⊢
        by_cases hmatch : r.word <+: c :: flatten cells
        · have hcells := hiff.mp hmatch
          have hchars : ∀ y ∈ cells.take (r.word.length - 1), ∃ c, y = .char c := by
            intro y hy
            have hy' : r.inCell y ∈ (cells.map r.inCell).take (r.word.length - 1) := by
              rw [← List.map_take]
              exact List.mem_map_of_mem hy
            obtain ⟨c, hc⟩ := chars_of_match hcells _ hy'
            cases y with
            | char c => exact ⟨c, rfl⟩
            | quotation text => cases hc
          rw [replaceFrom_match hmatch, List.map_cons, replaceFrom_match hcells, ih hrest hchars, List.length_map]
          rfl
        · have hcells := mt hiff.mpr hmatch
          rw [replaceFrom_pass hmatch, List.map_cons, replaceFrom_pass hcells, hnext]
          rfl
      | quotation text =>
        have hcells : ¬r.word.map .char <+: r.inCell (.quotation text) :: cells.map r.inCell := by
          apply not_prefix_cons
          · simpa using r.word_ne
          · simp [inCell]
        rw [List.map_cons, replaceFrom_pass hcells]
        exact (inText_quoted_append (h _ List.mem_cons_self) _).trans (congrArg _ hnext)

/-- Replacing in the characters replaces inside the quotations, too. -/
theorem inText_flatten {cells : List (Cell α)} (h : ∀ x ∈ cells, x.WellFormed quote) :
    r.inText (flatten cells) = flatten (r.inCells (cells.map r.inCell)) :=
  replaceFrom_flatten cells h (by simp)

end Replacement

/-! ## Replacements in turn -/

section Substitute

variable {quote : α → Bool}

def substitute (rs : List (Replacement quote)) (text : List α) : List α :=
  rs.foldl (fun text r => r.inText text) text

/-- The replacements with every quotation left alone, the inserted ones included. -/
def substituteCells (rs : List (Replacement quote)) (cells : List (Cell α)) : List (Cell α) :=
  rs.foldl (fun cells r => r.inCells cells) cells

/-- No quotation has a word whose turn is still to come. -/
def Spared : List (Replacement quote) → List (Cell α) → Prop
  | [], _ => True
  | r :: rs, cells => (∀ t, Cell.quotation t ∈ cells → ¬r.word <:+: t) ∧ Spared rs (r.inCells cells)

variable {as bs : List (Cell α)} {r : Replacement quote}

theorem Grown.inCell {x y : Cell α} (h : Grown quote x y) : Grown quote (r.inCell x) y := by
  cases h with
  | more hmore => exact .more (hmore.trans_le (countP_le_replace r.value r.word_ne r.word_plain _))
  | same x =>
    cases x with
    | char c => exact .same _
    | quotation t =>
      by_cases hinfix : r.word <:+: t
      · exact .more (countP_lt_replace r.word_ne r.word_plain r.value_quotes hinfix)
      · have hstays : r.inCell (.quotation t) = .quotation t :=
          congrArg Cell.quotation ((r.inText_eq_self_iff t).mpr hinfix)
        rw [hstays]
        exact .same _

theorem Grown.inCell_eq_iff {x y : Cell α} (h : Grown quote x y) :
    r.inCell x = y ↔ x = y ∧ ∀ t, y = .quotation t → ¬r.word <:+: t := by
  cases h with
  | same x =>
    cases x with
    | char c => simp [Replacement.inCell]
    | quotation t => simp [Replacement.inCell, r.inText_eq_self_iff]
  | @more s t hmore =>
    have hafter := hmore.trans_le (countP_le_replace r.value r.word_ne r.word_plain s)
    constructor
    · intro heq
      cases heq
      exact absurd hafter (Nat.lt_irrefl _)
    · rintro ⟨heq, -⟩
      cases heq
      exact absurd hmore (Nat.lt_irrefl _)

theorem map_inCell_grown (h : List.Forall₂ (Grown quote) as bs) : List.Forall₂ (Grown quote) (as.map r.inCell) bs := by
  induction h with
  | nil => exact .nil
  | cons hhead _ ih => exact .cons hhead.inCell ih

theorem map_inCell_eq_iff (h : List.Forall₂ (Grown quote) as bs) :
    as.map r.inCell = bs ↔ as = bs ∧ ∀ t, Cell.quotation t ∈ bs → ¬r.word <:+: t := by
  induction h with
  | nil => simp
  | @cons x y as bs hhead _ ih =>
    rw [List.map_cons, List.cons.injEq, List.cons.injEq, hhead.inCell_eq_iff, ih]
    simp only [List.mem_cons]
    constructor
    · rintro ⟨⟨rfl, hfirst⟩, rfl, hrest⟩
      exact ⟨⟨rfl, rfl⟩, fun t ht => ht.elim (fun heq => hfirst t heq.symm) (hrest t)⟩
    · rintro ⟨⟨rfl, rfl⟩, hall⟩
      exact ⟨⟨rfl, fun t ht => hall t (.inl ht.symm)⟩, rfl, fun t ht => hall t (.inr ht)⟩

theorem grown_replaceFrom (skip : Nat) (h : List.Forall₂ (Grown quote) as bs) :
    List.Forall₂ (Grown quote) (replaceFrom (r.word.map .char) [.quotation r.value] skip as)
      (replaceFrom (r.word.map .char) [.quotation r.value] skip bs) := by
  induction h generalizing skip with
  | nil => simp
  | @cons x y as bs hhead htail ih =>
    cases skip with
    | succ skip => exact ih skip
    | zero =>
      have hiff := grown_prefix_iff r.word (.cons hhead htail)
      by_cases hmatch : r.word.map .char <+: x :: as
      · rw [replaceFrom_match hmatch, replaceFrom_match (hiff.mp hmatch)]
        exact .cons (.same _) (ih _)
      · rw [replaceFrom_pass hmatch, replaceFrom_pass (mt hiff.mpr hmatch)]
        exact .cons hhead (ih 0)

/-- The quotations are all in the result, so they can be compared there. -/
theorem eq_of_replaceFrom_eq {skip : Nat} (h : List.Forall₂ (Grown quote) as bs)
    (hskip : ∀ x ∈ as.take skip, ∃ c, x = .char c)
    (heq : replaceFrom (r.word.map .char) [.quotation r.value] skip as =
      replaceFrom (r.word.map .char) [.quotation r.value] skip bs) : as = bs := by
  induction h generalizing skip with
  | nil => rfl
  | @cons x y as bs hhead htail ih =>
    have hchar : ∀ c, x = .char c → y = .char c := by
      rintro c rfl
      cases hhead
      rfl
    cases skip with
    | succ skip =>
      obtain ⟨c, hc⟩ := hskip x (by simp)
      rw [ih (fun x hx => hskip x (by simp [hx])) heq, hc, hchar c hc]
    | zero =>
      have hiff := grown_prefix_iff r.word (.cons hhead htail)
      by_cases hmatch : r.word.map .char <+: x :: as
      · rw [replaceFrom_match hmatch, replaceFrom_match (hiff.mp hmatch), List.length_map] at heq
        obtain ⟨c, hc⟩ := Replacement.char_of_match hmatch
        rw [ih (Replacement.chars_of_match hmatch) (List.append_cancel_left heq), hc, hchar c hc]
      · rw [replaceFrom_pass hmatch, replaceFrom_pass (mt hiff.mpr hmatch), List.cons.injEq] at heq
        rw [heq.1, ih (by simp) heq.2]

theorem inCells_eq_iff (h : List.Forall₂ (Grown quote) as bs) : r.inCells as = r.inCells bs ↔ as = bs :=
  ⟨eq_of_replaceFrom_eq h (by simp), congrArg _⟩

/-- Grown cells stay grown, so what was changed once is seen at the end. -/
theorem substitute_grown_eq_iff (rs : List (Replacement quote)) (h : List.Forall₂ (Grown quote) as bs)
    (hformed : ∀ x ∈ as, x.WellFormed quote) :
    substitute rs (flatten as) = flatten (substituteCells rs bs) ↔ as = bs ∧ Spared rs bs := by
  induction rs generalizing as bs with
  | nil =>
    rw [Spared, and_true]
    exact flatten_eq_iff h
  | cons r rs ih =>
    have hgrown : List.Forall₂ (Grown quote) (as.map r.inCell) bs := map_inCell_grown h
    have hformed' : ∀ x ∈ as.map r.inCell, x.WellFormed quote := by
      intro x hx
      obtain ⟨y, hy, rfl⟩ := List.mem_map.mp hx
      exact Replacement.inCell_wellFormed (hformed y hy)
    calc substitute (r :: rs) (flatten as) = flatten (substituteCells (r :: rs) bs)
      _ ↔ substitute rs (flatten (r.inCells (as.map r.inCell))) = flatten (substituteCells rs (r.inCells bs)) := by
          rw [← Replacement.inText_flatten hformed]
          rfl
      _ ↔ r.inCells (as.map r.inCell) = r.inCells bs ∧ Spared rs (r.inCells bs) :=
          ih (grown_replaceFrom 0 hgrown) (Replacement.inCells_wellFormed hformed')
      _ ↔ (as = bs ∧ ∀ t, Cell.quotation t ∈ bs → ¬r.word <:+: t) ∧ Spared rs (r.inCells bs) := by
          rw [inCells_eq_iff hgrown, map_inCell_eq_iff h]
      _ ↔ as = bs ∧ Spared (r :: rs) bs := and_assoc

/-- The replacements keep to the outside of the quotations exactly if no quotation has their words. -/
theorem substitute_eq_iff (rs : List (Replacement quote)) {cells : List (Cell α)}
    (hformed : ∀ x ∈ cells, x.WellFormed quote) :
    substitute rs (flatten cells) = flatten (substituteCells rs cells) ↔ Spared rs cells := by
  have hsame : List.Forall₂ (Grown quote) cells cells := List.forall₂_same.mpr fun x _ => .same x
  rw [substitute_grown_eq_iff rs hsame hformed]
  exact and_iff_right rfl

/-- What is inserted has no word whose turn is still to come. -/
def InsertsSpared : List (Replacement quote) → List (Cell α) → Prop
  | [], _ => True
  | r :: rs, cells =>
    (r.word.map .char <:+: cells → ∀ r' ∈ rs, ¬r'.word <:+: r.value) ∧ InsertsSpared rs (r.inCells cells)

variable (r) in
theorem quotation_mem_replaceFrom {t : List α} : ∀ (cells : List (Cell α)) (skip : Nat),
    (∀ x ∈ cells.take skip, ∃ c, x = .char c) →
      (.quotation t ∈ replaceFrom (r.word.map .char) [.quotation r.value] skip cells ↔
        .quotation t ∈ cells ∨ (t = r.value ∧ r.word.map .char <:+: cells.drop skip))
  | [], skip, _ => by simpa using fun _ => r.word_ne
  | x :: cells, skip + 1, hskip => by
    obtain ⟨c, rfl⟩ := hskip x (by simp)
    rw [replaceFrom, quotation_mem_replaceFrom cells skip fun x hx => hskip x (by simp [hx])]
    simp
  | x :: cells, 0, _ => by
    by_cases hmatch : r.word.map .char <+: x :: cells
    · have hchars := Replacement.chars_of_match hmatch
      rw [replaceFrom_match hmatch, List.length_map, List.singleton_append, List.mem_cons,
        quotation_mem_replaceFrom cells _ hchars]
      obtain ⟨c, rfl⟩ := Replacement.char_of_match hmatch
      have hinfix : r.word.map .char <:+: Cell.char c :: cells := hmatch.isInfix
      simp only [Cell.quotation.injEq, List.drop_zero, hinfix, and_true, List.mem_cons, reduceCtorEq, false_or]
      tauto
    · rw [replaceFrom_pass hmatch, List.mem_cons, quotation_mem_replaceFrom cells 0 (by simp)]
      simp only [List.drop_zero, List.infix_cons_iff, hmatch, false_or, List.mem_cons]
      tauto

theorem quotation_mem_inCells {t : List α} {cells : List (Cell α)} :
    .quotation t ∈ r.inCells cells ↔ .quotation t ∈ cells ∨ (t = r.value ∧ r.word.map .char <:+: cells) :=
  quotation_mem_replaceFrom r cells 0 (by simp)

/-- The quotations are those that were there and those that were inserted. -/
theorem spared_iff (rs : List (Replacement quote)) (cells : List (Cell α)) :
    Spared rs cells ↔ (∀ r ∈ rs, ∀ t, Cell.quotation t ∈ cells → ¬r.word <:+: t) ∧ InsertsSpared rs cells := by
  induction rs generalizing cells with
  | nil => simp [Spared, InsertsSpared]
  | cons r rs ih =>
    rw [Spared, InsertsSpared, ih, List.forall_mem_cons]
    simp only [quotation_mem_inCells]
    constructor
    · rintro ⟨hfirst, hrest, hinserts⟩
      exact ⟨⟨hfirst, fun r' hr' t ht => hrest r' hr' t (.inl ht)⟩,
        fun hinfix r' hr' => hrest r' hr' r.value (.inr ⟨rfl, hinfix⟩), hinserts⟩
    · rintro ⟨⟨hfirst, hrest⟩, hinserted, hinserts⟩
      refine ⟨hfirst, fun r' hr' t ht => ?_, hinserts⟩
      rcases ht with ht | ⟨rfl, hinfix⟩
      · exact hrest r' hr' t ht
      · exact hinserted hinfix r' hr'

/-- Values that have none of the words can be inserted anywhere. -/
theorem insertsSpared_of_values (rs : List (Replacement quote)) (h : ∀ r ∈ rs, ∀ r' ∈ rs, ¬r'.word <:+: r.value)
    (cells : List (Cell α)) : InsertsSpared rs cells := by
  induction rs generalizing cells with
  | nil => trivial
  | cons r rs ih =>
    refine ⟨fun _ r' hr' => h r List.mem_cons_self r' (List.mem_cons_of_mem _ hr'), ih ?_ _⟩
    exact fun r hr r' hr' => h r (List.mem_cons_of_mem _ hr) r' (List.mem_cons_of_mem _ hr')

end Substitute

/-! ## Quotations that double their quotes -/

section Doubled

variable {quote : α → Bool} {word : List α}

theorem quoted_doubled {q : α} (hq : quote q = true) (content : List α) :
    Quoted quote (q :: (doubled q content ++ [q])) :=
  ⟨⟨q, doubled q content ++ [q], rfl, hq⟩, q :: doubled q content, q, rfl, hq⟩

theorem doubled_of_not_mem {q : α} {content : List α} (h : q ∉ content) : doubled q content = content := by
  induction content with
  | nil => rfl
  | cons c content ih =>
    rw [List.mem_cons, not_or] at h
    have hc : c ≠ q := fun heq => h.1 heq.symm
    have hstep : doubled q (c :: content) = c :: doubled q content := by simp [doubled, hc]
    rw [hstep, ih h.2]

theorem doubled_cons_self (q : α) (content : List α) : doubled q (q :: content) = q :: q :: doubled q content := by
  simp [doubled]

/-- Doubling does not change what is between the quotes. -/
theorem infix_doubled_iff {q : α} (hne : word ≠ []) (hword : q ∉ word) (content : List α) :
    word <:+: doubled q content ↔ word <:+: content := by
  by_cases hq : q ∈ content
  · obtain ⟨s, t, hcontent, hs⟩ := List.eq_append_cons_of_mem hq
    have hlength : t.length < content.length := by
      rw [hcontent, List.length_append, List.length_cons]
      omega
    have ih := infix_doubled_iff hne hword t
    have hempty : ¬word <:+: [] := fun hnil => hne (List.infix_nil.mp hnil)
    have hinner := infix_append_cons_iff hne hword [] (doubled q t)
    rw [List.nil_append] at hinner
    rw [hcontent, doubled_append, doubled_of_not_mem hs, doubled_cons_self, infix_append_cons_iff hne hword,
      infix_append_cons_iff hne hword, hinner, ih]
    simp [hempty]
  · rw [doubled_of_not_mem hq]
termination_by content.length

theorem infix_quoted_iff {q : α} (hne : word ≠ []) (hword : q ∉ word) (content : List α) :
    word <:+: q :: (doubled q content ++ [q]) ↔ word <:+: content := by
  have hempty : ¬word <:+: [] := fun hnil => hne (List.infix_nil.mp hnil)
  have hfirst := infix_append_cons_iff hne hword [] (doubled q content ++ [q])
  rw [List.nil_append] at hfirst
  rw [hfirst, infix_append_cons_iff hne hword, infix_doubled_iff hne hword]
  simp [hempty]

end Doubled

end Lib
