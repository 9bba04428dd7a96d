import PgDucklake.Lib.Lexemes

/-!
# Connection strings

A connection string is a list of settings `name=value` with blanks between them. A value is put between quotes or goes to
the next blank; in both forms a backslash stands for the character after it (`settings`). Two settings whose values are
printed as they are, without quotes, are read back exactly if the values have no blanks and no backslashes and the first
is not empty (`settings_pair_iff`).
-/

namespace Lib

/-- A value without quotes, and what follows it. -/
def readValue : List Char → List Char × List Char
  | [] => ([], [])
  | [c] => if c ∈ blanks ∨ c = '\\' then ([], []) else ([c], [])
  | c :: d :: text =>
    if c ∈ blanks then ([], d :: text)
    else if c = '\\' then (d :: (readValue text).1, (readValue text).2)
    else (c :: (readValue (d :: text)).1, (readValue (d :: text)).2)

/-- A value between quotes, after the opening one. -/
def readQuotedValue : List Char → Option (List Char × List Char)
  | [] => none
  | [c] => if c = '\'' then some ([], []) else none
  | c :: d :: text =>
    if c = '\'' then some ([], d :: text)
    else if c = '\\' then (readQuotedValue text).map fun (value, rest) => (d :: value, rest)
    else (readQuotedValue (d :: text)).map fun (value, rest) => (c :: value, rest)

def inName (c : Char) : Bool := c != '=' && c ∉ blanks

def skipBlanks (text : List Char) : List Char := text.dropWhile (· ∈ blanks)

def settingValue (text : List Char) : Option (List Char × List Char) :=
  if text.head? = some '\'' then readQuotedValue text.tail else some (readValue text)

def settingsFrom : Nat → List Char → Option (List (List Char × List Char))
  | 0, _ => none
  | n + 1, text =>
    if skipBlanks text = [] then some []
    else
      match skipBlanks ((skipBlanks text).dropWhile inName) with
      | [] => none
      | c :: rest =>
        if c ≠ '=' then none
        else
          (settingValue (skipBlanks rest)).bind fun (value, rest) =>
            (settingsFrom n rest).map (((skipBlanks text).takeWhile inName, value) :: ·)

/-- The settings of a connection string; `none` is an error. -/
def settings (text : List Char) : Option (List (List Char × List Char)) := settingsFrom (text.length + 1) text

/-! ## Values -/

def ordinary (c : Char) : Bool := c ∉ blanks && c != '\\'

theorem not_blank {c : Char} (hc : ordinary c = true) : c ∉ blanks := by
  simp only [ordinary, Bool.and_eq_true, decide_eq_true_eq] at hc
  exact hc.1

theorem skipBlanks_cons {c : Char} (hc : c ∉ blanks) (text : List Char) : skipBlanks (c :: text) = c :: text := by
  simp [skipBlanks, hc]

theorem readValue_cons {c : Char} (hc : ordinary c = true) (text : List Char) :
    readValue (c :: text) = (c :: (readValue text).1, (readValue text).2) := by
  simp only [ordinary, Bool.and_eq_true, decide_eq_true_eq, bne_iff_ne] at hc
  cases text with
  | nil => simp [readValue, hc.1, hc.2]
  | cons d text => simp [readValue, hc.1, hc.2]

theorem readValue_ordinary {text : List Char} (htext : ∀ c ∈ text, ordinary c = true) (rest : List Char) :
    readValue (text ++ rest) = (text ++ (readValue rest).1, (readValue rest).2) := by
  induction text with
  | nil => rfl
  | cons c text ih =>
    rw [List.cons_append, readValue_cons (htext c (List.mem_cons_self ..)),
      ih fun d hd => htext d (List.mem_cons_of_mem c hd)]
    rfl

theorem readValue_blank {c : Char} (hc : c ∈ blanks) (text : List Char) : readValue (c :: text) = ([], text) := by
  cases text with
  | nil => simp [readValue, hc]
  | cons d text => simp [readValue, hc]

theorem readValue_length_le : ∀ text : List Char, (readValue text).1.length ≤ text.length
  | [] => le_rfl
  | [c] => by
    simp only [readValue]
    split <;> simp
  | c :: d :: text => by
    have h := readValue_length_le text
    have h' := readValue_length_le (d :: text)
    simp only [readValue]
    split
    · simp
    · split <;> simp only [List.length_cons] at h' ⊢ <;> omega

/-- Up to the first ordinary character a value is not longer than the text: the character is in the value at its place or
before it, unless the value has ended. -/
theorem readValue_place {x : Char} (hx : ordinary x = true) (rest : List Char) : ∀ {text : List Char},
    (∀ c ∈ text, ordinary c = false) →
      (∃ a b, (readValue (text ++ x :: rest)).1 = a ++ x :: b ∧ a.length ≤ text.length) ∨
        (readValue (text ++ x :: rest)).1.length < text.length
  | [], _ => by
    rw [List.nil_append, readValue_cons hx]
    exact .inl ⟨[], _, rfl, le_rfl⟩
  | [c], htext => by
    by_cases hblank : c ∈ blanks
    · rw [List.singleton_append, readValue_blank hblank]
      exact .inr (by simp)
    · have hc : c = '\\' := by simpa [ordinary, hblank] using htext c (List.mem_cons_self ..)
      refine .inl ⟨[], (readValue rest).1, ?_, by simp⟩
      simp [readValue, hc, show '\\' ∉ blanks by decide]
  | c :: d :: text, htext => by
    have hc := htext c (List.mem_cons_self ..)
    by_cases hblank : c ∈ blanks
    · rw [List.cons_append, readValue_blank hblank]
      exact .inr (by simp)
    · have hc : c = '\\' := by simpa [ordinary, hblank] using hc
      have hvalue : (readValue (c :: d :: text ++ x :: rest)).1 = d :: (readValue (text ++ x :: rest)).1 := by
        simp [readValue, hc, show '\\' ∉ blanks by decide]
      rw [hvalue]
      rcases readValue_place hx rest fun e he => htext e (List.mem_cons_of_mem c (List.mem_cons_of_mem d he)) with
        ⟨a, b, hab, hlength⟩ | hlength
      · exact .inl ⟨d :: a, b, by rw [hab]; rfl, by simp only [List.length_cons]; omega⟩
      · exact .inr (by simp only [List.length_cons]; omega)

theorem exists_first {p : Char → Bool} {text : List Char} (h : ∃ c ∈ text, p c = true) :
    ∃ s x rest, text = s ++ x :: rest ∧ (∀ c ∈ s, p c = false) ∧ p x = true := by
  obtain ⟨x, hx⟩ := Option.isSome_iff_exists.mp (List.find?_isSome.mpr h)
  obtain ⟨hpx, s, rest, rfl, hs⟩ := List.find?_eq_some_iff_append.mp hx
  exact ⟨s, x, rest, rfl, by simpa using hs, hpx⟩

theorem readValue_behind {text tail s rest w start : List Char} {x : Char} (hsplit : text ++ tail = s ++ x :: rest)
    (hs : ∀ c ∈ s, ordinary c = false) (hx : ordinary x = true) (hstart : ∀ c ∈ start, ordinary c = false)
    (hshort : w.length + start.length < s.length) (hlong : s.length ≤ text.length + 1) :
    w ++ (readValue (start ++ x :: rest)).1 ≠ text := by
  intro htext
  rcases readValue_place hx rest hstart with ⟨a, b, hab, ha⟩ | hlength
  · have hplace : (s ++ x :: rest)[w.length + a.length]? = some x := by
      rw [← hsplit, ← htext, hab]
      simp
    rw [List.getElem?_append_left (by omega)] at hplace
    simp [hs x (List.mem_of_getElem? hplace)] at hx
  · have := congrArg List.length htext
    simp only [List.length_append] at this
    omega

section Tail

variable {x : Char} {rest : List Char}

theorem exists_split {c : Char} {text : List Char} (hc : ordinary c = false) (hx : ordinary x = true) :
    ∃ s y more, c :: text ++ ' ' :: x :: rest = c :: s ++ y :: more ∧ (∀ d ∈ c :: s, ordinary d = false) ∧
      ordinary y = true ∧ (c :: s).length ≤ (c :: text).length + 1 := by
  obtain ⟨s, y, more, hsplit, hs, hy⟩ := @exists_first ordinary
    (c :: text ++ ' ' :: x :: rest) ⟨x, by simp, hx⟩
  cases s with
  | nil =>
    simp only [List.nil_append, List.cons_append, List.cons.injEq] at hsplit
    rw [hsplit.1, hy] at hc
    cases hc
  | cons d s =>
    obtain rfl : c = d := by simpa using congrArg List.head? hsplit
    refine ⟨s, y, more, hsplit, hs, hy, ?_⟩
    by_contra hlong
    have hplace : (c :: s ++ y :: more)[(c :: text).length + 1]? = some x := by
      rw [← hsplit]
      simp
    rw [List.getElem?_append_left (by omega)] at hplace
    simp [hs x (List.mem_of_getElem? hplace)] at hx

theorem skipped_blank {c : Char} {text : List Char} (hc : c ∈ blanks) (hx : ordinary x = true) :
    (readValue (skipBlanks (c :: text ++ ' ' :: x :: rest))).1 ≠ c :: text := by
  obtain ⟨s, y, more, hsplit, hs, hy, hlong⟩ := @exists_split x rest c text (by simp [ordinary, hc]) hx
  have hy' := not_blank hy
  have hskip : skipBlanks (c :: s ++ y :: more) = skipBlanks s ++ y :: more := by
    simp only [skipBlanks, List.cons_append, List.dropWhile_cons, hc, decide_true, if_true, List.dropWhile_append,
      hy', decide_false, Bool.false_eq_true, if_false]
    split <;> simp_all
  rw [hsplit, hskip]
  have hsub : ∀ d ∈ skipBlanks s, ordinary d = false := fun d hd =>
    hs d (List.mem_cons_of_mem c ((List.dropWhile_suffix _).subset hd))
  refine @readValue_behind _ _ _ _ [] _ _ hsplit hs hy hsub ?_ hlong
  have : (skipBlanks s).length ≤ s.length := (List.dropWhile_suffix _).length_le
  simp only [List.length_nil, List.length_cons]
  omega

theorem escaped_backslash {text : List Char} (hx : ordinary x = true) :
    (readValue ('\\' :: text ++ ' ' :: x :: rest)).1 ≠ '\\' :: text := by
  obtain ⟨s, y, more, hsplit, hs, hy, hlong⟩ := @exists_split x rest '\\' text rfl hx
  have hbackslash : '\\' ∉ blanks := by decide
  rw [hsplit]
  cases s with
  | nil =>
    have hvalue : (readValue (['\\'] ++ y :: more)).1 = [] ++ (readValue ([] ++ y :: more)).1 := by
      rw [List.nil_append, List.nil_append, readValue_cons hy]
      simp [readValue, hbackslash]
    rw [hvalue]
    exact readValue_behind hsplit hs hy (by simp) (by simp) hlong
  | cons d s =>
    have hvalue : (readValue ('\\' :: d :: s ++ y :: more)).1 = [d] ++ (readValue (s ++ y :: more)).1 := by
      simp [readValue, hbackslash]
    rw [hvalue]
    refine readValue_behind hsplit hs hy ?_ ?_ hlong
    · intro e he
      exact hs e (List.mem_cons_of_mem _ (List.mem_cons_of_mem d he))
    · simp only [List.length_cons, List.length_nil]
      omega

theorem readValue_before {text : List Char} (hne : text ≠ []) (htext : ∀ c ∈ text, ordinary c = true) :
    readValue (skipBlanks (text ++ ' ' :: rest)) = (text, rest) := by
  have hblank : ' ' ∈ blanks := by decide
  cases text with
  | nil => exact absurd rfl hne
  | cons c text =>
    rw [List.cons_append, skipBlanks_cons (not_blank (htext c (List.mem_cons_self ..))), ← List.cons_append,
      readValue_ordinary htext, readValue_blank hblank, List.append_nil]

theorem readValue_iff {text : List Char} (hx : ordinary x = true) :
    (readValue (skipBlanks (text ++ ' ' :: x :: rest))).1 = text ↔ text ≠ [] ∧ ∀ c ∈ text, ordinary c = true := by
  have hblank : ' ' ∈ blanks := by decide
  constructor
  · intro hvalue
    by_contra hcon
    cases text with
    | nil =>
      simp [skipBlanks, hblank, not_blank hx, readValue_cons hx] at hvalue
    | cons e text =>
      have hspecial : ∃ c ∈ e :: text, (!ordinary c) = true := by
        by_contra hall
        push Not at hall
        exact hcon ⟨by simp, fun c hc => by simpa using hall c hc⟩
      obtain ⟨p, c, q, htext, hp, hc⟩ := exists_first hspecial
      simp only [Bool.not_eq_false', Bool.not_eq_true'] at hp hc
      rw [htext] at hvalue
      have hstart : p = [] ∧ c ∈ blanks ∨
          skipBlanks (p ++ c :: q ++ ' ' :: x :: rest) = p ++ (c :: q ++ ' ' :: x :: rest) := by
        cases p with
        | nil =>
          by_cases hcblank : c ∈ blanks
          · exact .inl ⟨rfl, hcblank⟩
          · exact .inr (skipBlanks_cons hcblank _)
        | cons d p => exact .inr (by simpa using skipBlanks_cons (not_blank (hp d (List.mem_cons_self ..))) _)
      rcases hstart with ⟨rfl, hcblank⟩ | hstart
      · exact skipped_blank hcblank hx hvalue
      · rw [hstart, readValue_ordinary hp, List.append_cancel_left_eq] at hvalue
        by_cases hcblank : c ∈ blanks
        · rw [List.cons_append, readValue_blank hcblank] at hvalue
          cases hvalue
        · obtain rfl : c = '\\' := by simpa [ordinary, hcblank] using hc
          exact escaped_backslash hx hvalue
  · rintro ⟨hne, htext⟩
    rw [readValue_before hne htext]

end Tail

/-! ## The last value -/

theorem ordinary_of_readValue : ∀ {text : List Char}, (readValue text).1.length = text.length →
    ∀ c ∈ text, ordinary c = true
  | [], _ => by simp
  | [c], h => by
    by_cases hc : c ∈ blanks ∨ c = '\\'
    · simp [readValue, hc] at h
    · simp only [not_or] at hc
      simp [ordinary, hc]
  | c :: d :: text, h => by
    have hrest := readValue_length_le text
    cases hc : ordinary c with
    | false =>
      simp only [readValue] at h
      split at h
      · simp at h
      · rename_i hblank
        have hc : c = '\\' := by simpa [ordinary, hblank] using hc
        rw [if_pos hc] at h
        simp only [List.length_cons] at h
        omega
    | true =>
      rw [readValue_cons hc] at h
      simp only [List.length_cons, Nat.add_right_cancel_iff] at h
      intro e he
      rcases List.mem_cons.mp he with rfl | he
      · exact hc
      · exact ordinary_of_readValue (by simpa using h) e he

theorem readValue_last {text : List Char} (htext : ∀ c ∈ text, ordinary c = true) :
    readValue (skipBlanks text) = (text, []) := by
  have hskip : skipBlanks text = text := by
    cases text with
    | nil => rfl
    | cons c text => exact skipBlanks_cons (not_blank (htext c (List.mem_cons_self ..))) text
  have hread := readValue_ordinary htext []
  rw [List.append_nil] at hread
  rw [hskip, hread]
  exact congrArg (·, []) (List.append_nil text)

theorem readValue_last_iff {text : List Char} :
    (readValue (skipBlanks text)).1 = text ↔ ∀ c ∈ text, ordinary c = true := by
  constructor
  · intro h
    have hlength := readValue_length_le (skipBlanks text)
    have hsuffix : skipBlanks text <:+ text := List.dropWhile_suffix _
    have hskip : skipBlanks text = text := by
      rw [h] at hlength
      exact hsuffix.eq_of_length_le hlength
    rw [hskip] at h
    exact ordinary_of_readValue (by rw [h])
  · intro htext
    rw [readValue_last htext]

/-! ## Two settings -/

section Pair

variable {name : List Char}

theorem ordinary_of_startsWord {c : Char} (hc : startsWord c = true) : ordinary c = true := by
  have hbackslash : c ≠ '\\' := by
    rintro rfl
    revert hc
    decide
  simp [ordinary, (startsWord_ne hc).1, hbackslash]

theorem inName_of_continuesWord {c : Char} (hc : continuesWord c = true) : inName c = true := by
  have hblanks : ∀ d ∈ blanks, continuesWord d = false := by
    simpa using show blanks.all (!continuesWord ·) = true by decide
  have hblank : c ∉ blanks := fun h => by simp [hblanks c h] at hc
  have hequals : c ≠ '=' := by
    rintro rfl
    revert hc
    decide
  simp [inName, hblank, hequals]

theorem settingsFrom_name (hname : plainWord name = true) (n : Nat) (text : List Char) :
    settingsFrom (n + 1) (name ++ '=' :: text) = (settingValue (skipBlanks text)).bind fun (value, rest) =>
      (settingsFrom n rest).map ((name, value) :: ·) := by
  cases name with
  | nil => cases hname
  | cons c name =>
    simp only [plainWord, Bool.and_eq_true] at hname
    have hall : ∀ d ∈ c :: name, inName d = true := by
      intro d hd
      rcases List.mem_cons.mp hd with rfl | hd
      · exact inName_of_continuesWord (by simp [continuesWord, hname.1])
      · exact inName_of_continuesWord (List.all_eq_true.mp hname.2 d hd)
    have hskip : skipBlanks (c :: name ++ '=' :: text) = c :: name ++ '=' :: text :=
      skipBlanks_cons (not_blank (ordinary_of_startsWord hname.1)) _
    have hequals : inName '=' = false := rfl
    have htake : (c :: name ++ '=' :: text).takeWhile inName = c :: name := by
      rw [List.takeWhile_append_of_pos hall, List.takeWhile_cons_of_neg (by simp [hequals]), List.append_nil]
    have hdrop : (c :: name ++ '=' :: text).dropWhile inName = '=' :: text := by
      rw [List.dropWhile_append_of_pos hall, List.dropWhile_cons_of_neg (by simp [hequals])]
    have hvalue : skipBlanks ('=' :: text) = '=' :: text := rfl
    have hne : c :: name ++ '=' :: text ≠ [] := by simp
    simp only [settingsFrom, hskip, htake, hdrop, hvalue, hne, if_false, ne_eq, not_true_eq_false]

theorem settingValue_of_not_mem {text : List Char} (h : (skipBlanks text).head? ≠ some '\'') :
    settingValue (skipBlanks text) = some (readValue (skipBlanks text)) := by
  simp [settingValue, h]

theorem skipBlanks_head_ne {text rest : List Char} {x : Char} (htext : '\'' ∉ text) (hx : ordinary x = true)
    (hquote : x ≠ '\'') : (skipBlanks (text ++ ' ' :: x :: rest)).head? ≠ some '\'' := by
  induction text with
  | nil =>
    have hblank : ' ' ∈ blanks := by decide
    simp [skipBlanks, hblank, not_blank hx, hquote]
  | cons c text ih =>
    simp only [List.mem_cons, not_or] at htext
    by_cases hc : c ∈ blanks
    · simpa [skipBlanks, hc] using ih htext.2
    · rw [List.cons_append, skipBlanks_cons hc]
      simpa using Ne.symm htext.1

end Pair

theorem settings_pair_iff {name next first last : List Char} (hname : plainWord name = true)
    (hnext : plainWord next = true) (hfirst : '\'' ∉ first) (hlast : '\'' ∉ last) :
    settings (name ++ '=' :: (first ++ ' ' :: (next ++ '=' :: last))) = some [(name, first), (next, last)] ↔
      (first ≠ [] ∧ ∀ c ∈ first, ordinary c = true) ∧ ∀ c ∈ last, ordinary c = true := by
  cases hw : next with
  | nil => simp [hw, plainWord] at hnext
  | cons x w =>
    have hx : startsWord x = true := by
      rw [hw] at hnext
      simp only [plainWord, Bool.and_eq_true] at hnext
      exact hnext.1
    have hvalue := settingValue_of_not_mem
      (@skipBlanks_head_ne first (w ++ '=' :: last) x hfirst (ordinary_of_startsWord hx) (startsWord_ne hx).2.2.2.2)
    have hend : settingValue (skipBlanks last) = some (readValue (skipBlanks last)) := by
      refine settingValue_of_not_mem fun h => hlast ?_
      exact (List.dropWhile_suffix _).subset (List.mem_of_mem_head? h)
    obtain ⟨n, hn⟩ : ∃ n, (name ++ '=' :: (first ++ ' ' :: (x :: w ++ '=' :: last))).length = n + 2 :=
      ⟨name.length + (first.length + (w.length + last.length + 1) + 1), by simp; omega⟩
    have hone : settings (name ++ '=' :: (first ++ ' ' :: (x :: w ++ '=' :: last))) =
        (settingsFrom (n + 2) (readValue (skipBlanks (first ++ ' ' :: (x :: w ++ '=' :: last)))).2).map
          ((name, (readValue (skipBlanks (first ++ ' ' :: (x :: w ++ '=' :: last)))).1) :: ·) := by
      rw [settings, hn, settingsFrom_name hname]
      rw [List.cons_append, hvalue]
      rfl
    have htwo : settingsFrom (n + 2) (x :: w ++ '=' :: last) =
        (settingsFrom (n + 1) (readValue (skipBlanks last)).2).map ((x :: w, (readValue (skipBlanks last)).1) :: ·) := by
      rw [settingsFrom_name (hw ▸ hnext), hend]
      rfl
    rw [hone]
    simp only [Option.map_eq_some_iff, List.cons.injEq, Prod.mk.injEq, true_and]
    constructor
    · rintro ⟨ls, hls, hread, rfl⟩
      obtain ⟨hne, hplain⟩ := (readValue_iff (ordinary_of_startsWord hx)).mp hread
      refine ⟨⟨hne, hplain⟩, ?_⟩
      rw [readValue_before hne hplain, htwo] at hls
      simp only [Option.map_eq_some_iff, List.cons.injEq, Prod.mk.injEq, true_and] at hls
      obtain ⟨ls, -, hread, -⟩ := hls
      exact readValue_last_iff.mp hread
    · rintro ⟨⟨hne, hplain⟩, hlastPlain⟩
      refine ⟨[(x :: w, last)], ?_, (readValue_iff (ordinary_of_startsWord hx)).mpr ⟨hne, hplain⟩, rfl⟩
      rw [readValue_before hne hplain, htwo, readValue_last hlastPlain]
      rfl

end Lib
