import PgDucklake.Lib.Spelling
import PgDucklake.Session.Secrets

/-!
# The texts of secrets

A secret is created with a text that holds the server's name as an identifier, its type and the option names as they are,
and the option values as literals (`makeCreateSecretQueryText`). It is dropped with a text that holds the name as it is
(`dropSecretText`). `create_exact_iff` and `drop_exact_iff` say when DuckDB reads the statement that is meant.
-/

namespace PgDucklake.Secrets

open Lib

abbrev Text := List Char

/-! ## The statements -/

/-- CREATE SECRET name (option value, …). The type is an option. -/
structure CreateSecret where
  name : Text
  items : List (Lexeme × Lexeme)
  deriving DecidableEq, Repr

def parseCreateSecret : List Lexeme → Option CreateSecret
  | create :: secret :: name :: .symbol c :: rest =>
    if keyword "create" create && keyword "secret" secret && c == '(' then
      (nameOf name).bind fun name => (readItems rest).map fun items => ⟨name, items⟩
    else none
  | _ => none

/-- DROP SECRET name. -/
def parseDropSecret : List Lexeme → Option Text
  | drop :: secret :: name :: rest =>
    if keyword "drop" drop && keyword "secret" secret && atEnd rest then nameOf name else none
  | _ => none

/-! ## The texts -/

def secretStart : Text := "pgducklake_secret_".toList

/-- Option names are printed as they are. -/
def appendOptions (options : List (Text × Text)) : Text :=
  options.flatMap fun o => ", ".toList ++ o.1 ++ " ".toList ++ quoteLiteral o.2

/-- `MakeCreateSecretQuery`; `spelling` is DuckDB's `WriteOptionallyQuoted`. -/
def makeCreateSecretQueryText (spelling : Spelling) (serverName type : Text) (options : List (Text × Text)) : Text :=
  "CREATE SECRET ".toList ++ spelling.write (secretStart ++ serverName) ++ " (".toList ++ "TYPE ".toList ++ type ++
    appendOptions options ++ ")".toList

/-- The text that `DropSecrets` runs for a secret. -/
def dropSecretText (name : Text) : Text := "DROP SECRET ".toList ++ name ++ ";".toList

/-- The type and the options as they are meant: words, and strings. -/
def secretItems (type : Text) (options : List (Text × Text)) : List (Lexeme × Lexeme) :=
  (.word "TYPE".toList, .word type) :: options.map fun o => (.word o.1, .literal o.2)

/-! ## CREATE SECRET -/

theorem stops_appendOptions (options : List (Text × Text)) : Stops (appendOptions options ++ ")".toList) := by
  have hcomma : ", ".toList = [',', ' '] := by decide
  have hclose : ")".toList = [')'] := by decide
  cases options with
  | nil =>
    rw [hclose]
    exact stops_cons (by decide) _
  | cons o options =>
    unfold appendOptions
    simp only [List.flatMap_cons, hcomma, List.cons_append]
    exact stops_cons (by decide) _

theorem appendOptions_iff {name value : Lexeme} (hname : (nameOf name).isSome = true) (hvalue : isValue value = true)
    (options : List (Text × Text)) :
    (lex (appendOptions options ++ ")".toList)).bind (fun ls => readItems (name :: value :: ls)) =
        some ((name, value) :: options.map fun o => (.word o.1, .literal o.2)) ↔
      ∀ o ∈ options, plainWord o.1 = true := by
  induction options generalizing name value with
  | nil =>
    have hclose : lex ([] ++ ")".toList) = some [.symbol ')'] := by decide
    have hread : readItems [name, value, .symbol ')'] = some [(name, value)] := readItems_close hname hvalue rfl
    unfold appendOptions
    simp only [List.flatMap_nil, hclose, Option.bind_some, hread, List.map_nil, List.not_mem_nil, false_implies,
      implies_true]
  | cons o options ih =>
    have htext : appendOptions (o :: options) ++ ")".toList =
        [','] ++ (' ' :: (o.1 ++ (' ' :: (quoteLiteral o.2 ++ (appendOptions options ++ ")".toList))))) := by
      have hcomma : ", ".toList = [',', ' '] := by decide
      have hblank : " ".toList = [' '] := by decide
      unfold appendOptions
      simp only [List.flatMap_cons, hcomma, hblank, List.append_assoc, List.cons_append, List.nil_append]
    have hcomma : Reads [','] [.symbol ','] := reads_of_lex (by decide) (by decide)
    rw [htext, hcomma.bind (stops_cons (by decide) _), lex_blank]
    simp only [List.singleton_append, readItems_comma hname hvalue, List.map_cons]
    rw [bind_map_cons_iff, lex_word_bind_iff (stops_cons (by decide) _), lex_blank,
      (reads_quoteLiteral o.2).bind (stops_appendOptions options)]
    · simp only [List.singleton_append, List.forall_mem_cons]
      rw [ih rfl rfl]
    · intro ls h
      obtain ⟨rest, rfl⟩ := readItems_cons h
      exact ⟨_, rfl⟩

theorem reads_create : Reads "CREATE SECRET".toList [.word "CREATE".toList, .word "SECRET".toList] :=
  reads_of_lex (by decide) (by decide)

theorem reads_type : Reads " (TYPE".toList [.symbol '(', .word "TYPE".toList] := reads_of_lex (by decide) (by decide)

theorem makeCreateSecretQueryText_eq (spelling : Spelling) (serverName type : Text) (options : List (Text × Text)) :
    makeCreateSecretQueryText spelling serverName type options =
      "CREATE SECRET".toList ++ (' ' :: (spelling.write (secretStart ++ serverName) ++
        (" (TYPE".toList ++ (' ' :: (type ++ (appendOptions options ++ ")".toList)))))) := by
  have hcreate : "CREATE SECRET ".toList = "CREATE SECRET".toList ++ [' '] := by decide
  have htype : " (".toList ++ "TYPE ".toList = " (TYPE".toList ++ [' '] := by decide
  unfold makeCreateSecretQueryText
  rw [hcreate, List.append_assoc _ " (".toList, htype]
  simp only [List.append_assoc, List.cons_append, List.nil_append]

theorem secretStart_ne_nil (serverName : Text) : secretStart ++ serverName ≠ [] := by
  have hstart : secretStart = 'p' :: "gducklake_secret_".toList := by decide
  rw [hstart]
  exact List.cons_ne_nil _ _

theorem map_items_iff {x : Option (List Lexeme)} {name : Text} {items : List (Lexeme × Lexeme)} :
    (x.bind fun ls => (readItems (.word "TYPE".toList :: ls)).map fun items => (⟨name, items⟩ : CreateSecret)) =
      some ⟨name, items⟩ ↔ (x.bind fun ls => readItems (.word "TYPE".toList :: ls)) = some items := by
  simp only [Option.bind_eq_some_iff, Option.map_eq_some_iff, CreateSecret.mk.injEq, true_and, exists_eq_right]

theorem parse_create (spelling : Spelling) (serverName type : Text) (options : List (Text × Text)) :
    (lex (makeCreateSecretQueryText spelling serverName type options)).bind parseCreateSecret =
      (lex (type ++ (appendOptions options ++ ")".toList))).bind fun ls =>
        (readItems (.word "TYPE".toList :: ls)).map fun items => ⟨secretStart ++ serverName, items⟩ := by
  obtain ⟨l, hl, hreads⟩ := spelling.reads _ (secretStart_ne_nil serverName)
  have hparse : ∀ ls, parseCreateSecret ([.word "CREATE".toList, .word "SECRET".toList] ++
      ([l] ++ ([.symbol '(', .word "TYPE".toList] ++ ls))) =
        (readItems (.word "TYPE".toList :: ls)).map fun items => ⟨secretStart ++ serverName, items⟩ := by
    intro ls
    simp only [parseCreateSecret, List.cons_append, List.nil_append, hl, Option.bind_some]
    rfl
  have hstops : Stops (" (TYPE".toList ++ (' ' :: (type ++ (appendOptions options ++ ")".toList)))) := by
    have hopen : " (TYPE".toList = ' ' :: "(TYPE".toList := by decide
    rw [hopen]
    exact stops_cons (by decide) _
  rw [makeCreateSecretQueryText_eq, reads_create.bind (stops_cons (by decide) _), lex_blank, hreads.bind hstops,
    reads_type.bind (stops_cons (by decide) _), lex_blank]
  simp only [hparse]

/-- The text is one CREATE SECRET statement with the name, the type and the options, exactly if the type and the option
names are plain words. -/
theorem create_exact_iff (spelling : Spelling) (serverName type : Text) (options : List (Text × Text)) :
    (lex (makeCreateSecretQueryText spelling serverName type options)).bind parseCreateSecret =
        some ⟨secretStart ++ serverName, secretItems type options⟩ ↔
      plainWord type = true ∧ ∀ o ∈ options, plainWord o.1 = true := by
  rw [parse_create, map_items_iff, lex_word_bind_iff (stops_appendOptions options)]
  · exact and_congr_right' (appendOptions_iff rfl rfl options)
  · intro ls h
    obtain ⟨rest, hrest⟩ := readItems_cons h
    cases hrest
    exact ⟨_, rfl⟩

/-! ## DROP SECRET -/

theorem reads_drop : Reads "DROP SECRET".toList [.word "DROP".toList, .word "SECRET".toList] :=
  reads_of_lex (by decide) (by decide)

theorem lex_starts {c : Char} {text : Text} {ls : List Lexeme} (hc : startsWord c = true) (he : c ≠ 'e' ∧ c ≠ 'E')
    (h : lex (c :: text) = some ls) : ∃ w ms, ls = .word w :: ms := by
  obtain ⟨hblank, hline, hopen, hname, hliteral⟩ := startsWord_ne hc
  have hnext : nextLexeme (c :: text) =
      some (some (.word (c :: text.takeWhile continuesWord)), text.dropWhile continuesWord) := by
    simp [nextLexeme, hblank, hline, hopen, hname, hliteral, hc, he]
  rw [lex_cons, hnext] at h
  simp only [Option.bind_some, Option.map_eq_some_iff] at h
  obtain ⟨ms, -, rfl⟩ := h
  exact ⟨_, ms, rfl⟩

theorem dropSecretText_eq (name : Text) : dropSecretText name = "DROP SECRET".toList ++ (' ' :: (name ++ [';'])) := by
  have hdrop : "DROP SECRET ".toList = "DROP SECRET".toList ++ [' '] := by decide
  have hend : ";".toList = [';'] := by decide
  unfold dropSecretText
  simp only [hdrop, hend, List.append_assoc, List.cons_append, List.nil_append]

theorem plainWord_of_drop {c : Char} {text name : Text} (hc : startsWord c = true) (he : c ≠ 'e' ∧ c ≠ 'E')
    (h : (lex (dropSecretText (c :: text))).bind parseDropSecret = some name) : plainWord name = true := by
  rw [dropSecretText_eq, reads_drop.bind (stops_cons (by decide) _), lex_blank, List.cons_append] at h
  simp only [Option.bind_eq_some_iff] at h
  obtain ⟨ls, hls, h⟩ := h
  obtain ⟨w, ms, rfl⟩ := lex_starts hc he hls
  have hname : name = w := by
    simp only [parseDropSecret, List.cons_append, List.nil_append, nameOf] at h
    split at h
    · exact (Option.some.inj h).symm
    · cases h
  rw [hname]
  exact plainWord_of_mem_lex hls (List.mem_cons_self ..)

theorem parse_drop_of_plainWord {name : Text} (h : plainWord name = true) :
    (lex (dropSecretText name)).bind parseDropSecret = some name := by
  have hend : lex [';'] = some [.symbol ';'] := by decide
  rw [dropSecretText_eq, reads_drop.bind (stops_cons (by decide) _), lex_blank,
    (reads_word h).bind (stops_cons (by decide) _), hend]
  rfl

theorem drop_exact_iff {c : Char} {text : Text} (hc : startsWord c = true) (he : c ≠ 'e' ∧ c ≠ 'E') :
    (lex (dropSecretText (c :: text))).bind parseDropSecret = some (c :: text) ↔ plainWord (c :: text) = true :=
  ⟨plainWord_of_drop hc he, parse_drop_of_plainWord⟩

end PgDucklake.Secrets
