import PgDucklake.Fdw.Aliases
import PgDucklake.Lib.Settings
import PgDucklake.Lib.Spelling

/-!
# The text of ATTACH

`buildAttachQuery` puts the options of a server, the user and the alias between quotes as they are. DuckDB reads the text
as `parseAttach` does, and the connection string that is made of a database and a user name is read once more, by libpq
(`settings`). `attach_exact_iff` says for which names and options both readings give back what was meant; a quote in an
option gives another statement (`quote_in_option`).
-/

namespace PgDucklake.Fdw

open Lib

/-! ## The statement -/

/-- ATTACH path AS alias, with options. -/
structure Attach where
  ifNotExists : Bool
  path : Text
  dbAlias : Text
  options : List (Lexeme × Lexeme)
  deriving DecidableEq, Repr

def readRest (lexemes : List Lexeme) : Option (List (Lexeme × Lexeme)) :=
  if atEnd lexemes then some []
  else
    match lexemes with
    | .symbol c :: rest => if c = '(' then readItems rest else none
    | _ => none

def readAliased : List Lexeme → Option (Text × List (Lexeme × Lexeme))
  | as :: name :: rest =>
    if keyword "as" as then (nameOf name).bind fun dbAlias => (readRest rest).map (dbAlias, ·) else none
  | _ => none

def readPath : List Lexeme → Option (Text × Text × List (Lexeme × Lexeme))
  | .literal path :: rest => (readAliased rest).map (path, ·)
  | _ => none

/-- The keywords before the path, and whether they hold IF NOT EXISTS. -/
def readHead : List Lexeme → Option (Bool × List Lexeme)
  | [] => none
  | attach :: rest =>
    if !keyword "attach" attach then none
    else
      match rest with
      | a :: b :: c :: rest =>
        if keyword "if" a && keyword "not" b && keyword "exists" c then some (true, rest)
        else some (false, a :: b :: c :: rest)
      | rest => some (false, rest)

/-- The whole text is one ATTACH statement with an alias. -/
def parseAttach (lexemes : List Lexeme) : Option Attach :=
  (readHead lexemes).bind fun (ifNotExists, rest) =>
    (readPath rest).map fun (path, dbAlias, options) => ⟨ifNotExists, path, dbAlias, options⟩

def Target.options (target : Target) : List (Lexeme × Lexeme) :=
  match target.metadataSchema with
  | none => []
  | some schema =>
    [(.word "TYPE".toList, .word "DUCKLAKE".toList), (.word "METADATA_SCHEMA".toList, .literal schema)]

/-- What the statement should be. -/
def Target.statement (target : Target) (dbAlias : Text) (ifNotExists : Bool) : Attach :=
  ⟨ifNotExists, target.path, dbAlias, target.options⟩

/-! ## Piece by piece -/

/-- What stands after the alias. -/
def schemaText : Option Text → Text
  | none => []
  | some schema => " (TYPE DUCKLAKE, METADATA_SCHEMA '".toList ++ schema ++ "')".toList

theorem reads_options : Reads " (TYPE DUCKLAKE, METADATA_SCHEMA".toList
    [.symbol '(', .word "TYPE".toList, .word "DUCKLAKE".toList, .symbol ',', .word "METADATA_SCHEMA".toList] :=
  reads_of_lex (by decide) (by decide)

theorem reads_as : Reads " AS".toList [.word "AS".toList] := reads_of_lex (by decide) (by decide)

theorem reads_attach (ifNotExists : Bool) :
    Reads ("ATTACH".toList ++ if ifNotExists then " IF NOT EXISTS".toList else [])
      (.word "ATTACH".toList ::
        if ifNotExists then [.word "IF".toList, .word "NOT".toList, .word "EXISTS".toList] else []) := by
  cases ifNotExists
  · exact reads_of_lex (by decide) (by decide)
  · exact reads_of_lex (by decide) (by decide)

theorem rest_iff (schema : Option Text) (path : Text) :
    (lex (schemaText schema)).bind readRest = some (Target.options ⟨path, schema⟩) ↔
      ∀ name, schema = some name → '\'' ∉ name := by
  cases schema with
  | none => exact iff_of_true rfl (by simp)
  | some schema =>
    have htext : schemaText (some schema) =
        " (TYPE DUCKLAKE, METADATA_SCHEMA".toList ++ (' ' :: '\'' :: (schema ++ '\'' :: [')'])) := by
      have hopen : " (TYPE DUCKLAKE, METADATA_SCHEMA '".toList =
          " (TYPE DUCKLAKE, METADATA_SCHEMA".toList ++ [' ', '\''] := by decide
      have hclose : "')".toList = ['\'', ')'] := by decide
      unfold schemaText
      simp only [hopen, hclose, List.append_assoc, List.cons_append, List.nil_append]
    rw [htext, reads_options.bind (stops_cons (by decide) _), lex_blank, lex_literal_bind_iff (by simp)]
    · have hend : lex [')'] = some [.symbol ')'] := rfl
      rw [hend]
      simp only [Option.some.injEq, forall_eq', and_iff_left_iff_imp]
      intro _
      rfl
    · intro body ls h
      have hlater : (readItems (.word "METADATA_SCHEMA".toList :: .literal body :: ls)).map
          ((.word "TYPE".toList, .word "DUCKLAKE".toList) :: ·) =
            some [(.word "TYPE".toList, .word "DUCKLAKE".toList),
              (.word "METADATA_SCHEMA".toList, .literal schema)] := h
      simp only [Option.map_eq_some_iff, List.cons.injEq, true_and] at hlater
      obtain ⟨items, hitems, rfl⟩ := hlater
      obtain ⟨rest, hrest⟩ := readItems_cons hitems
      simp only [List.cons.injEq, Lexeme.literal.injEq] at hrest
      exact hrest.2.1

theorem aliased_iff {tail dbAlias : Text} (htail : tail.head? ≠ some '"') (options : List (Lexeme × Lexeme)) :
    (lex (" AS".toList ++ (' ' :: '"' :: (dbAlias ++ '"' :: tail)))).bind readAliased = some (dbAlias, options) ↔
      ('"' ∉ dbAlias ∧ dbAlias ≠ []) ∧ (lex tail).bind readRest = some options := by
  have hread : ∀ name ls, readAliased ([.word "AS".toList] ++ .quoted name :: ls) = (readRest ls).map (name, ·) :=
    fun name ls => rfl
  rw [reads_as.bind (stops_cons (by decide) _), lex_blank, lex_quoted_bind_iff htail]
  · simp only [hread, Option.bind_eq_some_iff, Option.map_eq_some_iff, Prod.mk.injEq, true_and, exists_eq_right]
  · intro name ls h
    rw [hread] at h
    simp only [Option.map_eq_some_iff, Prod.mk.injEq] at h
    obtain ⟨_, -, rfl, -⟩ := h
    rfl

theorem path_iff {rest path dbAlias : Text} (hrest : rest.head? ≠ some '\'') (options : List (Lexeme × Lexeme)) :
    (lex ('\'' :: (path ++ '\'' :: rest))).bind readPath = some (path, dbAlias, options) ↔
      '\'' ∉ path ∧ (lex rest).bind readAliased = some (dbAlias, options) := by
  have hread : ∀ body ls, readPath (.literal body :: ls) = (readAliased ls).map (body, ·) := fun body ls => rfl
  rw [lex_literal_bind_iff hrest]
  · simp only [hread, Option.bind_eq_some_iff, Option.map_eq_some_iff, Prod.mk.injEq, true_and, exists_eq_right]
  · intro body ls h
    rw [hread] at h
    simp only [Option.map_eq_some_iff, Prod.mk.injEq] at h
    obtain ⟨_, -, rfl, -⟩ := h
    rfl

theorem parseAttach_head (ifNotExists : Bool) (text : Text) :
    ((lex ('\'' :: text)).bind fun ls => parseAttach ((.word "ATTACH".toList ::
        if ifNotExists then [.word "IF".toList, .word "NOT".toList, .word "EXISTS".toList] else []) ++ ls)) =
      ((lex ('\'' :: text)).bind readPath).map fun (path, dbAlias, options) =>
        ⟨ifNotExists, path, dbAlias, options⟩ := by
  have hhead : ∀ body ls, readHead ((.word "ATTACH".toList ::
      if ifNotExists then [.word "IF".toList, .word "NOT".toList, .word "EXISTS".toList] else []) ++
        .literal body :: ls) = some (ifNotExists, .literal body :: ls) := by
    intro body ls
    cases ifNotExists with
    | true => rfl
    | false =>
      match ls with
      | [] => rfl
      | [_] => rfl
      | _ :: _ :: _ => rfl
  rw [lex_literal]
  cases readQuoted '\'' text with
  | none => rfl
  | some p =>
    simp only [Option.bind_some]
    cases lex p.2 with
    | none => rfl
    | some ls =>
      simp only [Option.map_some, Option.bind_some, parseAttach, hhead]

theorem attachText_eq (ifNotExists : Bool) (target : Target) (dbAlias : Text) :
    attachText ifNotExists target dbAlias =
      ("ATTACH".toList ++ if ifNotExists then " IF NOT EXISTS".toList else []) ++
        (' ' :: '\'' :: (target.path ++ '\'' ::
          (" AS".toList ++ (' ' :: '"' :: (dbAlias ++ '"' :: schemaText target.metadataSchema))))) := by
  have hquote : " '".toList = [' ', '\''] := by decide
  have has : "' AS \"".toList = '\'' :: (" AS".toList ++ [' ', '"']) := by decide
  have hdelimiter : "\"".toList = ['"'] := by decide
  unfold attachText schemaText
  cases target.metadataSchema <;>
    simp only [hquote, has, hdelimiter, List.append_assoc, List.cons_append, List.nil_append]

theorem attachText_iff (ifNotExists : Bool) (target : Target) (dbAlias : Text) :
    (lex (attachText ifNotExists target dbAlias)).bind parseAttach = some (target.statement dbAlias ifNotExists) ↔
      '\'' ∉ target.path ∧ ('"' ∉ dbAlias ∧ dbAlias ≠ []) ∧
        ∀ schema, target.metadataSchema = some schema → '\'' ∉ schema := by
  have hschema : (schemaText target.metadataSchema).head? ≠ some '"' := by
    cases target.metadataSchema with
    | none => nofun
    | some schema =>
      have hhead : " (TYPE DUCKLAKE, METADATA_SCHEMA '".toList = ' ' :: "(TYPE DUCKLAKE, METADATA_SCHEMA '".toList := by
        decide
      unfold schemaText
      simp only [hhead, List.cons_append, List.head?_cons]
      decide
  have hpath : (" AS".toList ++ (' ' :: '"' :: (dbAlias ++ '"' :: schemaText target.metadataSchema))).head? ≠
      some '\'' := by
    have has : " AS".toList = ' ' :: "AS".toList := by decide
    simp only [has, List.cons_append, List.head?_cons]
    decide
  rw [attachText_eq, (reads_attach ifNotExists).bind (stops_cons (by decide) _), lex_blank, parseAttach_head]
  have hstatement : ∀ r : Option (Text × Text × List (Lexeme × Lexeme)),
      (r.map fun (path, dbAlias, options) => (⟨ifNotExists, path, dbAlias, options⟩ : Attach)) =
        some (target.statement dbAlias ifNotExists) ↔ r = some (target.path, dbAlias, target.options) := by
    intro r
    cases r with
    | none => simp
    | some r => simp [Target.statement, Prod.ext_iff]
  rw [hstatement, path_iff hpath, aliased_iff hschema, rest_iff target.metadataSchema target.path]

/-! ## The connection -/

/-- libpq connects to the database as the user. -/
def Connects (dbname user : Text) : Prop :=
  settings (connectionString dbname user) = some [("dbname".toList, dbname), ("user".toList, user)]

/-- A name that stands for itself in a connection string between quotes. -/
def Plain (name : Text) : Prop := ∀ c ∈ name, c ≠ '\'' ∧ ordinary c = true

theorem plain_iff (name : Text) : Plain name ↔ '\'' ∉ name ∧ ∀ c ∈ name, ordinary c = true := by
  unfold Plain
  constructor
  · intro h
    exact ⟨fun hmem => (h _ hmem).1 rfl, fun c hc => (h c hc).2⟩
  · rintro ⟨hquote, hordinary⟩ c hc
    exact ⟨fun h => hquote (h ▸ hc), hordinary c hc⟩

theorem connects_iff (dbname user : Text) :
    ('\'' ∉ "postgres:".toList ++ connectionString dbname user ∧ Connects dbname user) ↔
      (dbname ≠ [] ∧ Plain dbname) ∧ Plain user := by
  have hdbname : "dbname=".toList = "dbname".toList ++ ['='] := by decide
  have huser : " user=".toList = ' ' :: ("user".toList ++ ['=']) := by decide
  have htext : connectionString dbname user =
      "dbname".toList ++ '=' :: (dbname ++ ' ' :: ("user".toList ++ '=' :: user)) := by
    unfold connectionString
    simp only [hdbname, huser, List.append_assoc, List.cons_append, List.nil_append]
  have hquotes : '\'' ∉ "postgres:".toList ++ connectionString dbname user ↔ '\'' ∉ dbname ∧ '\'' ∉ user := by
    have hpostgres : '\'' ∉ "postgres:".toList := by decide
    have hname : '\'' ∉ "dbname=".toList := by decide
    have hsecond : '\'' ∉ " user=".toList := by decide
    unfold connectionString
    simp only [List.mem_append, hpostgres, hname, hsecond, false_or, or_false, not_or]
  rw [hquotes, plain_iff, plain_iff, Connects, htext]
  constructor
  · rintro ⟨⟨hd, hu⟩, hread⟩
    obtain ⟨⟨hne, hdplain⟩, huplain⟩ := (settings_pair_iff (by decide) (by decide) hd hu).mp hread
    exact ⟨⟨hne, hd, hdplain⟩, hu, huplain⟩
  · rintro ⟨⟨hne, hd, hdplain⟩, hu, huplain⟩
    exact ⟨⟨hd, hu⟩, (settings_pair_iff (by decide) (by decide) hd hu).mpr ⟨⟨hne, hdplain⟩, huplain⟩⟩

/-! ## Servers -/

namespace Use

variable (u : Use)

/-- The text for the use is one ATTACH statement, of the server's database under the alias, and a connection string that
is made of two names is read as these. -/
def Attaches (dbAlias : Text) (ifNotExists : Bool) : Prop :=
  (lex (u.server.buildAttachQuery u.role dbAlias ifNotExists)).bind parseAttach =
      some (u.target.statement dbAlias ifNotExists) ∧
    ∀ dbname, u.place = .database dbname → Connects dbname u.role.user

/-- The names and options that can stand in the text. -/
def Printable : Prop :=
  match u.place with
  | .frozen url => '\'' ∉ url
  | .connection connstr => '\'' ∉ connstr ∧ '\'' ∉ u.schema
  | .database dbname => ((dbname ≠ [] ∧ Plain dbname) ∧ Plain u.role.user) ∧ '\'' ∉ u.schema

end Use

/-- The text for a server, a role and an alias is the statement that is meant exactly if no option that stands between
quotes has a quote, the alias has no double quote, and a database or user name in the connection string has neither
blanks nor backslashes. -/
theorem attach_exact_iff (u : Use) (dbAlias : Text) (ifNotExists : Bool) :
    u.Attaches dbAlias ifNotExists ↔ u.Printable ∧ '"' ∉ dbAlias ∧ dbAlias ≠ [] := by
  unfold Use.Attaches Use.Printable
  rw [buildAttachQuery_eq]
  change (lex (attachText ifNotExists u.target dbAlias)).bind parseAttach = _ ∧ _ ↔ _
  rw [attachText_iff, target_eq]
  unfold Place.target
  cases u.place with
  | frozen url =>
    have hscheme : '\'' ∉ "ducklake:".toList := by decide
    simp only [List.mem_append, hscheme, false_or, reduceCtorEq, false_implies, implies_true, and_true]
  | connection connstr =>
    have hscheme : '\'' ∉ "postgres:".toList := by decide
    simp only [List.mem_append, hscheme, false_or, Option.some.injEq, forall_eq', reduceCtorEq, false_implies,
      implies_true, and_true]
    tauto
  | database dbname =>
    simp only [Option.some.injEq, forall_eq', Place.database.injEq]
    rw [← connects_iff]
    tauto

/-! ## A quote in an option -/

/-- A server with a schema name that ends the literal, and the statement, and brings one of its own. -/
def injecting : Use :=
  ⟨⟨"lake".toList, [("dbname".toList, "d".toList), ("metadata_schema".toList, "x'); DROP TABLE t; --".toList)]⟩,
    ⟨"d".toList, "joe".toList⟩, true⟩

/-- The validator accepts the server; the text holds more than the statement. -/
theorem quote_in_option :
    ducklakeFdwValidator injecting.server.options = .ok () ∧
      lex (injecting.server.buildAttachQuery injecting.role injecting.dbAlias true) =
        some ([.word "ATTACH".toList, .word "IF".toList, .word "NOT".toList, .word "EXISTS".toList,
          .literal "postgres:dbname=d user=joe".toList, .word "AS".toList, .quoted "fdw_db_d".toList, .symbol '(',
          .word "TYPE".toList, .word "DUCKLAKE".toList, .symbol ',', .word "METADATA_SCHEMA".toList,
          .literal "x".toList, .symbol ')', .symbol ';'] ++
            [.word "DROP".toList, .word "TABLE".toList, .word "t".toList, .symbol ';']) ∧
      (lex (injecting.server.buildAttachQuery injecting.role injecting.dbAlias true)).bind parseAttach = none := by
  refine ⟨by decide, by decide +kernel, by decide +kernel⟩

end PgDucklake.Fdw
