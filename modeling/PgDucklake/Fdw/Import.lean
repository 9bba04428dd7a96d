import Mathlib.Data.List.Forall2
import PgDucklake.Fdw.Servers
import PgDucklake.Lib.Identifiers
import Mathlib.Algebra.Order.Ring.Int

/-!
# IMPORT FOREIGN SCHEMA

The tables of a remote schema are listed by a query to DuckDB, each one that the clause selects is prepared once for its
columns, and a CREATE FOREIGN TABLE command is written for it, which PostgreSQL reads. `Engine` is DuckDB as far as it is
known: it answers the queries that are meant. `import_exact_iff` says for which names the commands are those that were
asked for; the schema of the listing query, for one, is written as an identifier but stands in a literal
(`quoted_schema_not_imported`).
-/

namespace PgDucklake.Fdw

open Lib

/-! ## Names -/

def bytes (text : Text) : Nat := (text.map Char.utf8Size).sum

/-- `truncate_identifier`: whole characters within the limit. -/
def clip : (limit : Nat) → Text → Text
  | _, [] => []
  | limit, c :: text => if c.utf8Size ≤ limit then c :: clip (limit - c.utf8Size) text else []

/-- `NAMEDATALEN`, without the end of the string. -/
def nameLimit : Nat := 63

/-- A name in PostgreSQL's catalog. -/
structure PgName where
  text : Text
  ne : text ≠ []
  short : bytes text ≤ nameLimit

theorem length_clip_le : ∀ (limit : Nat) (text : Text), (clip limit text).length ≤ text.length
  | _, [] => Nat.le_refl _
  | limit, c :: text => by
    rw [clip]
    split_ifs
    · exact Nat.succ_le_succ (length_clip_le _ text)
    · exact Nat.zero_le _

theorem clip_eq_self_iff : ∀ (limit : Nat) (text : Text), clip limit text = text ↔ bytes text ≤ limit
  | _, [] => by simp [clip, bytes]
  | limit, c :: text => by
    have ih := clip_eq_self_iff (limit - c.utf8Size) text
    have hbytes : bytes (c :: text) = c.utf8Size + bytes text := by simp [bytes]
    rw [clip, hbytes]
    split_ifs with hc
    · rw [List.cons.injEq, ih]
      simp only [true_and]
      omega
    · exact iff_of_false not_false (by omega)

theorem cString_of_clip {tname : Text} (h : clip nameLimit (cString tname) = tname) : cString tname = tname := by
  have hlength := length_clip_le nameLimit (cString tname)
  rw [h] at hlength
  exact (List.takeWhile_prefix _).eq_of_length_le hlength

theorem clip_cString_eq_iff (text : Text) :
    clip nameLimit (cString text) = text ↔ Char.ofNat 0 ∉ text ∧ bytes text ≤ nameLimit := by
  rw [← cString_eq_self_iff, ← clip_eq_self_iff]
  constructor
  · intro h
    have hwhole := cString_of_clip h
    rw [hwhole] at h
    exact ⟨hwhole, h⟩
  · rintro ⟨hwhole, hclip⟩
    rw [hwhole, hclip]

/-! ## Reading lexemes -/

/-- What comes after the given lexemes. -/
def expecting (head ls : List Lexeme) : Option (List Lexeme) :=
  if head <+: ls then some (ls.drop head.length) else none

@[simp] theorem expecting_append (head ls : List Lexeme) : expecting head (head ++ ls) = some ls := by
  simp [expecting]

def takeLiteral : List Lexeme → Option (Text × List Lexeme)
  | .literal text :: ls => some (text, ls)
  | _ => none

def takeName (ids : Identifiers) : List Lexeme → Option (Text × List Lexeme)
  | l :: ls => (ids.nameOf l).map (·, ls)
  | [] => none

@[simp] theorem takeName_quoted (ids : Identifiers) (n : Text) (ls : List Lexeme) :
    takeName ids (.quoted n :: ls) = some (n, ls) := rfl

@[simp] theorem takeName_lexeme (ids : Identifiers) (n : Text) (ls : List Lexeme) :
    takeName ids (ids.lexeme n :: ls) = some (n, ls) := by
  rw [takeName, Identifiers.nameOf_lexeme]
  rfl

/-- What comes after the parenthesis that closes the one that is open. -/
def skipParens : (depth : Nat) → List Lexeme → Option (List Lexeme)
  | _, [] => none
  | depth, l :: ls =>
    if l = .symbol '(' then skipParens (depth + 1) ls
    else if l = .symbol ')' then
      if depth = 0 then some ls else skipParens (depth - 1) ls
    else skipParens depth ls

def Balanced (ls : List Lexeme) : Prop := ∀ depth rest, skipParens depth (ls ++ rest) = skipParens depth rest

theorem Balanced.append {ls ms : List Lexeme} (hls : Balanced ls) (hms : Balanced ms) : Balanced (ls ++ ms) := by
  intro depth rest
  rw [List.append_assoc, hls, hms]

theorem balanced_single {l : Lexeme} (hopen : l ≠ .symbol '(') (hclose : l ≠ .symbol ')') : Balanced [l] := by
  intro depth rest
  rw [List.singleton_append, skipParens, if_neg hopen, if_neg hclose]

theorem balanced_lexeme (ids : Identifiers) (n : Text) : Balanced [ids.lexeme n] := by
  unfold Identifiers.lexeme
  split_ifs
  · exact balanced_single (by simp) (by simp)
  · exact balanced_single (by simp) (by simp)

theorem balanced_separated : ∀ {lss : List (List Lexeme)}, (∀ ls ∈ lss, Balanced ls) → Balanced (separated lss)
  | [], _ => fun _ _ => rfl
  | [ls], h => h ls List.mem_cons_self
  | ls :: ms :: lss, h => by
    have hrest := balanced_separated fun ls hls => h ls (List.mem_cons_of_mem _ hls)
    exact (h ls List.mem_cons_self).append ((balanced_single (by simp) (by simp)).append hrest)

/-! ## The remote side -/

/-- A type as `format_type_with_typemod` prints it. -/
structure TypeText where
  text : Text
  lexemes : List Lexeme
  reads : Reads text lexemes
  balanced : Balanced lexemes

structure RemoteTable where
  name : Text
  columns : List (Text × TypeText)
  named : name ≠ []
  columns_named : ∀ c ∈ columns, cString c.1 ≠ []

def listHead : List Lexeme :=
  [.word "SELECT".toList, .word "table_name".toList, .word "FROM".toList, .word "duckdb_tables".toList, .symbol '(',
    .symbol ')', .word "WHERE".toList, .word "database_name".toList, .symbol '=']

def listMiddle : List Lexeme := [.word "AND".toList, .word "schema_name".toList, .symbol '=']

def listEnd : List Lexeme := [.word "ORDER".toList, .word "BY".toList, .word "table_name".toList]

/-- The database and the schema whose tables are listed. -/
def parseList (ls : List Lexeme) : Option (Text × Text) :=
  (expecting listHead ls).bind fun ls => (takeLiteral ls).bind fun (database, ls) =>
    (expecting listMiddle ls).bind fun ls => (takeLiteral ls).bind fun (schema, ls) =>
      if ls = listEnd then some (database, schema) else none

def selectHead : List Lexeme := [.word "SELECT".toList, .symbol '*', .word "FROM".toList]

def selectEnd : List Lexeme := [.word "LIMIT".toList, .number "0".toList]

/-- The table whose columns are asked for. -/
def parseSelect (duck : Identifiers) (ls : List Lexeme) : Option (Text × Text × Text) :=
  (expecting selectHead ls).bind fun ls =>
    (takeName duck ls).bind fun (database, ls) => (expecting [.symbol '.'] ls).bind fun ls =>
      (takeName duck ls).bind fun (schema, ls) => (expecting [.symbol '.'] ls).bind fun ls =>
        (takeName duck ls).bind fun (table, ls) =>
          if ls = selectEnd then some (database, schema, table) else none

/-- DuckDB. It lists and prepares the tables of a schema; in a schema that is not there it lists none, and prepares none.
What it makes of other texts is not known. -/
structure Engine (duck : Identifiers) where
  tables : (database schema : Text) → Option (List RemoteTable)
  list : Text → Option (List Text)
  prepare : Text → Option (List (Text × TypeText))
  lists : ∀ text database schema, (lex text).bind parseList = some (database, schema) →
    list text = some (((tables database schema).getD []).map RemoteTable.name)
  prepares : ∀ text database schema table, (lex text).bind (parseSelect duck) = some (database, schema, table) →
    prepare text = (tables database schema).bind fun ts =>
      (ts.find? fun t => t.name = table).map RemoteTable.columns

/-! ## The code -/

inductive ImportListType
  | all
  | limitTo
  | except
  deriving DecidableEq, Repr

structure ImportForeignSchemaStmt where
  remoteSchema : PgName
  localSchema : PgName
  listType : ImportListType
  tableList : List Text
  plain : ∀ n ∈ tableList, n ≠ [] ∧ Char.ofNat 0 ∉ n
  limited : listType = .limitTo → tableList ≠ []

inductive ImportError
  | cannotListTables (schema : Text)
  | cannotReadTable (schema table : Text)
  deriving DecidableEq, Repr

/-- The clause selects the name. -/
def ImportForeignSchemaStmt.selects (stmt : ImportForeignSchemaStmt) (name : Text) : Bool :=
  match stmt.listType with
  | .all => true
  | .limitTo => name ∈ stmt.tableList
  | .except => name ∉ stmt.tableList

section Code

variable (pg duck : Identifiers)

def listQuery (dbAlias schema : Text) : Text :=
  "SELECT table_name FROM duckdb_tables() WHERE database_name = '".toList ++ dbAlias ++
    "' AND schema_name = '".toList ++ duck.write schema ++ "' ORDER BY table_name".toList

def selectQuery (dbAlias schema tname : Text) : Text :=
  "SELECT * FROM \"".toList ++ dbAlias ++ "\".".toList ++ duck.write schema ++ ".".toList ++ duck.write tname ++
    " LIMIT 0".toList

def columnText (column : Text × TypeText) : Text := pg.write (cString column.1) ++ " ".toList ++ column.2.text

def createCommand (localSchema servername remoteSchema tname : Text) (columns : List (Text × TypeText)) : Text :=
  "CREATE FOREIGN TABLE ".toList ++ pg.write localSchema ++ ".".toList ++ pg.write (cString tname) ++ " (".toList ++
    ", ".toList.intercalate (columns.map (columnText pg)) ++ ") SERVER ".toList ++ pg.write servername ++
    " OPTIONS (schema_name '".toList ++ remoteSchema ++ "', table_name '".toList ++ cString tname ++ "')".toList

/-- The commands for the tables, in turn. -/
def createCommands (engine : Engine duck) (stmt : ImportForeignSchemaStmt) (servername dbAlias : Text) :
    List Text → Except ImportError (List Text)
  | [] => .ok []
  | tname :: names =>
    match engine.prepare (selectQuery duck dbAlias stmt.remoteSchema.text tname) with
    | none => .error (.cannotReadTable stmt.remoteSchema.text tname)
    | some columns =>
      (createCommands engine stmt servername dbAlias names).map
        (createCommand pg stmt.localSchema.text servername stmt.remoteSchema.text tname columns :: ·)

/-- `DucklakeImportForeignSchema`, after the server's database was attached. -/
def ducklakeImportForeignSchema (engine : Engine duck) (stmt : ImportForeignSchemaStmt) (server : ForeignServer)
    (role : Role) : Except ImportError (List Text) :=
  let dbAlias := server.getDatabaseAlias role
  match engine.list (listQuery duck dbAlias stmt.remoteSchema.text) with
  | none => .error (.cannotListTables stmt.remoteSchema.text)
  | some names =>
    createCommands pg duck engine stmt server.servername dbAlias (names.filter fun tname => stmt.selects (cString tname))

end Code

/-! ## The queries -/

section Queries

variable {pg duck : Identifiers}

theorem reads_listHead : Reads "SELECT table_name FROM duckdb_tables() WHERE database_name =".toList listHead :=
  reads_of_lex (by decide) (by decide +kernel)

theorem reads_listMiddle : Reads "AND schema_name =".toList listMiddle := reads_of_lex (by decide) (by decide)

theorem parseList_eq (database schema : Text) (ls : List Lexeme) :
    parseList (listHead ++ .literal database :: (listMiddle ++ .literal schema :: ls)) =
      if ls = listEnd then some (database, schema) else none := by
  simp only [parseList, expecting_append, Option.bind_some, takeLiteral]

variable {database body schema : Text} {ls : List Lexeme}

theorem parseList_database (h : parseList (listHead ++ .literal body :: ls) = some (database, schema)) :
    body = database := by
  simp only [parseList, expecting_append, Option.bind_some, takeLiteral, Option.bind_eq_some_iff] at h
  obtain ⟨ms, -, ⟨schema', ms'⟩, -, h⟩ := h
  split_ifs at h
  exact (Prod.mk.inj (Option.some.inj h)).1

theorem parseList_schema
    (h : parseList (listHead ++ .literal database :: (listMiddle ++ .literal body :: ls)) = some (database, schema)) :
    body = schema := by
  rw [parseList_eq] at h
  split_ifs at h
  exact (Prod.mk.inj (Option.some.inj h)).2

theorem quote_not_mem_of_safe {n : Text} (h : duck.safe n = true) : '\'' ∉ n := by
  have hword := duck.word n h
  cases n with
  | nil => cases hword
  | cons c n =>
    simp only [plainWord, Bool.and_eq_true, List.all_eq_true] at hword
    rw [List.mem_cons, not_or]
    refine ⟨?_, fun hmem => ?_⟩
    · rintro rfl
      exact absurd hword.1 (by decide)
    · exact absurd (hword.2 _ hmem) (by decide)

theorem listQuery_iff (dbAlias schema : Text) :
    (lex (listQuery duck dbAlias schema)).bind parseList = some (dbAlias, schema) ↔
      '\'' ∉ dbAlias ∧ duck.safe schema = true := by
  have htext : listQuery duck dbAlias schema =
      "SELECT table_name FROM duckdb_tables() WHERE database_name =".toList ++ (' ' :: '\'' :: (dbAlias ++ '\'' ::
        ' ' :: ("AND schema_name =".toList ++ (' ' :: '\'' :: (duck.write schema ++ '\'' :: ' ' ::
          "ORDER BY table_name".toList))))) := by
    have hfirst : "SELECT table_name FROM duckdb_tables() WHERE database_name = '".toList =
        "SELECT table_name FROM duckdb_tables() WHERE database_name =".toList ++ [' ', '\''] := by decide
    have hsecond : "' AND schema_name = '".toList = '\'' :: ' ' :: ("AND schema_name =".toList ++ [' ', '\'']) := by decide
    have hthird : "' ORDER BY table_name".toList = '\'' :: ' ' :: "ORDER BY table_name".toList := by decide
    unfold listQuery
    simp only [hfirst, hsecond, hthird, List.append_assoc, List.cons_append, List.nil_append]
  have hend : lex (' ' :: "ORDER BY table_name".toList) = some listEnd := by decide
  rw [htext, reads_listHead.bind (stops_cons (by decide) _), lex_blank,
    lex_literal_bind_iff (by simp) fun body ls h => parseList_database h]
  refine and_congr_right fun _ => ?_
  rw [lex_blank, reads_listMiddle.bind (stops_cons (by decide) _), lex_blank]
  by_cases hsafe : duck.safe schema = true
  · rw [Identifiers.write, if_pos hsafe, lex_literal_bind_iff (by simp) fun body ls h => parseList_schema h, hend,
      Option.bind_some, parseList_eq, if_pos rfl]
    simp [hsafe, quote_not_mem_of_safe hsafe]
  · -- The literal holds the quotes of the identifier, so it is another name.
    rw [Identifiers.write, if_neg hsafe, lex_literal]
    refine iff_of_false ?_ hsafe
    intro h
    simp only [Option.bind_eq_some_iff, Option.map_eq_some_iff] at h
    obtain ⟨ls, ⟨⟨body, rest⟩, hread, ms, -, rfl⟩, hparse⟩ := h
    exact readQuoted_delimited_ne hread (parseList_schema hparse)

theorem reads_selectHead : Reads "SELECT * FROM".toList selectHead := reads_of_lex (by decide) (by decide)

theorem lex_dot_write (n more : Text) :
    lex ('.' :: (duck.write n ++ more)) = (lex (duck.write n ++ more)).map (.symbol '.' :: ·) := by
  obtain ⟨c, t, hn, hc⟩ := @Identifiers.write_cons duck n
  rw [hn, List.cons_append]
  exact lex_dot hc

theorem parseSelect_database {dbAlias name : Text} {b : Text × Text}
    (h : parseSelect duck (selectHead ++ .quoted name :: ls) = some (dbAlias, b)) : name = dbAlias := by
  simp only [parseSelect, expecting_append, Option.bind_some, takeName_quoted, Option.bind_eq_some_iff] at h
  obtain ⟨ms, -, ⟨schema, ms'⟩, -, ms'', -, ⟨table, rest⟩, -, h⟩ := h
  split_ifs at h
  exact (Prod.mk.inj (Option.some.inj h)).1

theorem parseSelect_eq (dbAlias schema tname : Text) :
    parseSelect duck (selectHead ++ .quoted dbAlias :: .symbol '.' :: duck.lexeme schema :: .symbol '.' ::
      duck.lexeme tname :: selectEnd) = some (dbAlias, schema, tname) := by
  have hdot : ∀ ls : List Lexeme, expecting [.symbol '.'] (.symbol '.' :: ls) = some ls := expecting_append _
  simp only [parseSelect, expecting_append, Option.bind_some, takeName_quoted, takeName_lexeme, hdot]
  rfl

theorem selectQuery_iff {dbAlias schema tname : Text} (hschema : schema ≠ []) (htname : tname ≠ []) (b : Text × Text) :
    (lex (selectQuery duck dbAlias schema tname)).bind (parseSelect duck) = some (dbAlias, b) ↔
      ('"' ∉ dbAlias ∧ dbAlias ≠ []) ∧ b = (schema, tname) := by
  have htext : selectQuery duck dbAlias schema tname = "SELECT * FROM".toList ++ (' ' :: '"' :: (dbAlias ++ '"' :: '.' ::
      (duck.write schema ++ '.' :: (duck.write tname ++ (' ' :: "LIMIT 0".toList))))) := by
    have hfirst : "SELECT * FROM \"".toList = "SELECT * FROM".toList ++ [' ', '"'] := by decide
    have hsecond : "\".".toList = ['"', '.'] := by decide
    have hdot : ".".toList = ['.'] := by decide
    have hlast : " LIMIT 0".toList = ' ' :: "LIMIT 0".toList := by decide
    unfold selectQuery
    simp only [hfirst, hsecond, hdot, hlast, List.append_assoc, List.cons_append, List.nil_append]
  have hend : lex (' ' :: "LIMIT 0".toList) = some selectEnd := by decide
  have hrest : lex ('.' :: (duck.write schema ++ '.' :: (duck.write tname ++ (' ' :: "LIMIT 0".toList)))) =
      some (.symbol '.' :: duck.lexeme schema :: .symbol '.' :: duck.lexeme tname :: selectEnd) := by
    rw [lex_dot_write, Identifiers.lex_write_dot hschema,
      Identifiers.reads_write htname _ (stops_cons (by decide) _), hend]
    rfl
  rw [htext, reads_selectHead.bind (stops_cons (by decide) _), lex_blank,
    lex_quoted_bind_iff (by simp) fun name ls h => parseSelect_database h, hrest, Option.bind_some, parseSelect_eq]
  simp only [Option.some.injEq, Prod.mk.injEq, true_and, eq_comm]

end Queries

/-! ## The commands -/

/-- What PostgreSQL reads: the names of the table and the server, and the options. -/
structure CreateForeignTable where
  schema : Text
  name : Text
  server : Text
  options : List (Lexeme × Lexeme)
  deriving DecidableEq, Repr

def createHead : List Lexeme := [.word "CREATE".toList, .word "FOREIGN".toList, .word "TABLE".toList]

def optionsHead : List Lexeme := [.word "OPTIONS".toList, .symbol '(']

/-- A CREATE FOREIGN TABLE command. Its columns are passed over, and names are cut to their length. -/
def parseCommand (pg : Identifiers) (ls : List Lexeme) : Option CreateForeignTable :=
  (expecting createHead ls).bind fun ls => (takeName pg ls).bind fun (schema, ls) =>
    (expecting [.symbol '.'] ls).bind fun ls => (takeName pg ls).bind fun (name, ls) =>
      (expecting [.symbol '('] ls).bind fun ls => (skipParens 0 ls).bind fun ls =>
        (expecting [.word "SERVER".toList] ls).bind fun ls => (takeName pg ls).bind fun (server, ls) =>
          (expecting optionsHead ls).bind fun ls =>
            (readItems ls).map fun options =>
              ⟨clip nameLimit schema, clip nameLimit name, clip nameLimit server, options⟩

def schemaName : Lexeme := .word "schema_name".toList
def tableName : Lexeme := .word "table_name".toList

/-- The command creates the foreign table for the remote one. -/
def Creates (pg : Identifiers) (stmt : ImportForeignSchemaStmt) (server : Text) (table : RemoteTable) (command : Text) :
    Prop :=
  (lex command).bind (parseCommand pg) =
    some ⟨stmt.localSchema.text, table.name, server,
      [(schemaName, .literal stmt.remoteSchema.text), (tableName, .literal table.name)]⟩

section Commands

variable {pg : Identifiers}

theorem clip_name (n : PgName) : clip nameLimit n.text = n.text := (clip_eq_self_iff _ _).mpr n.short

/-- The lexemes of the columns. -/
def columnLexemes (pg : Identifiers) (columns : List (Text × TypeText)) : List Lexeme :=
  separated (columns.map fun c => pg.lexeme (cString c.1) :: c.2.lexemes)

theorem reads_columns {columns : List (Text × TypeText)} (h : ∀ c ∈ columns, cString c.1 ≠ []) :
    Reads (", ".toList.intercalate (columns.map (columnText pg))) (columnLexemes pg columns) := by
  have hcomma : ", ".toList = [',', ' '] := by decide
  have hblank : " ".toList = [' '] := by decide
  rw [hcomma]
  apply reads_separated
  rw [List.forall₂_map_left_iff, List.forall₂_map_right_iff, List.forall₂_same]
  intro c hc
  have htext : columnText pg c = pg.write (cString c.1) ++ ' ' :: c.2.text := by
    rw [columnText, hblank, List.append_assoc, List.singleton_append]
  rw [htext]
  exact (Identifiers.reads_write (h c hc)).append_stop c.2.reads.blank (by decide)

theorem balanced_columns (columns : List (Text × TypeText)) : Balanced (columnLexemes pg columns) := by
  apply balanced_separated
  intro ls hls
  obtain ⟨c, -, rfl⟩ := List.mem_map.mp hls
  exact (balanced_lexeme pg _).append c.2.balanced

theorem reads_schemaName : Reads "schema_name".toList [schemaName] := reads_word (by decide)

theorem reads_tableName : Reads ", table_name".toList [.symbol ',', tableName] := reads_of_lex (by decide) (by decide)

theorem secondOption_iff (schema tname : Text) :
    (lex (' ' :: '\'' :: (tname ++ '\'' :: [')']))).bind
        (fun ls => readItems (schemaName :: .literal schema :: .symbol ',' :: tableName :: ls)) =
      some [(schemaName, .literal schema), (tableName, .literal tname)] ↔ '\'' ∉ tname := by
  have hcomma : ∀ ls, readItems (schemaName :: .literal schema :: .symbol ',' :: ls) =
      (readItems ls).map ((schemaName, .literal schema) :: ·) := fun ls => readItems_comma rfl rfl ls
  have hclose : lex [')'] = some [.symbol ')'] := rfl
  rw [lex_blank, lex_literal_bind_iff (by simp), hclose, Option.bind_some, hcomma, readItems_close rfl rfl rfl]
  · simp
  · intro body ls h
    rw [hcomma, Option.map_eq_some_iff] at h
    obtain ⟨items, hitems, heq⟩ := h
    rw [(List.cons.inj heq).2] at hitems
    obtain ⟨rest, hrest⟩ := readItems_cons hitems
    exact Lexeme.literal.inj (List.cons.inj (List.cons.inj hrest).2).1

/-- The options of the command, between quotes as they are. -/
def commandOptions (schema tname : Text) : Text :=
  "schema_name".toList ++ (' ' :: '\'' :: (schema ++ '\'' :: (", table_name".toList ++ (' ' :: '\'' ::
    (tname ++ '\'' :: [')'])))))

theorem options_iff (schema tname : Text) :
    (lex (commandOptions schema tname)).bind readItems =
      some [(schemaName, .literal schema), (tableName, .literal tname)] ↔ '\'' ∉ schema ∧ '\'' ∉ tname := by
  have hhead : (", table_name".toList ++ (' ' :: '\'' :: (tname ++ '\'' :: [')']))).head? ≠ some '\'' := by
    have hcomma : ", table_name".toList = ',' :: " table_name".toList := by decide
    rw [hcomma]
    simp
  unfold commandOptions
  rw [reads_schemaName.bind (stops_cons (by decide) _), lex_blank, lex_literal_bind_iff hhead]
  · refine and_congr_right fun _ => ?_
    rw [reads_tableName.bind (stops_cons (by decide) _)]
    exact secondOption_iff schema tname
  · intro body ls h
    obtain ⟨rest, hrest⟩ := readItems_cons h
    exact Lexeme.literal.inj (List.cons.inj (List.cons.inj hrest).2).1

/-- The command up to its options. -/
def commandHead (pg : Identifiers) (localSchema tname columns servername : Text) : Text :=
  "CREATE FOREIGN TABLE".toList ++ ' ' :: ((pg.write localSchema ++ '.' :: pg.write tname) ++ ' ' :: '(' :: (columns ++
    ')' :: ' ' :: ("SERVER".toList ++ ' ' :: (pg.write servername ++ ' ' :: "OPTIONS".toList))))

def commandLexemes (pg : Identifiers) (localSchema tname : Text) (columns : List Lexeme) (servername : Text) :
    List Lexeme :=
  createHead ++ ([pg.lexeme localSchema, .symbol '.', pg.lexeme tname] ++ .symbol '(' :: (columns ++
    .symbol ')' :: ([.word "SERVER".toList] ++ ([pg.lexeme servername] ++ [.word "OPTIONS".toList]))))

theorem reads_commandHead {localSchema tname columns servername : Text} {lexemes : List Lexeme}
    (hlocal : localSchema ≠ []) (htname : tname ≠ []) (hserver : servername ≠ []) (hcolumns : Reads columns lexemes) :
    Reads (commandHead pg localSchema tname columns servername)
      (commandLexemes pg localSchema tname lexemes servername) := by
  have hcreate : Reads "CREATE FOREIGN TABLE".toList createHead := reads_of_lex (by decide) (by decide)
  have hoptions : Reads (' ' :: "OPTIONS".toList) [.word "OPTIONS".toList] := (reads_word (by decide)).blank
  have hname := ((@Identifiers.reads_write pg _ hserver).append_stop hoptions (by decide)).blank
  have hto : Reads "SERVER".toList [.word "SERVER".toList] := reads_word (by decide)
  have htail := ((hto.append_stop hname (by decide)).blank).symbol (c := ')') (by decide)
  have hlist := ((hcolumns.append_stop htail (by decide)).symbol (c := '(') (by decide)).blank
  have htable := ((@Identifiers.reads_write_dot pg _ _ hlocal htname).append_stop hlist (by decide)).blank
  exact hcreate.append_stop htable (by decide)

theorem parseCommand_eq {localSchema tname servername : Text} {columns : List Lexeme} (hcolumns : Balanced columns)
    (ls : List Lexeme) :
    parseCommand pg (commandLexemes pg localSchema tname columns servername ++ .symbol '(' :: ls) =
      (readItems ls).map fun options =>
        ⟨clip nameLimit localSchema, clip nameLimit tname, clip nameLimit servername, options⟩ := by
  have hone : ∀ (l : Lexeme) (ms : List Lexeme), expecting [l] (l :: ms) = some ms := fun l => expecting_append [l]
  have hcreate : commandLexemes pg localSchema tname columns servername ++ .symbol '(' :: ls =
      createHead ++ (pg.lexeme localSchema :: .symbol '.' :: pg.lexeme tname :: .symbol '(' :: (columns ++
        .symbol ')' :: .word "SERVER".toList :: pg.lexeme servername :: (optionsHead ++ ls))) := by
    simp [commandLexemes, optionsHead]
  have hskip : ∀ ms, skipParens 0 (columns ++ .symbol ')' :: ms) = some ms := by
    intro ms
    rw [hcolumns]
    simp [skipParens]
  rw [hcreate]
  simp only [parseCommand, expecting_append, hone, hskip, Option.bind_some, takeName_lexeme]

theorem createCommand_eq (localSchema servername remoteSchema tname : Text) (columns : List (Text × TypeText)) :
    createCommand pg localSchema servername remoteSchema tname columns =
      commandHead pg localSchema (cString tname) (", ".toList.intercalate (columns.map (columnText pg))) servername ++
        ' ' :: '(' :: commandOptions remoteSchema (cString tname) := by
  have hcreate : "CREATE FOREIGN TABLE ".toList = "CREATE FOREIGN TABLE".toList ++ [' '] := by decide
  have hdot : ".".toList = ['.'] := by decide
  have hopen : " (".toList = [' ', '('] := by decide
  have hto : ") SERVER ".toList = ')' :: ' ' :: ("SERVER".toList ++ [' ']) := by decide
  have hoptions : " OPTIONS (schema_name '".toList =
      ' ' :: ("OPTIONS".toList ++ ' ' :: '(' :: ("schema_name".toList ++ [' ', '\''])) := by decide
  have hsecond : "', table_name '".toList = '\'' :: (", table_name".toList ++ [' ', '\'']) := by decide
  have hclose : "')".toList = ['\'', ')'] := by decide
  unfold createCommand commandHead commandOptions
  simp only [hcreate, hdot, hopen, hto, hoptions, hsecond, hclose, List.append_assoc, List.cons_append, List.nil_append]

variable {columns : List (Text × TypeText)}

theorem lex_createCommand_nil {localSchema servername remoteSchema tname : Text} (hlocal : localSchema ≠ [])
    (htname : cString tname = []) :
    lex (createCommand pg localSchema servername remoteSchema tname columns) = none := by
  have hcreate : Reads "CREATE FOREIGN TABLE".toList createHead := reads_of_lex (by decide) (by decide)
  have htext : ∀ columns options : Text, commandHead pg localSchema [] columns servername ++ ' ' :: '(' :: options =
      "CREATE FOREIGN TABLE".toList ++ ' ' :: (pg.write localSchema ++ '.' :: (pg.write [] ++ ' ' :: '(' :: (columns ++
        ')' :: ' ' :: ("SERVER".toList ++ ' ' :: (pg.write servername ++ ' ' :: ("OPTIONS".toList ++
          ' ' :: '(' :: options)))))) := by
    intro columns options
    unfold commandHead
    simp only [List.append_assoc, List.cons_append]
  rw [createCommand_eq, htname, htext, hcreate _ (stops_cons (by decide) _), lex_blank,
    Identifiers.lex_write_dot hlocal, Identifiers.lex_write_nil (by simp)]
  rfl

theorem bind_options_iff (x : Option (List Lexeme)) (schema name name' server : Text)
    (options : List (Lexeme × Lexeme)) :
    (x.bind fun ls => (readItems ls).map fun o => CreateForeignTable.mk schema name server o) =
      some ⟨schema, name', server, options⟩ ↔ name = name' ∧ x.bind readItems = some options := by
  cases x with
  | none => simp
  | some ls => cases h : readItems ls <;> simp [h]

theorem creates_iff_options (stmt : ImportForeignSchemaStmt) (server : PgName) (table : RemoteTable)
    (hcolumns : ∀ c ∈ columns, cString c.1 ≠ []) (hname : cString table.name ≠ []) :
    Creates pg stmt server.text table
        (createCommand pg stmt.localSchema.text server.text stmt.remoteSchema.text table.name columns) ↔
      clip nameLimit (cString table.name) = table.name ∧
        (lex (commandOptions stmt.remoteSchema.text (cString table.name))).bind readItems =
          some [(schemaName, .literal stmt.remoteSchema.text), (tableName, .literal table.name)] := by
  have hreads := @reads_commandHead pg _ _ _ _ _ stmt.localSchema.ne hname server.ne (@reads_columns pg columns hcolumns)
  have hparse := @parseCommand_eq pg stmt.localSchema.text (cString table.name) server.text _
    (@balanced_columns pg columns)
  rw [Creates, createCommand_eq, hreads.bind (stops_cons (by decide) _), lex_blank, lex_symbol (by decide),
    Option.bind_map]
  simp only [Function.comp_def, hparse, clip_name]
  exact bind_options_iff _ _ _ _ _ _

theorem creates_iff (stmt : ImportForeignSchemaStmt) (server : PgName) (table : RemoteTable)
    (hcolumns : ∀ c ∈ columns, cString c.1 ≠ []) :
    Creates pg stmt server.text table
        (createCommand pg stmt.localSchema.text server.text stmt.remoteSchema.text table.name columns) ↔
      (Char.ofNat 0 ∉ table.name ∧ bytes table.name ≤ nameLimit) ∧
        '\'' ∉ stmt.remoteSchema.text ∧ '\'' ∉ table.name := by
  rw [← clip_cString_eq_iff]
  by_cases hempty : cString table.name = []
  · refine iff_of_false ?_ fun h => ?_
    · rw [Creates, lex_createCommand_nil stmt.localSchema.ne hempty]
      exact fun h => Option.some_ne_none _ h.symm
    · have hname := h.1
      rw [hempty] at hname
      exact table.named hname.symm
  · rw [creates_iff_options stmt server table hcolumns hempty]
    refine and_congr_right fun hname => ?_
    rw [cString_of_clip hname]
    exact options_iff _ _

end Commands

/-! ## The import -/

section Import

variable {pg duck : Identifiers} {stmt : ImportForeignSchemaStmt}

/-- A server as PostgreSQL's catalog has it. -/
structure NamedServer extends ForeignServer where
  named : servername ≠ []
  short : bytes servername ≤ nameLimit

def NamedServer.name (server : NamedServer) : PgName := ⟨server.servername, server.named, server.short⟩

/-- Whatever DuckDB makes of other texts, the import gives one command for each selected table and none for others. -/
def ImportsExactly (pg duck : Identifiers) (stmt : ImportForeignSchemaStmt) (server : NamedServer) (role : Role)
    (remote : List RemoteTable) : Prop :=
  ∀ engine : Engine duck, engine.tables (server.getDatabaseAlias role) stmt.remoteSchema.text = some remote →
    ∃ commands, ducklakeImportForeignSchema pg duck engine stmt server.toForeignServer role = .ok commands ∧
      List.Forall₂ (Creates pg stmt server.servername) (remote.filter fun table => stmt.selects table.name) commands

/-- The alias has no quote and the schema needs none; the clause does not see a name that is cut; and a selected table has a
name that neither ends a literal nor is cut, under an alias without double quotes. -/
structure Importable (duck : Identifiers) (stmt : ImportForeignSchemaStmt) (dbAlias : Text) (remote : List RemoteTable) :
    Prop where
  listed : '\'' ∉ dbAlias ∧ duck.safe stmt.remoteSchema.text = true
  selected : ∀ table ∈ remote, stmt.selects (cString table.name) = stmt.selects table.name
  named : ∀ table ∈ remote, stmt.selects table.name = true →
    '"' ∉ dbAlias ∧ (Char.ofNat 0 ∉ table.name ∧ bytes table.name ≤ nameLimit) ∧ '\'' ∉ table.name

theorem getDatabaseAlias_ne_nil (server : NamedServer) (role : Role) : server.getDatabaseAlias role ≠ [] := by
  have hlong : ∀ t : Text, "fdw_db_".toList ++ t ≠ [] := by
    intro t h
    have hnil : "fdw_db_".toList = [] := (List.append_eq_nil_iff.mp h).1
    exact absurd hnil (by decide)
  unfold ForeignServer.getDatabaseAlias
  split_ifs
  · exact server.named
  · split
    · exact hlong _
    · exact hlong _

variable {commands : List Text}

theorem createCommands_iff (engine : Engine duck) (servername dbAlias : Text) {names : List Text} :
    createCommands pg duck engine stmt servername dbAlias names = .ok commands ↔
      List.Forall₂ (fun tname command => ∃ columns,
        engine.prepare (selectQuery duck dbAlias stmt.remoteSchema.text tname) = some columns ∧
          command = createCommand pg stmt.localSchema.text servername stmt.remoteSchema.text tname columns)
        names commands := by
  induction names generalizing commands with
  | nil =>
    rw [List.forall₂_nil_left_iff, createCommands, Except.ok.injEq, eq_comm]
  | cons tname names ih =>
    rw [List.forall₂_cons_left_iff, createCommands]
    cases hprepare : engine.prepare (selectQuery duck dbAlias stmt.remoteSchema.text tname) with
    | none => simp
    | some columns =>
      cases hrest : createCommands pg duck engine stmt servername dbAlias names with
      | error e => simp [Except.map, ← ih, hrest]
      | ok rest =>
        constructor
        · intro h
          cases h
          exact ⟨_, rest, ⟨columns, rfl, rfl⟩, ih.mp hrest, rfl⟩
        · rintro ⟨command, rest', ⟨columns', hcolumns, rfl⟩, hrest', rfl⟩
          cases hcolumns
          have hsame := ih.mpr hrest'
          rw [hrest] at hsame
          cases hsame
          rfl

/-- The engine that answers nothing but what it has to. -/
def Engine.strict (duck : Identifiers) (tables : (database schema : Text) → Option (List RemoteTable)) : Engine duck where
  tables := tables
  list := fun text => ((lex text).bind parseList).map fun (database, schema) =>
    ((tables database schema).getD []).map RemoteTable.name
  prepare := fun text => ((lex text).bind (parseSelect duck)).bind fun (database, schema, table) =>
    (tables database schema).bind fun ts => (ts.find? fun t => t.name = table).map RemoteTable.columns
  lists := by
    intro text database schema h
    rw [h]
    rfl
  prepares := by
    intro text database schema table h
    rw [h]
    rfl

theorem selects_cString (stmt : ImportForeignSchemaStmt) (name : Text) :
    (stmt.listType = .except → stmt.selects (cString name) = true → stmt.selects name = true) ∧
      (stmt.listType ≠ .except → stmt.selects name = true → stmt.selects (cString name) = true) := by
  have hlisted : name ∈ stmt.tableList → cString name = name := fun h => (cString_eq_self_iff name).mpr (stmt.plain name h).2
  unfold ImportForeignSchemaStmt.selects
  cases stmt.listType with
  | all => simp
  | limitTo =>
    simp only [decide_eq_true_eq, reduceCtorEq, false_implies, true_and, ne_eq, not_false_eq_true, true_implies]
    intro hmem
    rwa [hlisted hmem]
  | except =>
    simp only [decide_eq_true_eq, true_implies, ne_eq, not_true_eq_false, false_implies, and_true]
    intro hcut hmem
    rw [hlisted hmem] at hcut
    exact hcut hmem

variable {α : Type} {l : List α}

theorem eq_of_length_filter_eq {p q : α → Bool} (hle : ∀ a, p a = true → q a = true)
    (hlength : (l.filter p).length = (l.filter q).length) : ∀ a ∈ l, p a = q a := by
  have hfilter : l.filter p = l.filter q := (List.monotone_filter_right l hle).eq_of_length hlength
  intro a ha
  have hmem : a ∈ l.filter p ↔ a ∈ l.filter q := by rw [hfilter]
  rw [List.mem_filter, List.mem_filter] at hmem
  simpa [ha, ← Bool.eq_iff_iff] using hmem

theorem forall₂_both {β : Type} {R S : α → β → Prop} {m : List β} (hR : List.Forall₂ R l m) (hS : List.Forall₂ S l m) :
    ∀ a ∈ l, ∃ b, R a b ∧ S a b := by
  induction hR with
  | nil => simp
  | cons hab _ ih =>
    cases hS with
    | cons hab' hS => exact List.forall_mem_cons.mpr ⟨⟨_, hab, hab'⟩, ih hS⟩

variable {server : NamedServer} {role : Role} {remote : List RemoteTable}

theorem importsExactly_of_importable (h : Importable duck stmt (server.getDatabaseAlias role) remote) :
    ImportsExactly pg duck stmt server role remote := by
  intro engine hremote
  have hlist := engine.lists _ _ _ ((listQuery_iff _ _).mpr h.listed)
  rw [hremote, Option.getD_some] at hlist
  have hfilter : (remote.map RemoteTable.name).filter (fun tname => stmt.selects (cString tname)) =
      (remote.filter fun table => stmt.selects table.name).map RemoteTable.name := by
    rw [List.filter_map]
    exact congrArg _ (List.filter_congr h.selected)
  let columnsOf : RemoteTable → List (Text × TypeText) := fun table =>
    ((remote.find? fun t => t.name = table.name).map RemoteTable.columns).getD []
  refine ⟨(remote.filter fun table => stmt.selects table.name).map fun table => createCommand pg stmt.localSchema.text
    server.servername stmt.remoteSchema.text table.name (columnsOf table), ?_, ?_⟩
  · unfold ducklakeImportForeignSchema
    simp only [hlist]
    rw [hfilter, createCommands_iff, List.forall₂_map_left_iff, List.forall₂_map_right_iff, List.forall₂_same]
    intro table htable
    obtain ⟨hmem, hselected⟩ := List.mem_filter.mp htable
    have hread := (@selectQuery_iff duck _ _ _ stmt.remoteSchema.ne table.named _).mpr
      ⟨⟨(h.named table hmem hselected).1, getDatabaseAlias_ne_nil server role⟩, rfl⟩
    have hprepare := engine.prepares _ _ _ _ hread
    have hfound : (remote.find? fun t => t.name = table.name).isSome = true :=
      List.find?_isSome.mpr ⟨table, hmem, by simp⟩
    rw [hremote, Option.bind_some] at hprepare
    obtain ⟨t, ht⟩ := Option.isSome_iff_exists.mp hfound
    refine ⟨columnsOf table, ?_, rfl⟩
    rw [hprepare]
    simp only [columnsOf, ht, Option.map_some, Option.getD_some]
  · rw [List.forall₂_map_right_iff, List.forall₂_same]
    intro table htable
    obtain ⟨hmem, hselected⟩ := List.mem_filter.mp htable
    obtain ⟨-, hcut, hquote⟩ := h.named table hmem hselected
    have hcolumns : ∀ c ∈ columnsOf table, cString c.1 ≠ [] := by
      intro c hc
      simp only [columnsOf] at hc
      cases hfind : remote.find? fun t => t.name = table.name with
      | none =>
        rw [hfind] at hc
        cases hc
      | some t =>
        rw [hfind] at hc
        exact t.columns_named c hc
    exact (creates_iff stmt server.name table hcolumns).mpr ⟨hcut, quote_not_mem_of_safe h.listed.2, hquote⟩

theorem selected_of_length (h : (remote.filter fun table => stmt.selects (cString table.name)).length =
      (remote.filter fun table => stmt.selects table.name).length) :
    ∀ table ∈ remote, stmt.selects (cString table.name) = stmt.selects table.name := by
  by_cases hexcept : stmt.listType = .except
  · exact eq_of_length_filter_eq (fun table => (selects_cString stmt table.name).1 hexcept) h
  · intro table htable
    exact (eq_of_length_filter_eq (fun table => (selects_cString stmt table.name).2 hexcept) h.symm table htable).symm

theorem exists_selected (stmt : ImportForeignSchemaStmt) :
    ∃ name : Text, name ≠ [] ∧ stmt.selects (cString name) = true := by
  cases htype : stmt.listType with
  | all => exact ⟨['a'], by simp, by simp [ImportForeignSchemaStmt.selects, htype]⟩
  | limitTo =>
    obtain ⟨name, hname⟩ := List.exists_mem_of_ne_nil _ (stmt.limited htype)
    have hwhole := (cString_eq_self_iff name).mpr (stmt.plain name hname).2
    exact ⟨name, (stmt.plain name hname).1, by simp [ImportForeignSchemaStmt.selects, htype, hwhole, hname]⟩
  | except =>
    -- A name that is longer than each of the list.
    have hplain : Char.ofNat 0 ∉ 'a' :: stmt.tableList.flatten := by
      simp only [List.mem_cons, List.mem_flatten, not_or, not_exists, not_and]
      exact ⟨by decide, fun name hname => (stmt.plain name hname).2⟩
    have hlonger : 'a' :: stmt.tableList.flatten ∉ stmt.tableList := by
      intro hmem
      have hle := (List.sublist_flatten_of_mem hmem).length_le
      rw [List.length_cons] at hle
      omega
    refine ⟨'a' :: stmt.tableList.flatten, by simp, ?_⟩
    simp [ImportForeignSchemaStmt.selects, htype, (cString_eq_self_iff _).mpr hplain, hlonger]

theorem import_strict {tables : (database schema : Text) → Option (List RemoteTable)}
    (h : ducklakeImportForeignSchema pg duck (.strict duck tables) stmt server.toForeignServer role = .ok commands) :
    ∃ database schema,
      (lex (listQuery duck (server.getDatabaseAlias role) stmt.remoteSchema.text)).bind parseList =
        some (database, schema) ∧
      List.Forall₂ (fun (table : RemoteTable) command => ∃ columns,
          (Engine.strict duck tables).prepare
            (selectQuery duck (server.getDatabaseAlias role) stmt.remoteSchema.text table.name) = some columns ∧
          command = createCommand pg stmt.localSchema.text server.servername stmt.remoteSchema.text table.name columns)
        (((tables database schema).getD []).filter fun table => stmt.selects (cString table.name)) commands := by
  unfold ducklakeImportForeignSchema at h
  cases hlist : (Engine.strict duck tables).list
      (listQuery duck (server.getDatabaseAlias role) stmt.remoteSchema.text) with
  | none =>
    simp only [hlist] at h
    cases h
  | some names =>
    simp only [hlist] at h
    obtain ⟨⟨database, schema⟩, hparse, rfl⟩ := Option.map_eq_some_iff.mp hlist
    have hfilter : (((tables database schema).getD []).map RemoteTable.name).filter
          (fun tname => stmt.selects (cString tname)) =
        (((tables database schema).getD []).filter fun table => stmt.selects (cString table.name)).map
          RemoteTable.name := List.filter_map
    rw [hfilter, createCommands_iff, List.forall₂_map_left_iff] at h
    exact ⟨database, schema, hparse, h⟩

theorem importable_of_importsExactly (h : ImportsExactly pg duck stmt server role remote) :
    Importable duck stmt (server.getDatabaseAlias role) remote := by
  obtain ⟨name, hname, hselects⟩ := exists_selected stmt
  -- An engine that gives nothing away shows what the queries have to be. Its other schemas have a table that is selected
  -- exactly if the one that is meant has none.
  let others : Option (List RemoteTable) :=
    if remote.filter (fun table => stmt.selects table.name) = [] then some [⟨name, [], hname, by simp⟩] else none
  let tables : Text → Text → Option (List RemoteTable) := fun database schema =>
    if database = server.getDatabaseAlias role ∧ schema = stmt.remoteSchema.text then some remote else others
  obtain ⟨commands, himport, hcommands⟩ := h (.strict duck tables) (if_pos ⟨rfl, rfl⟩)
  obtain ⟨database, schema, hparse, himport⟩ := import_strict himport
  have hlength := himport.length_eq.trans hcommands.length_eq.symm
  have hmeant : database = server.getDatabaseAlias role ∧ schema = stmt.remoteSchema.text := by
    by_contra hother
    by_cases hnone : remote.filter (fun table => stmt.selects table.name) = []
    · have htables : tables database schema = some [⟨name, [], hname, by simp⟩] := by simp [tables, others, hother, hnone]
      simp [htables, hselects, hnone] at hlength
    · have htables : tables database schema = none := by simp only [tables, others, if_neg hother, if_neg hnone]
      simp only [htables, Option.getD_none, List.filter_nil, List.length_nil] at hlength
      exact hnone (List.length_eq_zero_iff.mp hlength.symm)
  obtain ⟨rfl, rfl⟩ := hmeant
  have htables : tables (server.getDatabaseAlias role) stmt.remoteSchema.text = some remote := if_pos ⟨rfl, rfl⟩
  rw [htables, Option.getD_some] at himport hlength
  have hselected := selected_of_length hlength
  rw [List.filter_congr hselected] at himport
  refine ⟨(listQuery_iff _ _).mp hparse, hselected, fun table htable hselects => ?_⟩
  have hmem : table ∈ remote.filter fun table => stmt.selects table.name := List.mem_filter.mpr ⟨htable, hselects⟩
  obtain ⟨command, ⟨columns, hprepare, rfl⟩, hcreates⟩ := forall₂_both himport hcommands table hmem
  obtain ⟨⟨database, schema, tname⟩, hread, hprepare⟩ := Option.bind_eq_some_iff.mp hprepare
  obtain ⟨found, hfound, hcolumns⟩ := Option.bind_eq_some_iff.mp hprepare
  have hnone : others = none := if_neg (List.ne_nil_of_mem hmem)
  simp only [tables, hnone, Option.ite_none_right_eq_some, Option.some.injEq] at hfound
  obtain ⟨⟨rfl, rfl⟩, rfl⟩ := hfound
  obtain ⟨found, -, rfl⟩ := Option.map_eq_some_iff.mp hcolumns
  obtain ⟨⟨hdouble, -⟩, -⟩ := (selectQuery_iff stmt.remoteSchema.ne table.named _).mp hread
  obtain ⟨hcut, -, hquote⟩ := (creates_iff stmt server.name table found.columns_named).mp hcreates
  exact ⟨hdouble, hcut, hquote⟩

/-- The import is the one that was asked for exactly for these names. -/
theorem import_exact_iff (pg duck : Identifiers) (stmt : ImportForeignSchemaStmt) (server : NamedServer) (role : Role)
    (remote : List RemoteTable) :
    ImportsExactly pg duck stmt server role remote ↔ Importable duck stmt (server.getDatabaseAlias role) remote :=
  ⟨importable_of_importsExactly, importsExactly_of_importable⟩

end Import

/-! ## A schema that needs quotes -/

/-- A schema with a blank in its name. -/
def importBlank : ImportForeignSchemaStmt where
  remoteSchema := ⟨"my schema".toList, by decide, by decide⟩
  localSchema := ⟨"public".toList, by decide, by decide⟩
  listType := .all
  tableList := []
  plain := by simp
  limited := by simp

def serverS : NamedServer := ⟨⟨"s".toList, []⟩, by decide, by decide⟩

def tableA : RemoteTable := ⟨"a".toList, [], by decide, by simp⟩

/-- However DuckDB and PostgreSQL tell which names need quotes, this one does. The query asks for a schema whose name has
the quotes in it, so that the table of the schema is not listed. -/
theorem quoted_schema_not_imported :
    (∀ duck : Identifiers,
      (lex (listQuery duck (serverS.getDatabaseAlias ⟨"db".toList, "u".toList⟩) importBlank.remoteSchema.text)).bind
        parseList = some ("fdw_db_db".toList, "\"my schema\"".toList)) ∧
    ∀ pg duck : Identifiers, ¬ImportsExactly pg duck importBlank serverS ⟨"db".toList, "u".toList⟩ [tableA] := by
  have hsafe : ∀ duck : Identifiers, duck.safe importBlank.remoteSchema.text = false := by
    intro duck
    by_contra h
    rw [Bool.not_eq_false] at h
    exact absurd (duck.word _ h) (by decide)
  refine ⟨fun duck => ?_, fun pg duck h => ?_⟩
  · have hwrite : duck.write importBlank.remoteSchema.text = delimited importBlank.remoteSchema.text :=
      if_neg (by rw [hsafe]; exact Bool.false_ne_true)
    unfold listQuery
    rw [hwrite]
    decide +kernel
  · have hlisted := (importable_of_importsExactly h).listed.2
    rw [hsafe] at hlisted
    cases hlisted

end PgDucklake.Fdw
