import PgDucklake.Lib.Patterns
import Mathlib.Data.List.Basic

/-!
# Foreign servers of DuckLake databases

A server of `ducklake_fdw` names a DuckLake database: a frozen file, a connection string, or a PostgreSQL database that
the current user connects to. Before a query on its foreign tables the database is attached to the session's DuckDB
instance, under an alias (`getDatabaseAlias`) and with a statement (`buildAttachQuery`) that are both made of the
server's name and options. `Target` is what the statement attaches (`buildAttachQuery_eq`).
-/

namespace PgDucklake.Fdw

abbrev Text := List Char

/-- `server_options` come in the order in which they were given. -/
structure ForeignServer where
  servername : Text
  options : List (Text × Text)
  deriving DecidableEq, Repr

/-- The session: its database and its current user. -/
structure Role where
  database : Text
  user : Text
  deriving DecidableEq, Repr

def getOptionValue (options : List (Text × Text)) (name : String) : Option Text :=
  (options.find? fun o => o.1 == name.toList).map Prod.snd

/-! ## The validator -/

def validServerOptions : List Text :=
  ["dbname".toList, "connection_string".toList, "metadata_schema".toList, "frozen_url".toList, "updatable".toList]

/-- `pg_strcasecmp(text, word) == 0`. -/
def sameIgnoringCase (text : Text) (word : String) : Bool := text.map Char.toLower == word.toList.map Char.toLower

inductive OptionError
  | invalidOption (name : Text)
  | mutuallyExclusive (first second : String)
  | updatableValue
  deriving DecidableEq, Repr

/-- `ducklake_fdw_validator` for the options of a server. -/
def ducklakeFdwValidator (options : List (Text × Text)) : Except OptionError Unit :=
  match options.find? fun o => o.1 ∉ validServerOptions with
  | some o => .error (.invalidOption o.1)
  | none =>
    let has := fun name => (getOptionValue options name).isSome
    if has "frozen_url" && has "dbname" then .error (.mutuallyExclusive "frozen_url" "dbname")
    else if has "frozen_url" && has "metadata_schema" then .error (.mutuallyExclusive "frozen_url" "metadata_schema")
    else if has "frozen_url" && has "connection_string" then
      .error (.mutuallyExclusive "frozen_url" "connection_string")
    else if has "connection_string" && has "dbname" then .error (.mutuallyExclusive "connection_string" "dbname")
    else
      match getOptionValue options "updatable" with
      | none => .ok ()
      | some value =>
        if !sameIgnoringCase value "true" && !sameIgnoringCase value "false" then .error .updatableValue
        else if has "frozen_url" && sameIgnoringCase value "true" then
          .error (.mutuallyExclusive "frozen_url" "updatable 'true'")
        else .ok ()

/-! ## Alias and statement -/

namespace ForeignServer

variable (s : ForeignServer)

def isFrozenServer : Bool := (getOptionValue s.options "frozen_url").isSome

def getDatabaseAlias (role : Role) : Text :=
  if s.isFrozenServer then s.servername
  else
    match getOptionValue s.options "connection_string" with
    | some _ => "fdw_db_".toList ++ s.servername
    | none => "fdw_db_".toList ++ (getOptionValue s.options "dbname").getD role.database

def buildAttachQuery (role : Role) (dbAlias : Text) (ifNotExists : Bool) : Text :=
  let existsClause := if ifNotExists then " IF NOT EXISTS".toList else []
  match getOptionValue s.options "frozen_url" with
  | some url =>
    "ATTACH".toList ++ existsClause ++ " 'ducklake:".toList ++ url ++ "' AS \"".toList ++ dbAlias ++ "\"".toList
  | none =>
    let schema := (getOptionValue s.options "metadata_schema").getD "ducklake".toList
    match getOptionValue s.options "connection_string" with
    | some connstr =>
      "ATTACH".toList ++ existsClause ++ " 'postgres:".toList ++ connstr ++ "' AS \"".toList ++ dbAlias ++
        "\" (TYPE DUCKLAKE, METADATA_SCHEMA '".toList ++ schema ++ "')".toList
    | none =>
      let dbname := (getOptionValue s.options "dbname").getD role.database
      "ATTACH".toList ++ existsClause ++ " 'postgres:dbname=".toList ++ dbname ++ " user=".toList ++ role.user ++
        "' AS \"".toList ++ dbAlias ++ "\" (TYPE DUCKLAKE, METADATA_SCHEMA '".toList ++ schema ++ "')".toList

end ForeignServer

/-! ## What is attached -/

/-- The path of the database and, for a catalog in PostgreSQL, the schema that holds it. -/
structure Target where
  path : Text
  metadataSchema : Option Text
  deriving DecidableEq, Repr

/-- The connection string of a server without one. -/
def connectionString (dbname user : Text) : Text := "dbname=".toList ++ dbname ++ " user=".toList ++ user

/-- The values that the server's options give, whatever they hold. -/
def ForeignServer.target (s : ForeignServer) (role : Role) : Target :=
  match getOptionValue s.options "frozen_url" with
  | some url => ⟨"ducklake:".toList ++ url, none⟩
  | none =>
    let schema := (getOptionValue s.options "metadata_schema").getD "ducklake".toList
    match getOptionValue s.options "connection_string" with
    | some connstr => ⟨"postgres:".toList ++ connstr, some schema⟩
    | none =>
      let dbname := (getOptionValue s.options "dbname").getD role.database
      ⟨"postgres:".toList ++ connectionString dbname role.user, some schema⟩

/-- The text of an ATTACH statement for a target. -/
def attachText (ifNotExists : Bool) (target : Target) (dbAlias : Text) : Text :=
  "ATTACH".toList ++ (if ifNotExists then " IF NOT EXISTS".toList else []) ++ " '".toList ++ target.path ++
    "' AS \"".toList ++ dbAlias ++ "\"".toList ++
    match target.metadataSchema with
    | none => []
    | some schema => " (TYPE DUCKLAKE, METADATA_SCHEMA '".toList ++ schema ++ "')".toList

theorem buildAttachQuery_eq (s : ForeignServer) (role : Role) (dbAlias : Text) (ifNotExists : Bool) :
    s.buildAttachQuery role dbAlias ifNotExists = attachText ifNotExists (s.target role) dbAlias := by
  have hducklake : " 'ducklake:".toList = " '".toList ++ "ducklake:".toList := by decide
  have hpostgres : " 'postgres:".toList = " '".toList ++ "postgres:".toList := by decide
  have hdbname : " 'postgres:dbname=".toList = " '".toList ++ "postgres:".toList ++ "dbname=".toList := by decide
  have hschema : "\" (TYPE DUCKLAKE, METADATA_SCHEMA '".toList =
      "\"".toList ++ " (TYPE DUCKLAKE, METADATA_SCHEMA '".toList := by decide
  unfold ForeignServer.buildAttachQuery ForeignServer.target attachText connectionString
  cases getOptionValue s.options "frozen_url" with
  | some url => simp only [hducklake, List.append_assoc, List.append_nil]
  | none =>
    cases getOptionValue s.options "connection_string" with
    | some connstr => simp only [hpostgres, hschema, List.append_assoc]
    | none => simp only [hdbname, hschema, List.append_assoc]

end PgDucklake.Fdw
