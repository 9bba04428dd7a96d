import Mathlib.Data.List.Basic

/-!
# ALTER TABLE

The parse tree of `ALTER TABLE` and the order in which PostgreSQL works through its subcommands: not as they are written,
but in passes (`byPass`). Of a subcommand the tree has what the deparser and the filter look at.
-/

namespace PgDucklake.Alter

inductive ConstrType
  | null
  | notNull
  | default
  | check
  | primary
  | unique
  | other
  deriving DecidableEq, Repr

/-- `ColumnDef`, with the kinds of its constraints. -/
structure ColumnDef where
  colname : String
  constraints : List ConstrType
  collation : Bool
  deriving DecidableEq, Repr

/-- The kind of an option's value. -/
inductive DefValue
  | string
  | integer
  | other
  deriving DecidableEq, Repr

structure DefElem where
  arg : Option DefValue
  deriving DecidableEq, Repr

/-- The passes of PostgreSQL in their order, as far as the subcommands below have different ones. -/
inductive Pass
  | drop
  | alterType
  | addCol
  | colAttrs
  | addIndexConstr
  | addOtherConstr
  | misc
  deriving DecidableEq, Repr

def Pass.all : List Pass := [.drop, .alterType, .addCol, .colAttrs, .addIndexConstr, .addOtherConstr, .misc]

/-- `AlterTableCmd`. A default is set or dropped. `other` is a subcommand without a case in the deparser; it runs in a pass
after the added columns or with the drops, on a column if it names one. -/
inductive AlterTableCmd
  | addColumn (col : ColumnDef) (missingOk : Bool)
  | alterColumnType (name : String)
  | dropColumn (name : String) (missingOk : Bool)
  | columnDefault (name : String) (set : Bool)
  | dropNotNull (name : String)
  | setNotNull (name : String)
  | addConstraint (contype : ConstrType)
  | dropConstraint (missingOk : Bool)
  | setRelOptions (options : List DefElem)
  | resetRelOptions
  | other (drops : Bool) (column : Option String)
  deriving DecidableEq, Repr

namespace AlterTableCmd

def pass : AlterTableCmd → Pass
  | .addColumn .. => .addCol
  | .alterColumnType _ => .alterType
  | .dropColumn .. => .drop
  | .columnDefault _ false => .drop
  | .columnDefault _ true => .addOtherConstr
  | .dropNotNull _ => .drop
  | .setNotNull _ => .colAttrs
  | .addConstraint contype => if contype = .primary ∨ contype = .unique then .addIndexConstr else .addOtherConstr
  | .dropConstraint _ => .drop
  | .setRelOptions _ => .misc
  | .resetRelOptions => .misc
  | .other true _ => .drop
  | .other false _ => .misc

/-- The column that the subcommand works on and that has to be there. -/
def touched : AlterTableCmd → Option String
  | .alterColumnType name => some name
  | .columnDefault name _ => some name
  | .dropNotNull name => some name
  | .setNotNull name => some name
  | .other _ column => column
  | _ => none

end AlterTableCmd

/-- The order of execution. The number of a subcommand is its place in the statement. -/
def byPass (cmds : List AlterTableCmd) : List (AlterTableCmd × Nat) :=
  Pass.all.flatMap fun p => cmds.zipIdx.filter fun c => c.1.pass = p

end PgDucklake.Alter
