import PgDucklake.Lib.Patterns

/-!
# Filter expressions as SQL text

The bound expressions of DuckDB that a PostgreSQL scan takes over, and the text that `ExpressionToString` writes for
them. An expression that it cannot write has no text and stays with DuckDB.
-/

namespace PgDucklake.Filters

abbrev Text := List Char

/-- The functions that become a `LIKE` with a pattern made of a constant. -/
inductive LikeFunc
  | contains
  | suffixOf
  | prefixOf
  deriving DecidableEq, Repr

/-- The functions by name; `like` and `notLike` are the operators `~~` and `!~~`. -/
inductive FuncName
  | needle (func : LikeFunc)
  | likeEscape
  | ilikeEscape
  | lower
  | upper
  | like
  | notLike
  | other
  deriving DecidableEq, Repr

inductive CompareType
  | equal
  | notEqual
  | lessThan
  | greaterThan
  | lessThanOrEqualTo
  | greaterThanOrEqualTo
  | distinctFrom
  | notDistinctFrom
  deriving DecidableEq, Repr

/-- A constant, as far as its type matters here. -/
inductive Value
  | null (isVarchar : Bool)
  | varchar (text : Text)
  | other
  deriving DecidableEq, Repr

inductive BoundExpr
  | not (child : BoundExpr)
  | isNull (child : BoundExpr)
  | isNotNull (child : BoundExpr)
  | compare (type : CompareType) (left right : BoundExpr)
  | between (input lower upper : BoundExpr) (lowerInclusive upperInclusive : Bool)
  | conjunction (isOr : Bool) (children : List BoundExpr)
  | function (name : FuncName) (isOperator : Bool) (children : List BoundExpr)
  | columnRef (isVarchar : Bool)
  | constant (value : Value)
  | other (isVarchar : Bool)

/-- The return type is `VARCHAR`. -/
def BoundExpr.isVarchar : BoundExpr → Bool
  | .columnRef isVarchar | .other isVarchar | .constant (.null isVarchar) => isVarchar
  | .constant (.varchar _) => true
  | .function name _ _ => name = .lower || name = .upper
  | _ => false

/-! ## Pieces of text -/

/-- Every occurrence of a character replaced. -/
def replace (c : Char) (replacement text : Text) : Text := text.flatMap fun d => if d = c then replacement else [d]

/-- How DuckDB writes a comparison (`ExpressionTypeToOperator`) and a string (`ToSQLString`). -/
structure DuckText where
  operator : CompareType → Text
  toSQLString : Text → Text

def conjunctionOperator (isOr : Bool) : Text := if isOr then "OR".toList else "AND".toList

/-- The constant as a `LIKE` pattern, quoted. -/
def likeString (func : LikeFunc) (value : Text) : Text :=
  let str := replace '\'' ['\'', '\''] value
  let str := replace '\\' ['\\', '\\'] str
  let str := replace '%' ['\\', '%'] str
  let str := replace '_' ['\\', '_'] str
  match func with
  | .contains => ['\'', '%'] ++ str ++ ['%', '\'']
  | .suffixOf => ['\'', '%'] ++ str ++ ['\'']
  | .prefixOf => ['\''] ++ str ++ ['%', '\'']

def funcArgToLikeString (func : LikeFunc) : BoundExpr → Option Text
  | .constant (.null _) => some "NULL".toList
  | .constant (.varchar value) => some (likeString func value)
  | _ => none

/-- A `LIKE` or `ILIKE` over the texts of the children: a string, a pattern and perhaps an escape character. -/
def funcToLikeString (name : FuncName) (children : List BoundExpr) (texts : List (Option Text)) : Option Text :=
  match children, texts with
  | haystack :: needle :: _, some haystackText :: needleText :: escapeText =>
    if !haystack.isVarchar then none
    else
      let needleStr := match name with
        | .needle func => funcArgToLikeString func needle
        | _ => needleText
      let operator := if name = .ilikeEscape then " ILIKE ".toList else " LIKE ".toList
      needleStr.bind fun needleStr =>
        match escapeText with
        | [] => some (haystackText ++ operator ++ needleStr)
        | [some escape] =>
          some (haystackText ++ operator ++ needleStr ++
            if escape = "'\\'".toList then [] else " ESCAPE ".toList ++ escape)
        | _ => none
  | _, _ => none

/-- The other functions over the texts of the children. -/
def functionToString (name : FuncName) (isOperator : Bool) (children : List BoundExpr) (texts : List (Option Text)) :
    Option Text :=
  match name with
  | .needle _ | .likeEscape | .ilikeEscape => funcToLikeString name children texts
  | .lower => texts.head?.join.map fun text => "lower(".toList ++ text ++ ")".toList
  | .upper => texts.head?.join.map fun text => "upper(".toList ++ text ++ ")".toList
  | .like | .notLike =>
    match children, texts with
    | [haystack, _], [some text₀, some text₁] =>
      let operator := if name = .like then "~~".toList else "!~~".toList
      if isOperator && haystack.isVarchar then
        some (text₀ ++ " OPERATOR(pg_catalog.".toList ++ operator ++ ") ".toList ++ text₁)
      else none
    | _, _ => none
  | .other => none

/-! ## The printer -/

/-- The loop over the children of a conjunction. -/
def joinConjunction (isOr : Bool) : Text → List (Option Text) → Option Text
  | acc, [] => some acc
  | acc, child :: children =>
    child.bind fun text =>
      let separator := if acc = [] then [] else ' ' :: conjunctionOperator isOr ++ [' ']
      joinConjunction isOr (acc ++ separator ++ text) children

variable (duck : DuckText)

/-- A comparison in parentheses. -/
def compareText (type : CompareType) (left right : Text) : Text :=
  '(' :: left ++ ' ' :: duck.operator type ++ ' ' :: right ++ [')']

def constantText : Value → Option Text
  | .null _ => some "NULL".toList
  | .varchar text => some (duck.toSQLString text)
  | .other => none

mutual

def expressionToString (column : Text) : BoundExpr → Option Text
  | .not child => (expressionToString column child).map fun arg => "NOT (".toList ++ arg ++ [')']
  | .isNull child => (expressionToString column child).map fun arg => '(' :: arg ++ ") IS NULL".toList
  | .isNotNull child => (expressionToString column child).map fun arg => '(' :: arg ++ ") IS NOT NULL".toList
  | .compare type left right =>
    (expressionToString column left).bind fun arg₀ =>
      (expressionToString column right).map fun arg₁ => compareText duck type arg₀ arg₁
  | .between input lower upper lowerInclusive upperInclusive =>
    (expressionToString column input).bind fun input =>
      (expressionToString column lower).bind fun lower =>
        (expressionToString column upper).map fun upper =>
          let lowerComp := if lowerInclusive then CompareType.greaterThanOrEqualTo else .greaterThan
          let upperComp := if upperInclusive then CompareType.lessThanOrEqualTo else .lessThan
          '(' :: compareText duck lowerComp input lower ++ " AND ".toList ++ compareText duck upperComp input upper ++ [')']
  | .conjunction isOr children =>
    (joinConjunction isOr [] (expressionsToString column children)).map fun filters => '(' :: filters ++ [')']
  | .function name isOperator children =>
    functionToString name isOperator children (expressionsToString column children)
  | .columnRef _ => some column
  | .constant value => constantText duck value
  | .other _ => none

def expressionsToString (column : Text) : List BoundExpr → List (Option Text)
  | [] => []
  | child :: children => expressionToString column child :: expressionsToString column children

end

end PgDucklake.Filters
