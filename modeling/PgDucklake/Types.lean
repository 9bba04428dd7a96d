/-!
# Column types

The DuckDB types that the extension tells apart, as `DuckLakeTypes::FromString` returns them.
-/

namespace PgDucklake

/-- `LogicalTypeId`; `other` stands for the types that no switch of the extension names. -/
inductive LogicalTypeId where
  | boolean | tinyint | smallint | integer | bigint | hugeint | utinyint | usmallint | uinteger | ubigint | uhugeint
  | decimal | date | time | timeTz | timestamp | timestampTz | timestampSec | timestampMs | timestampNs | interval
  | uuid | varchar | blob | float | double | variant | other
  deriving DecidableEq, Repr

/-- A type with the properties of a decimal, which are 0 for the others. -/
structure LogicalType where
  id : LogicalTypeId
  width : Nat
  scale : Nat
  deriving DecidableEq, Repr

end PgDucklake
