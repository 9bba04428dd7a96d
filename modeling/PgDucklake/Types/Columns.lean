import PgDucklake.Types.Times
import PgDucklake.Decimal.Doubles

/-!
# Columns and their converters

Two tables decide how a column is scanned. `convertPostgresToBaseDuckColumnType` gives the type of its vector, from the
base type that a domain stands for; `getPostgresToDuckValueFn` picks the converter of its values, from the type of the
vector and the column's own type. `Converter.run` is what a converter makes of a Datum: an element of the vector, of the
width of the converter's C++ type.
-/

namespace PgDucklake.Types

open Lib Decimal

/-! ## Types of PostgreSQL and DuckDB -/

/-- The base types that have a case of their own. -/
inductive PgType
  | bool
  | char
  | int2
  | int4
  | int8
  | bpchar
  | text
  | varchar
  | date
  | timestamp
  | timestamptz
  | interval
  | bit
  | varbit
  | time
  | timetz
  | float4
  | float8
  | numeric
  | uuid
  | json
  | jsonb
  | regclass
  | bytea
  deriving DecidableEq, Repr

/-- The types that PostgreSQL's base types become. JSON is VARCHAR under another name; a DOUBLE remembers that it stands
for a numeric. -/
inductive BaseColumnType
  | boolean
  | tinyint
  | smallint
  | integer
  | uinteger
  | bigint
  | varchar
  | date
  | timestamp
  | timestampTz
  | interval
  | bit
  | time
  | timeTz
  | float
  | double (numericAsDouble : Bool)
  | decimal (type : DecimalType)
  | uuid
  | blob

def storageWidth : DecimalStorage → Nat
  | .int16 => 2
  | .int32 => 4
  | .int64 => 8
  | .hugeint => 16

/-- The size of an element of the physical type. -/
def BaseColumnType.width : BaseColumnType → Nat
  | .boolean => 1
  | .tinyint => 1
  | .smallint => 2
  | .integer => 4
  | .uinteger => 4
  | .bigint => 8
  | .varchar => 16
  | .date => 4
  | .timestamp => 8
  | .timestampTz => 8
  | .interval => 16
  | .bit => 16
  | .time => 8
  | .timeTz => 8
  | .float => 4
  | .double _ => 8
  | .decimal type => storageWidth type.storage
  | .uuid => 16
  | .blob => 16

/-- A column: its type or, if that is a domain, the base type; the type modifier of a numeric, if it has one. -/
structure ScanColumn where
  type : PgType
  domain : Bool := false
  typmod : Option (Int × Int) := none

/-- The precision and scale of a numeric that DuckDB has a DECIMAL for. -/
def decimalType (precision scale : Int) : Option DecimalType :=
  if h : 1 ≤ precision ∧ precision ≤ 38 ∧ 0 ≤ scale ∧ scale ≤ precision then
    some ⟨precision.toNat, scale.toNat, by omega, by omega⟩
  else none

/-- The type of the column's vector; `none` is a type that is not supported. -/
def convertPostgresToBaseDuckColumnType (convertUnsupportedNumericToDouble : Bool) (column : ScanColumn) :
    Option BaseColumnType :=
  match column.type with
  | .bool => some .boolean
  | .char => some .tinyint
  | .int2 => some .smallint
  | .int4 => some .integer
  | .int8 => some .bigint
  | .bpchar | .text | .varchar => some .varchar
  | .date => some .date
  | .timestamp => some .timestamp
  | .timestamptz => some .timestampTz
  | .interval => some .interval
  | .bit | .varbit => some .bit
  | .time => some .time
  | .timetz => some .timeTz
  | .float4 => some .float
  | .float8 => some (.double false)
  | .numeric =>
    match column.typmod.bind fun (precision, scale) => decimalType precision scale with
    | some type => some (.decimal type)
    | none => if convertUnsupportedNumericToDouble then some (.double true) else none
  | .uuid => some .uuid
  | .json | .jsonb => some .varchar
  | .regclass => some .uinteger
  | .bytea => some .blob

/-! ## Converters -/

/-- The C++ types that `AppendDatum` is used at. -/
inductive DatumType
  | bool
  | int16
  | int32
  | uint32
  | int64
  | float
  | double
  | interval
  | dtime
  | dtimeTz
  | hugeint
  deriving DecidableEq, Repr

inductive Converter
  | appendDatum (type : DatumType)
  | appendString (isBpchar : Bool)
  | appendJsonb
  | appendDate
  | appendTimestamp
  | appendTimestampTz
  | appendBit
  | appendDecimal (storage : DecimalStorage)
  | appendDecimalDouble
  | appendBlob
  deriving DecidableEq, Repr

/-- The converter of a column, whose own type is that of a domain if it is one. -/
def getPostgresToDuckValueFn (column : ScanColumn) : BaseColumnType → Converter
  | .boolean => .appendDatum .bool
  | .tinyint | .smallint => .appendDatum .int16
  | .integer => .appendDatum .int32
  | .uinteger => .appendDatum .uint32
  | .bigint => .appendDatum .int64
  | .varchar =>
    if column.type = .jsonb ∧ !column.domain then .appendJsonb
    else if column.type = .bpchar ∧ !column.domain then .appendString true
    else .appendString false
  | .date => .appendDate
  | .timestamp => .appendTimestamp
  | .timestampTz => .appendTimestampTz
  | .interval => .appendDatum .interval
  | .bit => .appendBit
  | .time => .appendDatum .dtime
  | .timeTz => .appendDatum .dtimeTz
  | .float => .appendDatum .float
  | .double numericAsDouble =>
    if column.type = .numeric ∧ !column.domain ∧ numericAsDouble then .appendDecimalDouble
    else .appendDatum .double
  | .decimal type => .appendDecimal type.storage
  | .uuid => .appendDatum .hugeint
  | .blob => .appendBlob

/-- The width of a converter's C++ type. -/
def Converter.width : Converter → Nat
  | .appendDatum .bool => 1
  | .appendDatum .int16 => 2
  | .appendDatum .int32 => 4
  | .appendDatum .uint32 => 4
  | .appendDatum .int64 => 8
  | .appendDatum .float => 4
  | .appendDatum .double => 8
  | .appendDatum .interval => 16
  | .appendDatum .dtime => 8
  | .appendDatum .dtimeTz => 8
  | .appendDatum .hugeint => 16
  | .appendString _ => 16
  | .appendJsonb => 16
  | .appendDate => 4
  | .appendTimestamp => 8
  | .appendTimestampTz => 8
  | .appendBit => 16
  | .appendDecimal storage => storageWidth storage
  | .appendDecimalDouble => 8
  | .appendBlob => 16

/-! ## Datums and elements -/

/-- A text of PostgreSQL holds no NUL. -/
structure PgText where
  bytes : List UInt8
  noNul : 0 ∉ bytes
  deriving DecidableEq

structure PgInterval where
  month : BitVec 32
  day : BitVec 32
  time : BitVec 64
  deriving DecidableEq

structure PgTimeTz where
  time : BitVec 64
  zone : BitVec 32
  deriving DecidableEq

/-- A value that is not NULL, by what its Datum holds or points to. `J` is what a jsonb is. -/
inductive PgDatum (J : Type)
  | word (w : BitVec 64)
  | date (d : I32)
  | timestamp (t : I64)
  | text (s : PgText)
  | bytes (b : List UInt8)
  | jsonb (j : J)
  | bits (b : List Bool)
  | interval (i : PgInterval)
  | timetz (t : PgTimeTz)
  | uuid (u : BitVec 128)
  | numeric (x : Numeric)

/-- A `string_t`: either what it refers to lives as long as the vector, or it is gone with a temporary. -/
inductive DuckString
  | stable (bytes : List UInt8)
  | dangling
  deriving DecidableEq, Repr

/-- An element of a vector: bytes of a fixed-width value, least significant first, or a string. -/
inductive Element
  | fixed (width value : Nat)
  | string (s : DuckString)
  deriving DecidableEq, Repr

def Element.width : Element → Nat
  | .fixed width _ => width
  | .string _ => 16

/-- What the conversions call of DuckDB and PostgreSQL. -/
structure Api (J : Type) where
  /-- `Value` takes UTF-8 only. -/
  stringIsValid : List UInt8 → Bool
  /-- `Bit::ToBit`, which raises an error for some strings. -/
  toBit : List Bool → Option (List UInt8)
  /-- The two parts of a `dtime_tz_t`. -/
  encodeMicros : BitVec 64 → BitVec 64
  encodeOffset : BitVec 32 → BitVec 64
  /-- The text of a jsonb, and the bytes it is stored as. -/
  jsonbToCString : J → List UInt8
  jsonbBytes : J → List UInt8
  doubles : Doubles
  /-- Where a numeric lies, taken for the bits of a `double`. -/
  numericPointer : Numeric → BitVec 64

/-- An integer in so many bytes. -/
def Element.ofInt (width : Nat) (i : Int) : Element := .fixed width (i % 256 ^ width).toNat

/-- Strings of up to this many bytes are held inside a `string_t`. -/
def inlineLength : Nat := 12

/-- A `string_t` made of a temporary `std::string` and stored as it is. -/
def DuckString.ofTemporary (bytes : List UInt8) : DuckString :=
  if bytes.length ≤ inlineLength then .stable bytes else .dangling

/-- `bpchartruelen`: the length without the blanks at the end. -/
def trimBlanks (bytes : List UInt8) : List UInt8 := (bytes.reverse.dropWhile (· == 32)).reverse

def PgInterval.element (i : PgInterval) : Element :=
  .fixed 16 (i.month.toNat + i.day.toNat * 2 ^ 32 + i.time.toNat * 2 ^ 64)

def PgTimeTz.element {J : Type} (api : Api J) (t : PgTimeTz) : Element :=
  .fixed 8 (api.encodeMicros t.time ||| api.encodeOffset (-t.zone)).toNat

/-- The bytes reversed and the top bit flipped, so that the order of integers is that of UUIDs. -/
def uuidElement (u : BitVec 128) : Element := .fixed 16 (u ^^^ BitVec.twoPow 128 127).toNat

/-- `DatumGet<T>`. -/
def datumGet {J : Type} (api : Api J) : DatumType → PgDatum J → Option Element
  | .bool, .word w => some (.fixed 1 (if w = 0 then 0 else 1))
  | .int16, .word w => some (.fixed 2 (w.toNat % 2 ^ 16))
  | .int32, .word w => some (.fixed 4 (w.toNat % 2 ^ 32))
  | .uint32, .word w => some (.fixed 4 (w.toNat % 2 ^ 32))
  | .int64, .word w => some (.fixed 8 w.toNat)
  | .float, .word w => some (.fixed 4 (w.toNat % 2 ^ 32))
  | .double, .word w => some (.fixed 8 w.toNat)
  | .double, .numeric x => some (.fixed 8 (api.numericPointer x).toNat)
  | .interval, .interval i => some i.element
  | .dtime, .word w => some (.fixed 8 w.toNat)
  | .dtimeTz, .timetz t => some (t.element api)
  | .hugeint, .uuid u => some (uuidElement u)
  | _, _ => none

/-- The Datums of a type. -/
def PgDatum.OfType {J : Type} : PgType → PgDatum J → Prop
  | .bool, .word _ | .char, .word _ | .int2, .word _ | .int4, .word _ | .int8, .word _ => True
  | .time, .word _ | .float4, .word _ | .float8, .word _ | .regclass, .word _ => True
  | .bpchar, .text _ | .text, .text _ | .varchar, .text _ | .json, .text _ => True
  | .date, .date d => PgDate d
  | .timestamp, .timestamp t | .timestamptz, .timestamp t => PgTimestamp t
  | .interval, .interval _ | .bit, .bits _ | .varbit, .bits _ | .timetz, .timetz _ => True
  | .numeric, .numeric _ | .uuid, .uuid _ | .jsonb, .jsonb _ | .bytea, .bytes _ => True
  | _, _ => False

inductive ScanError
  | conversion (error : ConversionError)
  | bitString
  | decimalRange
  /-- A computation that leaves the range of its type. -/
  | decimalOverflow
  /-- A Datum of a type that the converter is never chosen for. -/
  | mismatch
  deriving DecidableEq, Repr

/-- What a converter makes of a Datum. -/
def Converter.run {J : Type} (api : Api J) : Converter → PgDatum J → Except ScanError Element
  | .appendDatum type, d =>
    match datumGet api type d with
    | some e => .ok e
    | none => .error .mismatch
  | .appendString isBpchar, .text s => .ok (.string (.stable (if isBpchar then trimBlanks s.bytes else s.bytes)))
  | .appendString _, .jsonb j => .ok (.string (.stable (api.jsonbBytes j)))
  | .appendJsonb, .jsonb j => .ok (.string (.stable (api.jsonbToCString j)))
  | .appendDate, .date d => .ok (.ofInt 4 (Types.appendDate d).val)
  | .appendTimestamp, .timestamp t =>
    match Types.appendTimestamp t with
    | .ok t => .ok (.ofInt 8 t.val)
    | .error e => .error (.conversion e)
  | .appendTimestampTz, .timestamp t =>
    match Types.appendTimestampTz t with
    | .ok t => .ok (.ofInt 8 t.val)
    | .error e => .error (.conversion e)
  | .appendBit, .bits b =>
    match api.toBit b with
    | some bytes => .ok (.string (.ofTemporary bytes))
    | none => .error .bitString
  | .appendDecimal storage, .numeric x =>
    match convertDecimal storage x.toNumericVar with
    | .value n => .ok (.ofInt (storageWidth storage) n)
    | .error => .error .decimalRange
    | .overflow => .error .decimalOverflow
  | .appendDecimalDouble, .numeric x =>
    .ok (.fixed 8 (convertDecimalDouble api.doubles x.toNumericVar).toNat)
  | .appendBlob, .bytes b => .ok (.string (.stable b))
  | _, _ => .error .mismatch

/-! ## Scanned columns -/

section Scanned

variable {J : Type}

/-- A column that the scan accepts, with the type of its vector. -/
structure ScannedColumn where
  column : ScanColumn
  convertUnsupportedNumericToDouble : Bool
  logical : BaseColumnType
  accepted : convertPostgresToBaseDuckColumnType convertUnsupportedNumericToDouble column = some logical

/-- A time of a day and an offset of less than 16 hours. -/
def PgTimeTz.InRange (t : PgTimeTz) : Prop :=
  t.time.toNat ≤ 86400000000 ∧ -57599 ≤ t.zone.toInt ∧ t.zone.toInt ≤ 57599

/-- The values that a column holds. -/
def HeldBy (c : ScannedColumn) (d : PgDatum J) : Prop :=
  d.OfType c.column.type ∧
    (∀ t x, c.logical = .decimal t → d = .numeric x → ∃ y : ColumnNumeric t, y.toNumeric = x) ∧
    ∀ t, d = .timetz t → t.InRange

def ScannedColumn.Value (J : Type) (c : ScannedColumn) : Type := { d : PgDatum J // HeldBy c d }

/-- `ConvertPostgresToDuckValue`. -/
def ScannedColumn.convert (api : Api J) (c : ScannedColumn) (d : c.Value J) : Except ScanError Element :=
  (getPostgresToDuckValueFn c.column c.logical).run api d.val

theorem width_of_run {api : Api J} {converter : Converter} {d : PgDatum J} {e : Element}
    (h : converter.run api d = .ok e) : e.width = converter.width := by
  cases converter with
  | appendDatum type =>
    cases type <;> cases d <;> first | (cases h; rfl) | cases h
  | appendTimestamp =>
    cases d with
    | timestamp t =>
      simp only [Converter.run] at h
      split at h <;> cases h
      rfl
    | _ => cases h
  | appendTimestampTz =>
    cases d with
    | timestamp t =>
      simp only [Converter.run] at h
      split at h <;> cases h
      rfl
    | _ => cases h
  | appendBit =>
    cases d with
    | bits b =>
      simp only [Converter.run] at h
      split at h <;> cases h
      rfl
    | _ => cases h
  | appendDecimal storage =>
    cases d with
    | numeric x =>
      simp only [Converter.run] at h
      split at h <;> cases h
      rfl
    | _ => cases h
  | appendString | appendJsonb | appendDate | appendDecimalDouble | appendBlob =>
    cases d <;> first | (cases h; rfl) | cases h

theorem converter_width (column : ScanColumn) {logical : BaseColumnType} (h : logical ≠ .tinyint) :
    (getPostgresToDuckValueFn column logical).width = logical.width := by
  cases logical with
  | tinyint => exact absurd rfl h
  | varchar =>
    rw [getPostgresToDuckValueFn]
    split
    · rfl
    · split <;> rfl
  | double numericAsDouble =>
    rw [getPostgresToDuckValueFn]
    split <;> rfl
  | _ => rfl

theorem ScannedColumn.tinyint_iff (c : ScannedColumn) : c.logical = .tinyint ↔ c.column.type = .char := by
  obtain ⟨⟨type, domain, typmod⟩, convertUnsupported, logical, haccepted⟩ := c
  cases type with
  | numeric =>
    simp only [convertPostgresToBaseDuckColumnType] at haccepted
    split at haccepted
    · cases haccepted
      exact ⟨nofun, nofun⟩
    · split at haccepted <;> cases haccepted
      exact ⟨nofun, nofun⟩
  | char =>
    cases haccepted
    exact ⟨fun _ => rfl, fun _ => rfl⟩
  | _ =>
    cases haccepted
    exact ⟨nofun, nofun⟩

theorem BaseColumnType.width_pos (logical : BaseColumnType) : 0 < logical.width := by
  cases logical with
  | decimal type =>
    rw [BaseColumnType.width]
    cases type.storage <;> decide
  | _ => simp [BaseColumnType.width]

theorem BaseColumnType.width_le (logical : BaseColumnType) : logical.width ≤ 16 := by
  cases logical with
  | decimal type =>
    rw [BaseColumnType.width]
    cases type.storage <;> decide
  | _ => simp [BaseColumnType.width]

theorem ScannedColumn.convert_width {api : Api J} {c : ScannedColumn} (hchar : c.column.type ≠ .char) (d : c.Value J)
    (e : Element) (h : c.convert api d = .ok e) : e.width = c.logical.width :=
  (width_of_run h).trans (converter_width c.column fun htiny => hchar (c.tinyint_iff.mp htiny))

end Scanned

end PgDucklake.Types
