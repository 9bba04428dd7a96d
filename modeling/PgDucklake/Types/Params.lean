import PgDucklake.Types.Columns

/-!
# Parameters

`ConvertPostgresParameterToDuckValue` is a second table of conversions, for the parameters of a statement. It shifts
dates and timestamps without looking at infinities or at DuckDB's range, keeps the blanks of a `char(n)`, and hands its
strings over whole. `parameters_alike_iff` says for which Datums it makes the value that a scan would.
-/

namespace PgDucklake.Types

open Lib

variable {J : Type}

inductive ParameterError
  | unsupported
  | invalidUnicode
  | bitString
  deriving DecidableEq, Repr

/-- A value that both tables read off the Datum with the same function. -/
def ofDatum (api : Api J) (logical : BaseColumnType) (type : DatumType) (d : PgDatum J) :
    Except ParameterError (BaseColumnType × Element) :=
  match datumGet api type d with
  | some e => .ok (logical, e)
  | none => .error .unsupported

/-- The text as a C string. -/
def ofText (api : Api J) : PgDatum J → Except ParameterError (BaseColumnType × Element)
  | .text s => if api.stringIsValid s.bytes then .ok (.varchar, .string (.stable s.bytes)) else .error .invalidUnicode
  | _ => .error .unsupported

def ofTimestamp (logical : BaseColumnType) : PgDatum J → Except ParameterError (BaseColumnType × Element)
  | .timestamp t => .ok (logical, .ofInt 8 (I64.wrap (t.val + timestampOffset)).val)
  | _ => .error .unsupported

def convertPostgresParameterToDuckValue (api : Api J) (d : PgDatum J) :
    PgType → Except ParameterError (BaseColumnType × Element)
  | .bool => ofDatum api .boolean .bool d
  | .int2 => ofDatum api .smallint .int16 d
  | .int4 => ofDatum api .integer .int32 d
  | .int8 => ofDatum api .bigint .int64 d
  | .bpchar | .text | .json | .varchar => ofText api d
  | .date =>
    match d with
    | .date d => .ok (.date, .ofInt 4 (I32.wrap (d.val + dateOffset)).val)
    | _ => .error .unsupported
  | .timestamp => ofTimestamp .timestamp d
  | .timestamptz => ofTimestamp .timestampTz d
  | .interval => ofDatum api .interval .interval d
  | .bit | .varbit =>
    match d with
    | .bits b =>
      match api.toBit b with
      | some bytes => .ok (.bit, .string (.stable bytes))
      | none => .error .bitString
    | _ => .error .unsupported
  | .time => ofDatum api .time .dtime d
  | .timetz => ofDatum api .timeTz .dtimeTz d
  | .float4 => ofDatum api .float .float d
  | .float8 => ofDatum api (.double false) .double d
  | .uuid => ofDatum api .uuid .hugeint d
  | _ => .error .unsupported

/-- The types that have a case. -/
def parameterTypes : List PgType :=
  [.bool, .int2, .int4, .int8, .bpchar, .text, .json, .varchar, .date, .timestamp, .timestamptz, .interval, .bit, .varbit,
    .time, .timetz, .float4, .float8, .uuid]

/-- A parameter of one of these types. -/
structure Parameter (J : Type) where
  type : PgType
  datum : PgDatum J
  supported : type ∈ parameterTypes
  typed : datum.OfType type

/-- What a scan makes of the Datum in a column of that type. -/
def scanned (api : Api J) (type : PgType) (d : PgDatum J) : Option (Except ScanError (BaseColumnType × Element)) :=
  (convertPostgresToBaseDuckColumnType false { type }).map fun logical =>
    ((getPostgresToDuckValueFn { type } logical).run api d).map fun e => (logical, e)

/-- The same value, or an error from both. -/
def ConvertsAlike (api : Api J) (p : Parameter J) : Prop :=
  match convertPostgresParameterToDuckValue api p.datum p.type, scanned api p.type p.datum with
  | .ok v, some (.ok w) => v = w
  | .error _, some (.error _) => True
  | _, _ => False

/-- Finite dates, timestamps in DuckDB's range, texts that are UTF-8 and, if blank-padded, have no blanks at the end, and
bit strings that fit into a `string_t`. -/
def AlikeWhen (api : Api J) : PgType → PgDatum J → Prop
  | .date, .date d => d ≠ dateNobegin ∧ d ≠ dateNoend
  | .timestamp, .timestamp t | .timestamptz, .timestamp t =>
    minTimestamp ≤ t.val + timestampOffset ∧ t.val + timestampOffset < maxTimestamp
  | .bpchar, .text s => trimBlanks s.bytes = s.bytes ∧ api.stringIsValid s.bytes = true
  | .text, .text s | .varchar, .text s | .json, .text s => api.stringIsValid s.bytes = true
  | .bit, .bits b | .varbit, .bits b => ∀ bytes, api.toBit b = some bytes → bytes.length ≤ inlineLength
  | _, _ => True

/-! ## The types that differ -/

theorem ofInt_I32_inj {a b : I32} : Element.ofInt 4 a.val = Element.ofInt 4 b.val ↔ a = b := by
  refine ⟨fun h => I32.ext_val ?_, fun h => by rw [h]⟩
  have hvalue := (Element.fixed.inj h).2
  have := a.ge
  have := a.lt
  have := b.ge
  have := b.lt
  omega

theorem ofInt_I64_inj {a b : I64} : Element.ofInt 8 a.val = Element.ofInt 8 b.val ↔ a = b := by
  refine ⟨fun h => I64.ext_val ?_, fun h => by rw [h]⟩
  have hvalue := (Element.fixed.inj h).2
  have := a.ge
  have := a.lt
  have := b.ge
  have := b.lt
  omega

theorem date_alike_iff (d : I32) : I32.wrap (d.val + dateOffset) = appendDate d ↔ d ≠ dateNobegin ∧ d ≠ dateNoend := by
  unfold appendDate
  split
  · rename_i hbegin
    subst hbegin
    simp only [ne_eq, not_true_eq_false, false_and, iff_false]
    decide
  split
  · rename_i hend
    subst hend
    simp only [ne_eq, not_true_eq_false, and_false, iff_false]
    decide
  · exact iff_of_true rfl ⟨‹_›, ‹_›⟩

theorem timestamp_alike_iff (err : ConversionError) (t : I64) :
    appendShifted err t = .ok (I64.wrap (t.val + timestampOffset)) ↔
      minTimestamp ≤ t.val + timestampOffset ∧ t.val + timestampOffset < maxTimestamp := by
  constructor
  · intro h
    obtain ⟨rfl, hduck⟩ | ⟨rfl, hduck⟩ | ⟨hvalid, hval⟩ := appendShifted_ok h
    · revert hduck
      decide
    · revert hduck
      decide
    · rw [validTimestamp_iff, hval] at hvalid
      exact hvalid
  · intro hrange
    have hval : (I64.wrap (t.val + timestampOffset)).val = t.val + timestampOffset := by
      simp only [minTimestamp, maxTimestamp] at hrange
      exact I64.val_wrap (by omega) (by omega)
    have hbegin : t ≠ dtNobegin := by
      rintro rfl
      revert hrange
      decide
    have hend : t ≠ dtNoend := by
      rintro rfl
      revert hrange
      decide
    rw [appendShifted, if_neg hbegin, if_neg hend, if_pos ((validTimestamp_iff _).mpr (by rwa [hval]))]

theorem timestamp_result_iff (err : ConversionError) (logical : BaseColumnType) (t : I64) :
    (match appendShifted err t with
      | .ok u => (logical, Element.ofInt 8 (I64.wrap (t.val + timestampOffset)).val) = (logical, Element.ofInt 8 u.val)
      | .error _ => False) ↔
      minTimestamp ≤ t.val + timestampOffset ∧ t.val + timestampOffset < maxTimestamp := by
  rw [← timestamp_alike_iff err t]
  cases appendShifted err t with
  | error => simp
  | ok u => simp only [Prod.mk.injEq, true_and, ofInt_I64_inj, Except.ok.injEq, eq_comm]

/-! ## All types -/

/-- A parameter becomes the value that a scan makes of the same Datum, or both raise an error, exactly for the Datums of
`AlikeWhen`. -/
theorem parameters_alike_iff (api : Api J) (p : Parameter J) : ConvertsAlike api p ↔ AlikeWhen api p.type p.datum := by
  obtain ⟨type, datum, hsupported, htyped⟩ := p
  cases type with
  | char | numeric | jsonb | regclass | bytea => exact absurd hsupported (by decide)
  | bool | int2 | int4 | int8 | time | float4 | float8 =>
    cases datum with
    | word w => exact iff_of_true rfl trivial
    | _ => exact htyped.elim
  | interval =>
    cases datum with
    | interval i => exact iff_of_true rfl trivial
    | _ => exact htyped.elim
  | timetz =>
    cases datum with
    | timetz t => exact iff_of_true rfl trivial
    | _ => exact htyped.elim
  | uuid =>
    cases datum with
    | uuid u => exact iff_of_true rfl trivial
    | _ => exact htyped.elim
  | text | varchar | json =>
    cases datum with
    | text s =>
      simp only [ConvertsAlike, convertPostgresParameterToDuckValue, ofText, AlikeWhen]
      cases api.stringIsValid s.bytes with
      | true => exact iff_of_true rfl rfl
      | false => exact iff_of_false id Bool.false_ne_true
    | _ => exact htyped.elim
  | bpchar =>
    cases datum with
    | text s =>
      simp only [ConvertsAlike, convertPostgresParameterToDuckValue, ofText, AlikeWhen]
      cases api.stringIsValid s.bytes with
      | false => exact iff_of_false id fun h => Bool.false_ne_true h.2
      | true =>
        show (BaseColumnType.varchar, Element.string (.stable s.bytes)) =
          (BaseColumnType.varchar, Element.string (.stable (trimBlanks s.bytes))) ↔ _
        simp [eq_comm]
    | _ => exact htyped.elim
  | date =>
    cases datum with
    | date d =>
      show (BaseColumnType.date, Element.ofInt 4 (I32.wrap (d.val + dateOffset)).val) =
        (BaseColumnType.date, Element.ofInt 4 (appendDate d).val) ↔ _
      rw [Prod.mk.injEq, ofInt_I32_inj, date_alike_iff]
      exact and_iff_right rfl
    | _ => exact htyped.elim
  | timestamp =>
    cases datum with
    | timestamp t =>
      refine Iff.trans ?_ (timestamp_result_iff .timestampOutOfRange .timestamp t)
      simp only [ConvertsAlike, convertPostgresParameterToDuckValue, ofTimestamp, scanned,
        convertPostgresToBaseDuckColumnType, getPostgresToDuckValueFn, Converter.run, appendTimestamp, Option.map_some]
      cases appendShifted .timestampOutOfRange t <;> rfl
    | _ => exact htyped.elim
  | timestamptz =>
    cases datum with
    | timestamp t =>
      refine Iff.trans ?_ (timestamp_result_iff .timestampTzOutOfRange .timestampTz t)
      simp only [ConvertsAlike, convertPostgresParameterToDuckValue, ofTimestamp, scanned,
        convertPostgresToBaseDuckColumnType, getPostgresToDuckValueFn, Converter.run, appendTimestampTz, Option.map_some]
      cases appendShifted .timestampTzOutOfRange t <;> rfl
    | _ => exact htyped.elim
  | bit | varbit =>
    cases datum with
    | bits b =>
      simp only [ConvertsAlike, convertPostgresParameterToDuckValue, scanned, convertPostgresToBaseDuckColumnType,
        getPostgresToDuckValueFn, Converter.run, Option.map_some, AlikeWhen]
      cases api.toBit b with
      | none => exact iff_of_true trivial (by simp)
      | some bytes =>
        simp only [Except.map, DuckString.ofTemporary, Prod.mk.injEq, true_and, Element.string.injEq,
          Option.some.injEq, forall_eq']
        split <;> simp [*]
    | _ => exact htyped.elim

/-- `'infinity'::date` becomes a finite date, and `'ab  '::char(4)` keeps its blanks. -/
theorem infinite_date_and_padding_differ :
    (∃ p : Parameter Unit, p.type = .date ∧ p.datum = .date dateNoend ∧ ∀ api, ¬ ConvertsAlike api p) ∧
      ∃ p : Parameter Unit, p.type = .bpchar ∧ p.datum = .text ⟨[97, 98, 32, 32], by decide⟩ ∧
        ∀ api, ¬ ConvertsAlike api p := by
  refine ⟨⟨⟨.date, .date dateNoend, by decide, .inr (.inl rfl)⟩, rfl, rfl, fun api h => ?_⟩,
    ⟨.bpchar, .text ⟨[97, 98, 32, 32], by decide⟩, by decide, trivial⟩, rfl, rfl, fun api h => ?_⟩
  · have hdate : (BaseColumnType.date, Element.ofInt 4 (I32.wrap (dateNoend.val + dateOffset)).val) =
        (BaseColumnType.date, Element.ofInt 4 (appendDate dateNoend).val) := h
    have hsame := (date_alike_iff dateNoend).mp (ofInt_I32_inj.mp (Prod.mk.inj hdate).2)
    exact hsame.2 rfl
  · simp only [ConvertsAlike, convertPostgresParameterToDuckValue, ofText] at h
    cases hvalid : api.stringIsValid [97, 98, 32, 32] with
    | false =>
      rw [hvalid] at h
      exact h
    | true =>
      rw [hvalid] at h
      have htext : Element.string (.stable [97, 98, 32, 32]) = Element.string (.stable [97, 98]) := (Prod.mk.inj h).2
      revert htext
      decide

end PgDucklake.Types
