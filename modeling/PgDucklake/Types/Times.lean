import PgDucklake.Lib.Words

/-!
# Dates and timestamps

PostgreSQL counts from 2000, DuckDB from 1970, and each has its own values for the infinities. A scan shifts dates and
timestamps one way (`appendDate`, `appendTimestamp`), a result the other way (`convertDateDatum`,
`convertTimestampDatum`), from any of DuckDB's four units. `conversions_exact` says what comes back and for which raw
values a product that wrapped is taken for a timestamp.
-/

namespace PgDucklake.Types

open Lib

inductive ConversionError
  | dateOutOfRange
  | timestampOutOfRange
  | timestampTzOutOfRange
  deriving DecidableEq, Repr

/-! ## The two calendars -/

/-- `PGDUCKDB_DUCK_DATE_OFFSET`, the days from 1970 to 2000. -/
def dateOffset : Int := 10957

/-- `PGDUCKDB_DUCK_TIMESTAMP_OFFSET`, in microseconds. -/
def timestampOffset : Int := dateOffset * 86400000000

/-- `DATEVAL_NOBEGIN` and `DATEVAL_NOEND`. -/
def dateNobegin : I32 := ⟨-2 ^ 31, by decide, by decide⟩

def dateNoend : I32 := ⟨2 ^ 31 - 1, by decide, by decide⟩

/-- DuckDB's infinite dates. -/
def duckDateNinfinity : I32 := ⟨-(2 ^ 31 - 1), by decide, by decide⟩

def duckDateInfinity : I32 := ⟨2 ^ 31 - 1, by decide, by decide⟩

/-- `DT_NOBEGIN` and `DT_NOEND`. -/
def dtNobegin : I64 := ⟨-2 ^ 63, by decide, by decide⟩

def dtNoend : I64 := ⟨2 ^ 63 - 1, by decide, by decide⟩

/-- DuckDB's infinite timestamps, in every unit. -/
def duckNinfinity : I64 := ⟨-(2 ^ 63 - 1), by decide, by decide⟩

def duckInfinity : I64 := ⟨2 ^ 63 - 1, by decide, by decide⟩

/-- `PGDUCKDB_PG_MIN_DATE_VALUE` and `PGDUCKDB_PG_MAX_DATE_VALUE`: 4714-11-24 BC and 5874897-12-31, from 1970. -/
def pgMinDate : Int := -2440588

def pgMaxDate : Int := 2145042905

/-- `PGDUCKDB_MIN_TIMESTAMP_VALUE` and `PGDUCKDB_MAX_TIMESTAMP_VALUE`, from 1970. -/
def minTimestamp : Int := -210866803200000000

def maxTimestamp : Int := 9223371244800000000

/-- The dates of PostgreSQL. -/
def PgDate (d : I32) : Prop :=
  d = dateNobegin ∨ d = dateNoend ∨ (pgMinDate ≤ d.val + dateOffset ∧ d.val + dateOffset ≤ pgMaxDate)

/-- The timestamps of PostgreSQL: from 4714-11-24 BC to before 294277. -/
def PgTimestamp (t : I64) : Prop :=
  t = dtNobegin ∨ t = dtNoend ∨ (-211813488000000000 ≤ t.val ∧ t.val < 9223371331200000000)

/-! ## To DuckDB -/

def appendDate (date : I32) : I32 :=
  if date = dateNobegin then duckDateNinfinity
  else if date = dateNoend then duckDateInfinity
  else .wrap (date.val + dateOffset)

def validTimestampOrTimestampTz (t : I64) : Bool := minTimestamp ≤ t.val && t.val < maxTimestamp

/-- A timestamp of either kind, with the error of its kind. -/
def appendShifted (err : ConversionError) (timestamp : I64) : Except ConversionError I64 :=
  if timestamp = dtNobegin then .ok duckNinfinity
  else if timestamp = dtNoend then .ok duckInfinity
  else if validTimestampOrTimestampTz (.wrap (timestamp.val + timestampOffset)) then
    .ok (.wrap (timestamp.val + timestampOffset))
  else .error err

def appendTimestamp : I64 → Except ConversionError I64 := appendShifted .timestampOutOfRange

def appendTimestampTz : I64 → Except ConversionError I64 := appendShifted .timestampTzOutOfRange

/-! ## From DuckDB -/

def validDate (dt : I32) : Bool :=
  dt == duckDateInfinity || dt == duckDateNinfinity || (pgMinDate ≤ dt.val && dt.val ≤ pgMaxDate)

def convertDateDatum (date : I32) : Except ConversionError I32 :=
  if !validDate date then .error .dateOutOfRange
  else if date = duckDateNinfinity then .ok dateNobegin
  else if date = duckDateInfinity then .ok dateNoend
  else .ok (.wrap (date.val - dateOffset))

/-- `TIMESTAMP`, `TIMESTAMP_S`, `TIMESTAMP_MS` and `TIMESTAMP_NS`. -/
inductive TimestampUnit
  | microseconds
  | seconds
  | milliseconds
  | nanoseconds
  deriving DecidableEq, Repr

/-- Division that rounds towards zero. -/
def truncated (n : Int) : Int := if 0 ≤ n then n / 1000 else -(-n / 1000)

/-- The raw value in microseconds, on 64 bits. -/
def normalized (raw : I64) : TimestampUnit → I64
  | .microseconds => raw
  | .seconds => .wrap (raw.val * 1000000)
  | .milliseconds => .wrap (raw.val * 1000)
  | .nanoseconds => .wrap (truncated raw.val)

/-- Both kinds of timestamps, from microseconds. -/
def convertShifted (err : ConversionError) (raw micros : I64) : Except ConversionError I64 :=
  if raw = duckNinfinity then .ok dtNobegin
  else if raw = duckInfinity then .ok dtNoend
  else if validTimestampOrTimestampTz micros then .ok (.wrap (micros.val - timestampOffset))
  else .error err

def convertTimestampDatum (unit : TimestampUnit) (raw : I64) : Except ConversionError I64 :=
  convertShifted .timestampOutOfRange raw (normalized raw unit)

def convertTimestampTzDatum (raw : I64) : Except ConversionError I64 :=
  convertShifted .timestampTzOutOfRange raw raw

/-! ## What the conversions should do -/

/-- The instant of a raw value, in microseconds from 1970. -/
def exactMicros (raw : I64) : TimestampUnit → Int
  | .microseconds => raw.val
  | .seconds => raw.val * 1000000
  | .milliseconds => raw.val * 1000
  | .nanoseconds => truncated raw.val

/-- The PostgreSQL timestamp of an instant, of an infinity if the raw value is one. -/
def SameInstant (raw : I64) (micros : Int) (t : I64) : Prop :=
  PgTimestamp t ∧
    if raw = duckNinfinity then t = dtNobegin
    else if raw = duckInfinity then t = dtNoend
    else t.val + timestampOffset = micros

/-- A raw value becomes the timestamp of its instant, or an error. -/
def TimestampExact (unit : TimestampUnit) (raw : I64) : Prop :=
  ∀ t, convertTimestampDatum unit raw = .ok t → SameInstant raw (exactMicros raw unit) t

/-- The product that makes microseconds of the raw value leaves 64 bits and comes back into the range of timestamps. -/
def WrapsIntoRange (unit : TimestampUnit) (raw : I64) : Prop :=
  raw ≠ duckNinfinity ∧ raw ≠ duckInfinity ∧ (normalized raw unit).val ≠ exactMicros raw unit ∧
    validTimestampOrTimestampTz (normalized raw unit) = true

/-! ## What each conversion returns -/

theorem validTimestamp_iff (t : I64) :
    validTimestampOrTimestampTz t = true ↔ minTimestamp ≤ t.val ∧ t.val < maxTimestamp := by
  simp [validTimestampOrTimestampTz]

theorem duckNinfinity_ne_duckInfinity : duckNinfinity ≠ duckInfinity := by decide

variable {err : ConversionError} {t duck : I64}

theorem appendShifted_ok (h : appendShifted err t = .ok duck) :
    (t = dtNobegin ∧ duck = duckNinfinity) ∨ (t = dtNoend ∧ duck = duckInfinity) ∨
      (validTimestampOrTimestampTz duck = true ∧ duck.val = t.val + timestampOffset) := by
  unfold appendShifted at h
  split at h
  · rename_i hbegin
    cases h
    exact .inl ⟨hbegin, rfl⟩
  split at h
  · rename_i hend
    cases h
    exact .inr (.inl ⟨hend, rfl⟩)
  split at h
  · rename_i hvalid
    cases h
    refine .inr (.inr ⟨hvalid, ?_⟩)
    have hge := t.ge
    have hlt := t.lt
    -- past the largest word the sum would come back among the smallest ones, far below the range
    rw [validTimestamp_iff] at hvalid
    simp only [I64.wrap, minTimestamp, maxTimestamp, timestampOffset, dateOffset] at hvalid ⊢
    omega
  · cases h

variable {raw micros : I64}

theorem convertShifted_finite (err : ConversionError) (hninf : raw ≠ duckNinfinity) (hinf : raw ≠ duckInfinity)
    (hvalid : validTimestampOrTimestampTz micros = true) :
    ∃ t, convertShifted err raw micros = .ok t ∧ t.val + timestampOffset = micros.val := by
  refine ⟨.wrap (micros.val - timestampOffset), ?_, ?_⟩
  · unfold convertShifted
    rw [if_neg hninf, if_neg hinf, if_pos hvalid]
  · rw [validTimestamp_iff] at hvalid
    simp only [I64.wrap, minTimestamp, maxTimestamp, timestampOffset, dateOffset] at hvalid ⊢
    omega

theorem convertShifted_ok (h : convertShifted err raw micros = .ok t) :
    (raw = duckNinfinity ∧ t = dtNobegin) ∨ (raw = duckInfinity ∧ t = dtNoend) ∨
      (raw ≠ duckNinfinity ∧ raw ≠ duckInfinity ∧ validTimestampOrTimestampTz micros = true ∧
        t.val + timestampOffset = micros.val) := by
  by_cases hninf : raw = duckNinfinity
  · rw [convertShifted, if_pos hninf] at h
    cases h
    exact .inl ⟨hninf, rfl⟩
  by_cases hinf : raw = duckInfinity
  · rw [convertShifted, if_neg hninf, if_pos hinf] at h
    cases h
    exact .inr (.inl ⟨hinf, rfl⟩)
  by_cases hvalid : validTimestampOrTimestampTz micros = true
  · obtain ⟨t', ht', hval⟩ := convertShifted_finite err hninf hinf hvalid
    rw [ht'] at h
    cases h
    exact .inr (.inr ⟨hninf, hinf, hvalid, hval⟩)
  · rw [convertShifted, if_neg hninf, if_neg hinf, if_neg hvalid] at h
    cases h

/-! ## Round trips and instants -/

theorem date_roundTrip {d : I32} (hd : PgDate d) : convertDateDatum (appendDate d) = .ok d := by
  obtain rfl | rfl | ⟨hmin, hmax⟩ := hd
  · decide
  · decide
  have hval : (I32.wrap (d.val + dateOffset)).val = d.val + dateOffset := by
    simp only [pgMinDate, pgMaxDate] at hmin hmax
    exact I32.val_wrap (by omega) (by omega)
  have hback : I32.wrap (d.val + dateOffset - dateOffset) = d := by
    apply I32.ext_val
    rw [Int.add_sub_cancel]
    exact I32.val_wrap d.ge d.lt
  have hbegin : d ≠ dateNobegin := by
    rintro rfl
    revert hmin
    decide
  have hend : d ≠ dateNoend := by
    rintro rfl
    revert hmax
    decide
  have hninf : I32.wrap (d.val + dateOffset) ≠ duckDateNinfinity := by
    intro heq
    rw [← hval, heq] at hmin
    revert hmin
    decide
  have hinf : I32.wrap (d.val + dateOffset) ≠ duckDateInfinity := by
    intro heq
    rw [← hval, heq] at hmax
    revert hmax
    decide
  have hvalid : validDate (I32.wrap (d.val + dateOffset)) = true := by
    simp [validDate, hval, hmin, hmax]
  rw [appendDate, if_neg hbegin, if_neg hend, convertDateDatum, hvalid, Bool.not_true, if_neg Bool.false_ne_true,
    if_neg hninf, if_neg hinf, hval, hback]

theorem shifted_roundTrip {errTo errBack : ConversionError} (h : appendShifted errTo t = .ok duck) :
    convertShifted errBack duck duck = .ok t := by
  obtain ⟨rfl, rfl⟩ | ⟨rfl, rfl⟩ | ⟨hvalid, hval⟩ := appendShifted_ok h
  · rfl
  · rfl
  have hninf : duck ≠ duckNinfinity := by
    rintro rfl
    revert hvalid
    decide
  have hinf : duck ≠ duckInfinity := by
    rintro rfl
    revert hvalid
    decide
  obtain ⟨t', ht', hval'⟩ := convertShifted_finite errBack hninf hinf hvalid
  rw [ht', I64.ext_val (i := t') (j := t) (by omega)]

theorem PgTimestamp.of_valid (hvalid : validTimestampOrTimestampTz micros = true)
    (hval : t.val + timestampOffset = micros.val) : PgTimestamp t := by
  rw [validTimestamp_iff] at hvalid
  simp only [minTimestamp, maxTimestamp, timestampOffset, dateOffset] at hvalid hval
  exact .inr (.inr (by omega))

theorem sameInstant_of_ok {instant : Int} (h : convertShifted err raw micros = .ok t)
    (hinstant : raw ≠ duckNinfinity → raw ≠ duckInfinity → validTimestampOrTimestampTz micros = true → micros.val = instant) :
    SameInstant raw instant t := by
  obtain ⟨rfl, rfl⟩ | ⟨rfl, rfl⟩ | ⟨hninf, hinf, hvalid, hval⟩ := convertShifted_ok h
  · exact ⟨.inl rfl, by rw [if_pos rfl]⟩
  · exact ⟨.inr (.inl rfl), by rw [if_neg duckNinfinity_ne_duckInfinity.symm, if_pos rfl]⟩
  · refine ⟨.of_valid hvalid hval, ?_⟩
    rw [if_neg hninf, if_neg hinf, hval]
    exact hinstant hninf hinf hvalid

theorem timestampExact_iff (unit : TimestampUnit) (raw : I64) :
    TimestampExact unit raw ↔ ¬ WrapsIntoRange unit raw := by
  constructor
  · rintro hexact ⟨hninf, hinf, hne, hvalid⟩
    obtain ⟨t, ht, hval⟩ := convertShifted_finite .timestampOutOfRange hninf hinf hvalid
    obtain ⟨-, hsame⟩ := hexact t ht
    rw [if_neg hninf, if_neg hinf, hval] at hsame
    exact hne hsame
  · intro hwraps t ht
    refine sameInstant_of_ok ht fun hninf hinf hvalid => ?_
    by_contra hne
    exact hwraps ⟨hninf, hinf, hne, hvalid⟩

/-- Dates and timestamps come back as they were. Of a raw value of DuckDB either an error is made or the timestamp of
the same instant, unless the product for its unit wraps into the range of timestamps. -/
theorem conversions_exact (d : I32) (t : I64) (unit : TimestampUnit) (raw : I64) :
    (PgDate d → convertDateDatum (appendDate d) = .ok d) ∧
      (∀ duck, appendTimestamp t = .ok duck → convertTimestampDatum .microseconds duck = .ok t) ∧
      (∀ duck, appendTimestampTz t = .ok duck → convertTimestampTzDatum duck = .ok t) ∧
      (∀ t', convertTimestampTzDatum raw = .ok t' → SameInstant raw raw.val t') ∧
      (TimestampExact unit raw ↔ ¬ WrapsIntoRange unit raw) := by
  refine ⟨date_roundTrip, ?_, ?_, ?_, timestampExact_iff unit raw⟩
  · intro duck h
    exact shifted_roundTrip h
  · intro duck h
    exact shifted_roundTrip h
  · intro t' h
    exact sameInstant_of_ok h fun _ _ _ => rfl

/-- `2 ^ 58` seconds, over nine thousand million years after 1970, become midnight of 1970-01-01. -/
theorem seconds_wrap_to_epoch :
    ∃ raw : I64, raw.val = 2 ^ 58 ∧ ¬ TimestampExact .seconds raw ∧
      convertTimestampDatum .seconds raw = .ok (.wrap (-timestampOffset)) := by
  refine ⟨⟨2 ^ 58, by decide, by decide⟩, rfl, ?_, by decide⟩
  rw [timestampExact_iff, not_not]
  exact ⟨by decide, by decide, by decide, by decide⟩

end PgDucklake.Types
