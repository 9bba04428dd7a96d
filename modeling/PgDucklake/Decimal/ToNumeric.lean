import Mathlib.Data.List.DropRight
import Mathlib.Data.Nat.Digits.Lemmas
import PgDucklake.Decimal.RoundTrip

/-!
# From DuckDB decimals and wide integers to PostgreSQL numerics

`convertNumeric` splits the integer of a decimal at the point and writes both parts in base 10000, and `makeResult`
packs the digits. The part after the point is first filled up to whole groups of four decimal digits, in the type that
the decimal is stored in. `exact_iff` says for which values the numeric that comes out is well formed and equal to the
value: those for which neither this product nor the negation leaves the type.
-/

namespace PgDucklake.Decimal

open Lib

/-- The integers that the values are stored in. -/
inductive PhysicalType
  | int16
  | int32
  | int64
  | uint64
  | int128
  | uint128
  deriving DecidableEq, Repr

/-- The largest value. -/
def PhysicalType.max : PhysicalType → Nat
  | .int16 => 2 ^ 15 - 1
  | .int32 => 2 ^ 31 - 1
  | .int64 => 2 ^ 63 - 1
  | .uint64 => 2 ^ 64 - 1
  | .int128 => 2 ^ 127 - 1
  | .uint128 => 2 ^ 128 - 1

/-- `MAX_DIGITS`, the size of the two digit arrays: four for every byte. -/
def PhysicalType.maxDigits : PhysicalType → Nat
  | .int16 => 8
  | .int32 => 16
  | .int64 | .uint64 => 32
  | .int128 | .uint128 => 64

/-- The table of powers of ten that goes with the type. -/
def PhysicalType.powers : PhysicalType → DecimalStorage
  | .int16 | .int32 | .int64 | .uint64 => .int64
  | .int128 | .uint128 => .hugeint

/-- What comes of a conversion: a numeric, an exception, or a computation that leaves the range of its type. -/
inductive Converted
  | numeric (x : NumericVar)
  | error
  | overflow
  deriving DecidableEq, Repr

/-- The number of base-10000 digits after the point. -/
def fractionalNdigits (scale : Nat) : Nat := (scale + 3) / 4

/-- The decimal digits that the last group is filled up with. -/
def fillUp (scale : Nat) : Nat := 4 * fractionalNdigits scale - scale

/-- The digits of the two parts; `none` if there is no room for those before the point. -/
def numericDigits (T : PhysicalType) (scale : Nat) (sign : NumericSign) (integerPart fractionalPart : Nat) :
    Option NumericVar :=
  (digitsWithin 10000 T.maxDigits integerPart).map fun integral =>
    { sign := sign
      weight := integral.length - 1
      dscale := scale
      digits := integral.reverse ++ (lowDigits 10000 (fractionalNdigits scale) fractionalPart).reverse }

def convertNumeric (T : PhysicalType) (scale : Nat) (v : Int) : Converted :=
  let value := v.natAbs
  -- the negation of the least value
  if v < 0 ∧ T.max < value then .overflow
  else
    match getPowerOfTen T.powers scale, getPowerOfTen T.powers (fillUp scale) with
    | some power, some compensation =>
      if T.max < power then .overflow
      else
        let integerPart := if scale = 0 then value else value / power
        let fractionalPart := if scale = 0 then 0 else value % power
        if T.max < fractionalPart * compensation ∨ T.maxDigits < fractionalNdigits scale then .overflow
        else
          match numericDigits T scale (if v < 0 then .neg else .pos) integerPart (fractionalPart * compensation) with
          | none => .overflow
          | some x => .numeric x
    | _, _ => .error

/-- Leading zeros are dropped, and the weight with them. -/
def stripLeading : Int → List Nat → Int × List Nat
  | weight, [] => (weight, [])
  | weight, 0 :: digits => stripLeading (weight - 1) digits
  | weight, (d + 1) :: digits => (weight, (d + 1) :: digits)

/-- The header holds the weight and the display scale. -/
def headerHolds (dscale : Nat) (weight : Int) : Bool :=
  (dscale ≤ 63 && -64 ≤ weight && weight ≤ 63) || (dscale ≤ 16383 && -32768 ≤ weight && weight ≤ 32767)

/-- PostgreSQL's `make_result`, read back. Of a special value only the header is stored, and the bits that mark an
infinity are read as a display scale of 32. -/
def makeResult (x : NumericVar) : Option NumericVar :=
  match x.sign with
  | .nan => some ⟨.nan, 0, 0, []⟩
  | .pinf => some ⟨.pinf, 0, 32, []⟩
  | .ninf => some ⟨.ninf, 0, 32, []⟩
  | .pos | .neg =>
    let (weight, digits) := stripLeading x.weight x.digits
    let digits := digits.rdropWhile (· == 0)
    let (weight, sign) := if digits = [] then (0, NumericSign.pos) else (weight, x.sign)
    if headerHolds x.dscale weight then some ⟨sign, weight, x.dscale, digits⟩ else none

/-! ## The values -/

/-- The types that become a numeric digit by digit. -/
inductive SourceType
  | decimal (type : DecimalType)
  | hugeint
  | ubigint
  | uhugeint

def SourceType.physical : SourceType → PhysicalType
  | .decimal type =>
    match type.storage with
    | .int16 => .int16
    | .int32 => .int32
    | .int64 => .int64
    | .hugeint => .int128
  | .hugeint => .int128
  | .ubigint => .uint64
  | .uhugeint => .uint128

def SourceType.scale : SourceType → Nat
  | .decimal type => type.scale
  | _ => 0

/-- The integers that stand for values of the type. -/
def SourceType.Holds (v : Int) : SourceType → Prop
  | .decimal type => v.natAbs < 10 ^ type.precision
  | .hugeint => -2 ^ 127 ≤ v ∧ v < 2 ^ 127
  | .ubigint => 0 ≤ v ∧ v < 2 ^ 64
  | .uhugeint => 0 ≤ v ∧ v < 2 ^ 128

instance (v : Int) : (t : SourceType) → Decidable (t.Holds v)
  | .decimal type => inferInstanceAs (Decidable (v.natAbs < 10 ^ type.precision))
  | .hugeint => inferInstanceAs (Decidable (-2 ^ 127 ≤ v ∧ v < 2 ^ 127))
  | .ubigint => inferInstanceAs (Decidable (0 ≤ v ∧ v < 2 ^ 64))
  | .uhugeint => inferInstanceAs (Decidable (0 ≤ v ∧ v < 2 ^ 128))

structure SourceValue where
  type : SourceType
  value : Int
  holds : type.Holds value

def convertNumericDatum (s : SourceValue) : Converted :=
  match convertNumeric s.type.physical s.type.scale s.value with
  | .numeric x =>
    match makeResult x with
    | some y => .numeric y
    | none => .error
  | outcome => outcome

/-- A numeric as PostgreSQL stores it. -/
structure WellFormed (y : NumericVar) : Prop where
  finite : y.Finite
  digits_lt : ∀ d ∈ y.digits, d < 10000
  first : y.digits.head? ≠ some 0
  last : y.digits.getLast? ≠ some 0
  zero : y.digits = [] → y.weight = 0 ∧ y.sign = .pos

/-- The numeric is well formed, has the scale of the type and is equal to the value. -/
def Exact (s : SourceValue) : Prop :=
  ∃ y, convertNumericDatum s = .numeric y ∧ WellFormed y ∧ y.dscale = s.type.scale ∧
    y.value * 10 ^ s.type.scale = s.value

/-- The negation and the filled up part after the point stay in the type. -/
def Fits (s : SourceValue) : Prop :=
  (s.value < 0 → s.value.natAbs ≤ s.type.physical.max) ∧
    s.value.natAbs % 10 ^ s.type.scale * 10 ^ fillUp s.type.scale ≤ s.type.physical.max

/-! ## Packing -/

theorem stripLeading_value : ∀ (weight : Int) (digits : List Nat),
    digitsValue 10000 (stripLeading weight digits).1 (stripLeading weight digits).2 = digitsValue 10000 weight digits
  | _, [] => rfl
  | weight, 0 :: digits => by
    have ih := stripLeading_value (weight - 1) digits
    rw [stripLeading, ih, digitsValue_zero_cons]
  | _, (_ + 1) :: _ => rfl

theorem stripLeading_suffix : ∀ (weight : Int) (digits : List Nat), (stripLeading weight digits).2 <:+ digits
  | _, [] => List.suffix_rfl
  | weight, 0 :: digits => (stripLeading_suffix (weight - 1) digits).trans (List.suffix_cons 0 digits)
  | _, (_ + 1) :: _ => List.suffix_rfl

theorem stripLeading_head : ∀ (weight : Int) (digits : List Nat), (stripLeading weight digits).2.head? ≠ some 0
  | _, [] => by simp [stripLeading]
  | weight, 0 :: digits => by
    rw [stripLeading]
    exact stripLeading_head (weight - 1) digits
  | _, (_ + 1) :: _ => by simp [stripLeading]

theorem stripLeading_weight : ∀ (weight : Int) (digits : List Nat),
    (stripLeading weight digits).1 ≤ weight ∧ weight - digits.length ≤ (stripLeading weight digits).1
  | _, [] => by simp [stripLeading]
  | weight, 0 :: digits => by
    have ih := stripLeading_weight (weight - 1) digits
    rw [stripLeading, List.length_cons]
    push_cast
    omega
  | weight, (_ + 1) :: digits => by
    simp only [stripLeading, List.length_cons]
    push_cast
    omega

theorem rdropWhile_zero_value (weight : Int) (digits : List Nat) :
    digitsValue 10000 weight (digits.rdropWhile (· == 0)) = digitsValue 10000 weight digits := by
  induction digits using List.reverseRecOn with
  | nil => rfl
  | append_singleton digits d ih =>
    by_cases hd : d = 0
    · subst hd
      rw [List.rdropWhile_concat_pos _ _ _ rfl, ih, digitsValue_concat_zero]
    · rw [List.rdropWhile_concat_neg _ _ _ (by simp [hd])]

theorem head?_rdropWhile {digits : List Nat} (h : digits.head? ≠ some 0) :
    (digits.rdropWhile (· == 0)).head? ≠ some 0 := by
  have hprefix := List.rdropWhile_prefix (p := (· == 0)) (l := digits)
  intro h0
  apply h
  obtain ⟨rest, hrest⟩ := hprefix
  rw [← hrest, List.head?_append, h0]
  rfl

theorem makeResult_spec {x : NumericVar} (hfinite : x.Finite) (hdigits : ∀ d ∈ x.digits, d < 10000)
    (hscale : x.dscale ≤ 63) (hhigh : x.weight ≤ 63) (hlow : -64 ≤ x.weight - x.digits.length) :
    ∃ y, makeResult x = some y ∧ WellFormed y ∧ y.dscale = x.dscale ∧ y.value = x.value := by
  have hmake : makeResult x = (let (weight, digits) := stripLeading x.weight x.digits
      let digits := digits.rdropWhile (· == 0)
      let (weight, sign) := if digits = [] then (0, NumericSign.pos) else (weight, x.sign)
      if headerHolds x.dscale weight then some ⟨sign, weight, x.dscale, digits⟩ else none) := by
    rcases hfinite with hsign | hsign <;> simp only [makeResult, hsign]
  rw [hmake]
  -- the digits that are left
  have hvalue : digitsValue 10000 (stripLeading x.weight x.digits).1
      ((stripLeading x.weight x.digits).2.rdropWhile (· == 0)) = x.magnitude := by
    rw [rdropWhile_zero_value, stripLeading_value]
    rfl
  have hlast : ((stripLeading x.weight x.digits).2.rdropWhile (· == 0)).getLast? ≠ some 0 := by
    intro hlast
    have hne : (stripLeading x.weight x.digits).2.rdropWhile (· == 0) ≠ [] := by
      intro hnil
      simp [hnil] at hlast
    have hnot := List.rdropWhile_last_not _ _ hne
    rw [List.getLast?_eq_some_getLast hne, Option.some.injEq] at hlast
    simp [hlast] at hnot
  have hmem : ∀ d ∈ (stripLeading x.weight x.digits).2.rdropWhile (· == 0), d < 10000 := by
    intro d hd
    exact hdigits d ((stripLeading_suffix _ _).subset ((List.rdropWhile_prefix _ _).subset hd))
  have hhead := head?_rdropWhile (stripLeading_head x.weight x.digits)
  have hweight := stripLeading_weight x.weight x.digits
  by_cases hnil : (stripLeading x.weight x.digits).2.rdropWhile (· == 0) = []
  · have hheader : headerHolds x.dscale 0 = true := by simp [headerHolds, hscale]
    refine ⟨⟨.pos, 0, x.dscale, []⟩, by simp [hnil, hheader], ?_, rfl, ?_⟩
    · exact ⟨Or.inl rfl, by simp, by simp, by simp, fun _ => ⟨rfl, rfl⟩⟩
    · have hzero : x.magnitude = 0 := by
        rw [← hvalue, hnil]
        rfl
      have hx : x.value = 0 := by simp [NumericVar.value, hzero]
      rw [hx]
      simp [NumericVar.value, NumericVar.magnitude, digitsValue]
  · have hheader : headerHolds x.dscale (stripLeading x.weight x.digits).1 = true := by
      simp only [headerHolds, Bool.or_eq_true, Bool.and_eq_true, decide_eq_true_eq]
      left
      omega
    refine ⟨⟨x.sign, (stripLeading x.weight x.digits).1, x.dscale,
      (stripLeading x.weight x.digits).2.rdropWhile (· == 0)⟩, by simp [hnil, hheader], ?_, rfl, ?_⟩
    · exact ⟨hfinite, hmem, hhead, hlast, fun h => absurd h hnil⟩
    · simp only [NumericVar.value]
      rw [show NumericVar.magnitude ⟨x.sign, (stripLeading x.weight x.digits).1, x.dscale,
        (stripLeading x.weight x.digits).2.rdropWhile (· == 0)⟩ = x.magnitude from hvalue]

/-! ## Splitting -/

theorem fillUp_add (scale : Nat) : scale + fillUp scale = 4 * fractionalNdigits scale := by
  unfold fillUp fractionalNdigits
  omega

theorem fillUp_lt (scale : Nat) : fillUp scale < 4 := by
  unfold fillUp fractionalNdigits
  omega

theorem filled_lt (scale value : Nat) :
    value % 10 ^ scale * 10 ^ fillUp scale < 10000 ^ fractionalNdigits scale := by
  have hpow : 10000 ^ fractionalNdigits scale = 10 ^ scale * 10 ^ fillUp scale := by
    rw [← Nat.pow_add, fillUp_add, Nat.pow_mul]
  rw [hpow]
  exact Nat.mul_lt_mul_of_pos_right (Nat.mod_lt _ (by positivity)) (by positivity)

theorem numericDigits_spec {T : PhysicalType} {scale i f : Nat} (sign : NumericSign) (hi : i < 10000 ^ T.maxDigits)
    (hf : f < 10000 ^ fractionalNdigits scale) :
    ∃ x, numericDigits T scale sign i f = some x ∧ x.sign = sign ∧ x.dscale = scale ∧ (∀ d ∈ x.digits, d < 10000) ∧
      x.weight = (Nat.digits 10000 i).length - 1 ∧
      x.digits.length = (Nat.digits 10000 i).length + fractionalNdigits scale ∧
      x.magnitude * 10 ^ scale = i * 10 ^ scale + f / 10 ^ fillUp scale := by
  refine ⟨_, by rw [numericDigits, digitsWithin_eq (by norm_num) hi]; rfl, rfl, rfl, ?_, rfl, by simp, ?_⟩
  · intro d hd
    rcases List.mem_append.mp hd with hd | hd
    · exact Nat.digits_lt_base (by norm_num) (List.mem_reverse.mp hd)
    · exact lowDigits_lt (by norm_num) (List.mem_reverse.mp hd)
  · rw [magnitude_scaled]
    have hfractional : NumericVar.fractional ⟨sign, ((Nat.digits 10000 i).length : Int) - 1, scale,
        (Nat.digits 10000 i).reverse ++ (lowDigits 10000 (fractionalNdigits scale) f).reverse⟩ =
        fractionalNdigits scale := by
      simp only [NumericVar.fractional, List.length_append, List.length_reverse, length_lowDigits]
      push_cast
      omega
    have hexp : (scale : Int) - 4 * fractionalNdigits scale = -(fillUp scale : Int) := by
      have := fillUp_add scale
      omega
    have hhorner : horner 10000 0
        ((Nat.digits 10000 i).reverse ++ (lowDigits 10000 (fractionalNdigits scale) f).reverse) =
        i * 10000 ^ fractionalNdigits scale + f := by
      rw [horner_append, horner_digits, horner_acc, horner_lowDigits, Nat.mod_eq_of_lt hf]
      simp
    have hten : (10000 : ℚ) ^ fractionalNdigits scale = 10 ^ scale * 10 ^ fillUp scale := by
      rw [← pow_add, fillUp_add, pow_mul]
      norm_num
    rw [hfractional, hexp, hhorner, zpow_neg, zpow_natCast]
    push_cast
    rw [hten]
    field_simp

/-! ## The types -/

theorem pow_ten_le {n m bound : Nat} (h : n ≤ m) (hbound : 10 ^ m ≤ bound) : 10 ^ n ≤ bound :=
  (Nat.pow_le_pow_right (by norm_num) h).trans hbound

/-- The scale of a type is within the tables of its physical type, and so are its values. -/
structure Bounds (t : SourceType) : Prop where
  power : 10 ^ t.scale ≤ t.physical.max
  table : t.scale < t.physical.powers.powers
  room : fractionalNdigits t.scale ≤ t.physical.maxDigits
  short : t.scale ≤ 38
  value : ∀ v, t.Holds v → v.natAbs < 10000 ^ t.physical.maxDigits

theorem decimal_bounds {type : DecimalType} {T : PhysicalType} {m : Nat}
    (hphysical : (SourceType.decimal type).physical = T) (hm : type.precision ≤ m) (hmax : 10 ^ m ≤ T.max)
    (htable : m < T.powers.powers) (hroom : (m + 3) / 4 ≤ T.maxDigits) (hdigits : 10 ^ m ≤ 10000 ^ T.maxDigits) :
    Bounds (.decimal type) := by
  have hscale : type.scale ≤ m := type.scale_le.trans hm
  subst hphysical
  refine ⟨pow_ten_le hscale hmax, Nat.lt_of_le_of_lt hscale htable, ?_, type.scale_le.trans type.precision_le, ?_⟩
  · exact (Nat.div_le_div_right (Nat.add_le_add_right hscale 3)).trans hroom
  · intro v hv
    exact Nat.lt_of_lt_of_le hv (pow_ten_le hm hdigits)

theorem bounds (t : SourceType) : Bounds t := by
  cases t with
  | decimal type =>
    by_cases h₁ : type.precision ≤ 4
    · refine decimal_bounds (T := .int16) ?_ h₁ (by decide) (by decide) (by decide) (by decide)
      simp [SourceType.physical, DecimalType.storage, h₁]
    by_cases h₂ : type.precision ≤ 9
    · refine decimal_bounds (T := .int32) ?_ h₂ (by decide) (by decide) (by decide) (by decide)
      simp [SourceType.physical, DecimalType.storage, h₁, h₂]
    by_cases h₃ : type.precision ≤ 18
    · refine decimal_bounds (T := .int64) ?_ h₃ (by decide) (by decide) (by decide) (by decide)
      simp [SourceType.physical, DecimalType.storage, h₁, h₂, h₃]
    · refine decimal_bounds (T := .int128) ?_ type.precision_le (by decide) (by decide) (by decide) (by decide)
      simp [SourceType.physical, DecimalType.storage, h₁, h₂, h₃]
  | hugeint =>
    refine ⟨by decide, by decide, by decide, by decide, fun v hv => ?_⟩
    obtain ⟨hlow, hhigh⟩ : -2 ^ 127 ≤ v ∧ v < 2 ^ 127 := hv
    have hbound : 2 ^ 127 < 10000 ^ SourceType.hugeint.physical.maxDigits := by decide
    omega
  | ubigint =>
    refine ⟨by decide, by decide, by decide, by decide, fun v hv => ?_⟩
    obtain ⟨hlow, hhigh⟩ : 0 ≤ v ∧ v < 2 ^ 64 := hv
    have hbound : 2 ^ 64 < 10000 ^ SourceType.ubigint.physical.maxDigits := by decide
    omega
  | uhugeint =>
    refine ⟨by decide, by decide, by decide, by decide, fun v hv => ?_⟩
    obtain ⟨hlow, hhigh⟩ : 0 ≤ v ∧ v < 2 ^ 128 := hv
    have hbound : 2 ^ 128 < 10000 ^ SourceType.uhugeint.physical.maxDigits := by decide
    omega

/-! ## Exactness -/

theorem getPowerOfTen_of_lt {T : DecimalStorage} {index : Nat} (h : index < T.powers) :
    getPowerOfTen T index = some (10 ^ index) := if_pos h

theorem convertNumeric_eq (s : SourceValue) : convertNumeric s.type.physical s.type.scale s.value =
    if s.value < 0 ∧ s.type.physical.max < s.value.natAbs then .overflow
    else if s.type.physical.max < s.value.natAbs % 10 ^ s.type.scale * 10 ^ fillUp s.type.scale then .overflow
    else
      match numericDigits s.type.physical s.type.scale (if s.value < 0 then .neg else .pos)
        (s.value.natAbs / 10 ^ s.type.scale) (s.value.natAbs % 10 ^ s.type.scale * 10 ^ fillUp s.type.scale) with
      | none => .overflow
      | some x => .numeric x := by
  have hb := bounds s.type
  have hfill : fillUp s.type.scale < s.type.physical.powers.powers := by
    have := fillUp_lt s.type.scale
    have hfour : 4 ≤ s.type.physical.powers.powers := by cases s.type.physical <;> decide
    omega
  -- without a scale the whole value is before the point
  have hinteger : (if s.type.scale = 0 then s.value.natAbs else s.value.natAbs / 10 ^ s.type.scale) =
      s.value.natAbs / 10 ^ s.type.scale := by
    split
    · rename_i hzero
      rw [hzero, Nat.pow_zero, Nat.div_one]
    · rfl
  have hfraction : (if s.type.scale = 0 then 0 else s.value.natAbs % 10 ^ s.type.scale) =
      s.value.natAbs % 10 ^ s.type.scale := by
    split
    · rename_i hzero
      rw [hzero, Nat.pow_zero, Nat.mod_one]
    · rfl
  simp only [convertNumeric, getPowerOfTen_of_lt hb.table, getPowerOfTen_of_lt hfill, hinteger, hfraction,
    if_neg (Nat.not_lt.mpr hb.power), Nat.not_lt.mpr hb.room, or_false]

theorem fits_of_numeric {s : SourceValue} {y : NumericVar} (h : convertNumericDatum s = .numeric y) : Fits s := by
  rw [convertNumericDatum, convertNumeric_eq] at h
  by_cases hneg : s.value < 0 ∧ s.type.physical.max < s.value.natAbs
  · simp only [if_pos hneg] at h
    cases h
  by_cases hproduct : s.type.physical.max < s.value.natAbs % 10 ^ s.type.scale * 10 ^ fillUp s.type.scale
  · simp only [if_neg hneg, if_pos hproduct] at h
    cases h
  · exact ⟨fun hlt => Nat.le_of_not_lt fun hgt => hneg ⟨hlt, hgt⟩, Nat.le_of_not_lt hproduct⟩

theorem exact_of_fits {s : SourceValue} (h : Fits s) : Exact s := by
  have hb := bounds s.type
  have hneg : ¬(s.value < 0 ∧ s.type.physical.max < s.value.natAbs) := fun hn => Nat.not_lt.mpr (h.1 hn.1) hn.2
  have hi : s.value.natAbs / 10 ^ s.type.scale < 10000 ^ s.type.physical.maxDigits :=
    Nat.lt_of_le_of_lt (Nat.div_le_self _ _) (hb.value s.value s.holds)
  obtain ⟨x, hx, hsign, hscale, hdigits, hweight, hlength, hmagnitude⟩ :=
    numericDigits_spec (if s.value < 0 then .neg else .pos) hi (filled_lt s.type.scale s.value.natAbs)
  have hconvert : convertNumeric s.type.physical s.type.scale s.value = .numeric x := by
    rw [convertNumeric_eq, if_neg hneg, if_neg (Nat.not_lt.mpr h.2), hx]
  have hfinite : x.Finite := by
    rw [NumericVar.Finite, hsign]
    split <;> simp
  -- the number of digits before the point
  have hcount : (Nat.digits 10000 (s.value.natAbs / 10 ^ s.type.scale)).length ≤ 64 := by
    have hmax : s.type.physical.maxDigits ≤ 64 := by cases s.type.physical <;> decide
    exact ((Nat.digits_length_le_iff (by norm_num) _).mpr hi).trans hmax
  have hfraction : fractionalNdigits s.type.scale ≤ 10 := by
    have := hb.short
    unfold fractionalNdigits
    omega
  obtain ⟨y, hy, hform, hyscale, hyvalue⟩ := makeResult_spec hfinite hdigits (by rw [hscale]; have := hb.short; omega)
    (by omega) (by omega)
  refine ⟨y, by simp only [convertNumericDatum, hconvert, hy], hform, by rw [hyscale, hscale], ?_⟩
  -- the magnitude is the value's
  have hvalue : x.magnitude * 10 ^ s.type.scale = s.value.natAbs := by
    have hsplit := Nat.div_add_mod s.value.natAbs (10 ^ s.type.scale)
    have hcast : ((10 ^ s.type.scale * (s.value.natAbs / 10 ^ s.type.scale) +
        s.value.natAbs % 10 ^ s.type.scale : Nat) : ℚ) = s.value.natAbs := by rw [hsplit]
    rw [hmagnitude, ← hcast]
    push_cast
    field_simp
  rw [hyvalue, NumericVar.value, hsign]
  by_cases hlt : s.value < 0
  · have habs : (s.value.natAbs : ℚ) = -s.value := by
      rw [← Int.cast_natCast, Int.ofNat_natAbs_of_nonpos hlt.le]
      push_cast
      rfl
    rw [if_pos (if_pos hlt), neg_mul, hvalue, habs, neg_neg]
  · have habs : (s.value.natAbs : ℚ) = s.value := by
      rw [← Int.cast_natCast, Int.natAbs_of_nonneg (not_lt.mp hlt)]
    rw [if_neg (by simp [hlt]), hvalue, habs]

/-- A decimal or a wide integer becomes a well-formed numeric equal to it exactly if the computation stays in its
type. -/
theorem exact_iff (s : SourceValue) : Exact s ↔ Fits s := by
  constructor
  · rintro ⟨y, hy, -⟩
    exact fits_of_numeric hy
  · exact exact_of_fits

/-! ## Values that do not fit -/

/-- `0.5` as a `DECIMAL(9, 9)`. -/
def halfOfNine : SourceValue := ⟨.decimal ⟨9, 9, by decide, by decide⟩, 500000000, by decide⟩

/-- The least `HUGEINT`. -/
def leastHugeint : SourceValue := ⟨.hugeint, -2 ^ 127, by decide⟩

/-- `500000000 * 1000` is no 32-bit integer, and the least integer has no negation. -/
theorem half_of_nine_overflows : convertNumericDatum halfOfNine = .overflow ∧
    convertNumericDatum leastHugeint = .overflow ∧ ¬Exact halfOfNine ∧ ¬Exact leastHugeint := by
  have hhalf : convertNumericDatum halfOfNine = .overflow := by decide
  have hleast : convertNumericDatum leastHugeint = .overflow := by decide
  refine ⟨hhalf, hleast, ?_, ?_⟩
  · rintro ⟨y, hy, -⟩
    rw [hhalf] at hy
    cases hy
  · rintro ⟨y, hy, -⟩
    rw [hleast] at hy
    cases hy

end PgDucklake.Decimal
