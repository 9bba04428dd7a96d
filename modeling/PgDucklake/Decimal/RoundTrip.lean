import PgDucklake.Decimal.Convert
import Mathlib.Algebra.Order.Ring.Int

/-!
# Numerics written and read back

A numeric goes into the inlined table as PostgreSQL hands it to the producer: rounded to the declared scale for a
`numeric(p, s)` column, as it is for a plain `numeric` column, which DuckDB has as `DECIMAL(18, 3)`. It is read back by
`convertDecimal`. `round_trips_iff` says exactly when the value read is the value written, rounded to the column's scale.
-/

namespace PgDucklake.Decimal

open Lib

/-- `DECIMAL(p, s)`. -/
structure DecimalType where
  precision : Nat
  scale : Nat
  precision_le : precision ≤ 38
  scale_le : scale ≤ precision

/-- DuckDB picks the storage by the precision. -/
def DecimalType.storage (t : DecimalType) : DecimalStorage :=
  if t.precision ≤ 4 then .int16
  else if t.precision ≤ 9 then .int32
  else if t.precision ≤ 18 then .int64
  else .hugeint

/-- The numeric columns of a table. -/
inductive Column
  | declared (type : DecimalType)
  | plain

/-- The column's type in DuckDB. -/
def Column.type : Column → DecimalType
  | .declared type => type
  | .plain => ⟨18, 3, by decide, by decide⟩

def NumericVar.Finite (x : NumericVar) : Prop := x.sign = .pos ∨ x.sign = .neg

/-- PostgreSQL's coercion of a numeric to `numeric(p, s)`: it rounds to the scale, halves away from zero, and raises an
error for a number that is too large and for infinities; NaN passes. -/
structure Coercion where
  apply : DecimalType → Numeric → Option Numeric
  finite : ∀ t x y, x.Finite → apply t x = some y → y.Finite ∧ y.dscale = t.scale ∧
    y.value * 10 ^ t.scale = roundAway (x.value * 10 ^ t.scale) ∧ y.magnitude * 10 ^ t.scale < 10 ^ t.precision
  nan : ∀ t x, x.sign = .nan → ∃ y, apply t x = some y ∧ y.sign = .nan
  infinite : ∀ t x, x.sign = .pinf ∨ x.sign = .ninf → apply t x = none

/-- The numeric that a producer (VALUES, UNNEST or COPY) stores. -/
def stored (coercion : Coercion) : Column → Numeric → Option Numeric
  | .declared type, x => coercion.apply type x
  | .plain, x => some x

/-- The stored cell as `AppendDecimal` reads it. -/
def readCell (column : Column) (y : Numeric) : Outcome := convertDecimal column.type.storage y.toNumericVar

/-- What is read is the value written, rounded to the column's scale, or an error. -/
def RoundTrips (coercion : Coercion) (column : Column) (x : Numeric) : Prop :=
  ∀ y, stored coercion column x = some y → readCell column y = .error ∨
    x.Finite ∧ readCell column y = .value (roundAway (x.value * 10 ^ column.type.scale))

/-- Both kinds of column lose NaN. A plain column keeps zero and the numbers with three digits after the point that fit
64 bits; it refuses infinities and numbers of more than 18 digits after the point. -/
def Kept : Column → Numeric → Prop
  | .declared _, x => x.sign ≠ .nan
  | .plain, x => x.sign ≠ .nan ∧
    (19 ≤ x.dscale ∨ x.value = 0 ∧ x.Finite ∨ x.dscale = 3 ∧ x.magnitude * 10 ^ 3 < 2 ^ 63)

/-! ## Signs -/

/-- The integer read for a finite numeric whose magnitude is `r` to some scale. -/
def signed (x : NumericVar) (r : Nat) : Int := if x.sign = .neg then -r else r

variable {x : NumericVar} {r n : Nat}

theorem signed_cast (hr : (r : ℚ) = x.magnitude * 10 ^ n) :
    (signed x r : ℚ) = x.value * 10 ^ n := by
  simp only [signed, NumericVar.value]
  split
  · push_cast
    rw [hr]
    ring
  · push_cast
    exact hr

theorem roundAway_signed (x : NumericVar) (r : Nat) : roundAway (signed x r) = signed x r := by
  simp only [signed]
  split
  · push_cast
    rw [roundAway_neg, roundAway_natCast]
  · exact_mod_cast roundAway_natCast r

theorem signed_eq_zero : signed x r = 0 ↔ r = 0 := by
  simp only [signed]
  split <;> simp

theorem scaled_eq_zero {s : Nat} (hr : (r : ℚ) = x.magnitude * 10 ^ n) (hne : n ≠ s)
    (h : signed x r = roundAway (x.value * 10 ^ s)) : r = 0 := by
  have hcast := signed_cast hr
  rcases Nat.lt_or_gt_of_ne hne with hlt | hgt
  · -- too few digits: the value is a multiple of what is read
    have hscaled : x.value * 10 ^ s = ((signed x (r * 10 ^ (s - n)) : Int) : ℚ) := by
      have hr' : ((r * 10 ^ (s - n) : Nat) : ℚ) = x.magnitude * 10 ^ s := by
        push_cast
        rw [hr, mul_assoc, ← pow_add, Nat.add_sub_cancel' (Nat.le_of_lt hlt)]
      exact (signed_cast hr').symm
    rw [hscaled, roundAway_signed] at h
    by_contra hpos
    have hpow : 10 ^ (s - n) = 1 := by
      have hmul : r = r * 10 ^ (s - n) := by
        simp only [signed] at h
        split at h <;> omega
      exact Nat.eq_of_mul_eq_mul_left (Nat.pos_of_ne_zero hpos) (by omega)
    have hone := Nat.one_lt_pow (n := s - n) (by omega) (by norm_num : 1 < 10)
    omega
  · -- too many digits: what is read is far from the rounded value
    have hdiv : x.value * 10 ^ s = (signed x r : ℚ) / 10 ^ (n - s) := by
      rw [hcast, eq_div_iff (by positivity), mul_assoc, ← pow_add, Nat.add_sub_cancel' (Nat.le_of_lt hgt)]
    rw [hdiv] at h
    refine roundAway_div_eq_self (e := n - s) (by omega) ?_
    simp only [signed] at h
    split at h
    · push_cast at h
      rw [neg_div, roundAway_neg] at h
      omega
    · push_cast at h
      exact h.symm

/-! ## Reading -/

variable {column : Column}

theorem readCell_eq (y : Numeric) (hscale : y.dscale < column.type.storage.powers) :
    ∃ r : Nat, (r : ℚ) = y.magnitude * 10 ^ y.dscale ∧
      readCell column y =
        if r < 2 ^ (column.type.storage.bits - 1) then .value (signed y.toNumericVar r) else .overflow :=
  convertDecimal_eq y hscale

variable {y : Numeric}

theorem readCell_error (hscale : column.type.storage.powers ≤ y.dscale) :
    readCell column y = .error := by
  simp only [readCell, convertDecimal, getPowerOfTen, if_neg (Nat.not_lt.mpr hscale)]

theorem readCell_nan (hnan : y.sign = .nan) : readCell column y = .value 0 := by
  obtain ⟨hdigits, hscale⟩ := y.special (by simp [hnan]) (by simp [hnan])
  rw [if_pos hnan] at hscale
  have hpower : getPowerOfTen column.type.storage 0 = some 1 := by
    cases column.type.storage <;> rfl
  simp only [readCell, convertDecimal, hscale, hpower, hdigits, if_true]

theorem not_finite (h : ¬x.Finite) : x.sign = .nan ∨ x.sign = .pinf ∨ x.sign = .ninf := by
  simp only [NumericVar.Finite, not_or] at h
  revert h
  cases x.sign <;> simp

theorem dscale_infinite (hinf : y.sign = .pinf ∨ y.sign = .ninf) : y.dscale = 32 := by
  have hnan : y.sign ≠ .nan := by rcases hinf with h | h <;> simp [h]
  have hspecial := (y.special (by rcases hinf with h | h <;> simp [h]) (by rcases hinf with h | h <;> simp [h])).2
  rwa [if_neg hnan] at hspecial

theorem storage_fits (t : DecimalType) : 10 ^ t.precision < 2 ^ (t.storage.bits - 1) := by
  have hmono : ∀ {n m : Nat}, n ≤ m → 10 ^ n ≤ 10 ^ m := fun h => Nat.pow_le_pow_right (by norm_num) h
  unfold DecimalType.storage
  split_ifs with h₁ h₂ h₃
  · exact (hmono h₁).trans_lt (by decide)
  · exact (hmono h₂).trans_lt (by decide)
  · exact (hmono h₃).trans_lt (by decide)
  · exact (hmono t.precision_le).trans_lt (by decide)

theorem scale_lt_powers (t : DecimalType) : t.scale < t.storage.powers := by
  have hp := t.precision_le
  have hs := t.scale_le
  unfold DecimalType.storage
  split_ifs <;> simp only [DecimalStorage.powers] <;> omega

/-! ## The round trip -/

variable {coercion : Coercion} {t : DecimalType}

theorem declared_reads {x : Numeric} (hx : x.Finite) (hy : coercion.apply t x = some y) :
    readCell (.declared t) y = .value (roundAway (x.value * 10 ^ t.scale)) := by
  obtain ⟨-, hscale, hvalue, hfits⟩ := coercion.finite t x y hx hy
  have hpowers : y.dscale < (Column.declared t).type.storage.powers := by
    rw [hscale]
    exact scale_lt_powers t
  obtain ⟨r, hr, hread⟩ := readCell_eq y hpowers
  rw [hscale] at hr
  have hlt : r < 2 ^ (t.storage.bits - 1) := by
    refine Nat.lt_trans ?_ (storage_fits t)
    have hcast : (r : ℚ) < 10 ^ t.precision := hr ▸ hfits
    exact_mod_cast hcast
  have hsigned : signed y.toNumericVar r = roundAway (x.value * 10 ^ t.scale) := by
    have hcast : (signed y.toNumericVar r : ℚ) = roundAway (x.value * 10 ^ t.scale) := (signed_cast hr).trans hvalue
    exact_mod_cast hcast
  rw [hread, ← hsigned]
  exact if_pos hlt

theorem declared_roundTrips_iff {x : Numeric} :
    RoundTrips coercion (.declared t) x ↔ x.sign ≠ .nan := by
  constructor
  · intro h hnan
    obtain ⟨y, hy, hsign⟩ := coercion.nan t x hnan
    rcases h y hy with herror | ⟨hfinite, -⟩
    · rw [readCell_nan hsign] at herror
      cases herror
    · simp [NumericVar.Finite, hnan] at hfinite
  · intro hnan y hy
    by_cases hfinite : x.Finite
    · exact Or.inr ⟨hfinite, declared_reads hfinite hy⟩
    · -- an infinity is never stored
      have hinf : x.sign = .pinf ∨ x.sign = .ninf := (not_finite hfinite).resolve_left hnan
      have hnone : stored coercion (.declared t) x = none := coercion.infinite t x hinf
      rw [hnone] at hy
      cases hy

theorem plain_reads_iff {x : Numeric} (hfinite : x.Finite) :
    (readCell .plain x = .error ∨ x.Finite ∧ readCell .plain x = .value (roundAway (x.value * 10 ^ 3))) ↔
      19 ≤ x.dscale ∨ x.value = 0 ∨ x.dscale = 3 ∧ x.magnitude * 10 ^ 3 < 2 ^ 63 := by
  by_cases hscale : 19 ≤ x.dscale
  · have herror : readCell .plain x = .error := readCell_error hscale
    simp [herror, hscale]
  · have hpowers : x.dscale < Column.plain.type.storage.powers := Nat.lt_of_not_le hscale
    obtain ⟨r, hr, hread⟩ := readCell_eq x hpowers
    have hzero : x.value = 0 ↔ r = 0 := by
      have hcast := signed_cast hr
      rw [← signed_eq_zero (x := x.toNumericVar), ← Int.cast_eq_zero (α := ℚ), hcast]
      simp
    have hbits : readCell .plain x = if r < 2 ^ 63 then .value (signed x.toNumericVar r) else .overflow := hread
    simp only [hbits, hfinite, hscale, hzero, true_and, false_or]
    by_cases hlt : r < 2 ^ 63
    · simp only [if_pos hlt, reduceCtorEq, false_or, Outcome.value.injEq]
      constructor
      · intro h
        by_cases hthree : x.dscale = 3
        · refine Or.inr ⟨hthree, ?_⟩
          rw [← hthree, ← hr]
          exact_mod_cast hlt
        · exact Or.inl (scaled_eq_zero hr hthree h)
      · rintro (rfl | ⟨hthree, -⟩)
        · have hround : roundAway (0 : ℚ) = 0 := roundAway_natCast 0
          rw [hzero.mpr rfl, zero_mul, hround]
          exact signed_eq_zero.mpr rfl
        · rw [← hthree, ← signed_cast hr, roundAway_signed]
    · -- the integer leaves its type
      simp only [if_neg hlt, reduceCtorEq, false_or, false_iff, not_or, not_and]
      refine ⟨fun h => hlt (by simp [h]), fun hthree h => hlt ?_⟩
      rw [← hthree, ← hr] at h
      exact_mod_cast h

theorem plain_roundTrips_iff {x : Numeric} :
    RoundTrips coercion .plain x ↔ Kept .plain x := by
  have hself : RoundTrips coercion .plain x ↔ readCell .plain x = .error ∨
      x.Finite ∧ readCell .plain x = .value (roundAway (x.value * 10 ^ 3)) := by
    simp only [RoundTrips, stored, Option.some.injEq, forall_eq']
    rfl
  rw [hself]
  by_cases hfinite : x.Finite
  · have hnan : x.sign ≠ .nan := by rcases hfinite with h | h <;> simp [h]
    rw [plain_reads_iff hfinite]
    simp only [Kept, hnan, hfinite, and_true, ne_eq, not_false_eq_true, true_and]
  · rcases not_finite hfinite with hnan | hinf
    · simp [readCell_nan hnan, hfinite, Kept, hnan]
    · -- the table of powers ends before the display scale of an infinity
      have hscale : 19 ≤ x.dscale := by
        rw [dscale_infinite hinf]
        decide
      have hnan : x.sign ≠ .nan := by rcases hinf with h | h <;> simp [h]
      have herror : readCell .plain x = .error := readCell_error hscale
      simp [herror, Kept, hnan, hscale]

/-- The value read back is the value written, rounded to the column's scale, or there is an error, exactly for the
numerics that the column keeps. -/
theorem round_trips_iff (coercion : Coercion) (column : Column) (x : Numeric) :
    RoundTrips coercion column x ↔ Kept column x := by
  cases column with
  | declared t => exact declared_roundTrips_iff
  | plain => exact plain_roundTrips_iff

/-! ## A coercion -/

theorem scaled_shown (scale : Nat) (n : Int) (sign : NumericSign) (ds : List Nat) (d : Nat)
    (h : (Nat.digits 10000 (n.natAbs * 10 ^ (4 * ((scale + 3) / 4) - scale))).reverse = ds ++ [d]) (c : Nat)
    (hc : 4 * NumericVar.fractional ⟨sign,
      (Nat.digits 10000 (n.natAbs * 10 ^ (4 * ((scale + 3) / 4) - scale))).length - 1 - ((scale + 3) / 4 : Nat), scale,
      (Nat.digits 10000 (n.natAbs * 10 ^ (4 * ((scale + 3) / 4) - scale))).reverse⟩ - scale = c) :
    c < 4 ∧ 10 ^ c ∣ d := by
  simp only [NumericVar.fractional, List.length_reverse] at hc
  obtain rfl : c = 4 * ((scale + 3) / 4) - scale := by omega
  refine ⟨by omega, ?_⟩
  have hdigits := congrArg List.reverse h
  rw [List.reverse_reverse, List.reverse_append, List.reverse_singleton] at hdigits
  -- the lowest digit is the number up to a multiple of the base
  have hsum := Nat.ofDigits_digits 10000 (n.natAbs * 10 ^ (4 * ((scale + 3) / 4) - scale))
  rw [hdigits, List.singleton_append, Nat.ofDigits_cons] at hsum
  have hbase : 10 ^ (4 * ((scale + 3) / 4) - scale) ∣ 10000 := pow_dvd_pow 10 (by omega : _ ≤ 4)
  refine (Nat.dvd_add_left (hbase.mul_right _)).mp (?_ : _ ∣ d + 10000 * Nat.ofDigits 10000 ds.reverse)
  exact hsum ▸ Nat.dvd_mul_left _ _

/-- The numeric of a scaled integer: as many digits after the point as the scale needs. -/
def ofScaled (scale : Nat) (n : Int) : Numeric where
  sign := if n < 0 then .neg else .pos
  weight := (Nat.digits 10000 (n.natAbs * 10 ^ (4 * ((scale + 3) / 4) - scale))).length - 1 - ((scale + 3) / 4 : Nat)
  dscale := scale
  digits := (Nat.digits 10000 (n.natAbs * 10 ^ (4 * ((scale + 3) / 4) - scale))).reverse
  special hpos hneg := by
    split at hpos
    · rename_i hlt
      exact absurd (if_pos hlt) hneg
    · exact absurd rfl hpos
  shown := scaled_shown scale n _

theorem ofScaled_magnitude (scale : Nat) (n : Int) : (ofScaled scale n).magnitude * 10 ^ scale = n.natAbs := by
  have hfractional : (ofScaled scale n).fractional = ((scale + 3) / 4 : Nat) := by
    simp only [NumericVar.fractional, ofScaled, List.length_reverse]
    omega
  have hexp : (scale : Int) - 4 * ((scale + 3) / 4 : Nat) = -((4 * ((scale + 3) / 4) - scale : Nat) : Int) := by
    omega
  rw [magnitude_scaled, hfractional, hexp, zpow_neg, zpow_natCast]
  simp only [ofScaled, horner_digits]
  push_cast
  field_simp

theorem ofScaled_value (scale : Nat) (n : Int) : (ofScaled scale n).value * 10 ^ scale = n := by
  have hmag := ofScaled_magnitude scale n
  by_cases hneg : n < 0
  · have hsign : (ofScaled scale n).sign = .neg := if_pos hneg
    rw [NumericVar.value, if_pos hsign, neg_mul, hmag, ← Int.cast_natCast, Int.ofNat_natAbs_of_nonpos hneg.le]
    simp
  · have hsign : (ofScaled scale n).sign ≠ .neg := by simp [ofScaled, hneg]
    rw [NumericVar.value, if_neg hsign, hmag, ← Int.cast_natCast, Int.natAbs_of_nonneg (not_lt.mp hneg)]

/-- Rounding to the scale, with an error for what the precision does not hold. -/
def applyTypmod (t : DecimalType) (x : Numeric) : Option Numeric :=
  match x.sign with
  | .nan => some x
  | .pinf | .ninf => none
  | .pos | .neg =>
    let n := roundAway (x.value * 10 ^ t.scale)
    if n.natAbs < 10 ^ t.precision then some (ofScaled t.scale n) else none

def numericCoercion : Coercion where
  apply := applyTypmod
  finite t x y hx hy := by
    have hround : (if (roundAway (x.value * 10 ^ t.scale)).natAbs < 10 ^ t.precision then
        some (ofScaled t.scale (roundAway (x.value * 10 ^ t.scale))) else none) = some y := by
      rcases hx with hsign | hsign <;> simpa only [applyTypmod, hsign] using hy
    split at hround
    · rename_i hlt
      obtain rfl := Option.some.inj hround
      refine ⟨?_, rfl, ofScaled_value _ _, ?_⟩
      · simp only [NumericVar.Finite, ofScaled]
        split <;> simp
      · rw [ofScaled_magnitude]
        exact_mod_cast hlt
    · cases hround
  nan t x hnan := ⟨x, by simp only [applyTypmod, hnan], hnan⟩
  infinite t x hinf := by rcases hinf with hsign | hsign <;> simp only [applyTypmod, hsign]

theorem oneAndAHalf_shown (ds : List Nat) (d : Nat) (h : [1, 5000] = ds ++ [d]) (c : Nat)
    (hc : 4 * NumericVar.fractional ⟨.pos, 0, 1, [1, 5000]⟩ - (1 : Nat) = c) : c < 4 ∧ 10 ^ c ∣ d := by
  obtain rfl : c = 3 := by
    simp only [NumericVar.fractional, List.length_cons, List.length_nil] at hc
    omega
  have hlast := congrArg List.getLast? h
  rw [List.getLast?_append] at hlast
  obtain rfl : 5000 = d := by simpa using hlast
  exact ⟨by decide, by decide⟩

/-- The literal `1.5`. -/
def oneAndAHalf : Numeric where
  sign := .pos
  weight := 0
  dscale := 1
  digits := [1, 5000]
  special h := absurd rfl h
  shown := oneAndAHalf_shown

/-- A plain column stores `1.5` and reads it as `0.015`. -/
theorem one_and_a_half_misread :
    oneAndAHalf.value = 3 / 2 ∧ stored numericCoercion .plain oneAndAHalf = some oneAndAHalf ∧
      readCell .plain oneAndAHalf = .value 15 ∧ ¬RoundTrips numericCoercion .plain oneAndAHalf := by
  have hread : readCell .plain oneAndAHalf = .value 15 := by decide
  have hvalue : oneAndAHalf.value = 3 / 2 := by
    have hpos : oneAndAHalf.sign ≠ .neg := by decide
    rw [NumericVar.value, if_neg hpos]
    norm_num [oneAndAHalf, NumericVar.magnitude, digitsValue]
  refine ⟨hvalue, rfl, hread, fun h => ?_⟩
  rcases h oneAndAHalf rfl with herror | ⟨-, hright⟩
  · rw [hread] at herror
    cases herror
  · have hround : roundAway (oneAndAHalf.value * 10 ^ Column.plain.type.scale) = 1500 := by
      have hscaled : oneAndAHalf.value * 10 ^ Column.plain.type.scale = (1500 : Nat) := by
        rw [hvalue]
        norm_num [Column.type]
      rw [hscaled, roundAway_natCast]
      rfl
    rw [hread, hround] at hright
    cases hright

end PgDucklake.Decimal
