import PgDucklake.Lib.Numerals

/-!
# From PostgreSQL numerics to DuckDB decimals

A PostgreSQL numeric is a list of base-10000 digits with a weight and a display scale; a DuckDB `DECIMAL(p, s)` is an
integer, the value times `10 ^ s`. `convertDecimal` makes the integer with the display scale of the value in the place of
`s`: where it returns one, it is the value times `10 ^ dscale` (`convertDecimal_eq`).
-/

namespace PgDucklake.Decimal

open Lib

inductive NumericSign
  | pos
  | neg
  | nan
  | pinf
  | ninf
  deriving DecidableEq, Repr

/-- `NumericVar`, as `FromNumeric` fills it in. -/
structure NumericVar where
  sign : NumericSign
  weight : Int
  dscale : Nat
  digits : List Nat
  deriving DecidableEq, Repr

/-- The number of base-10000 digits after the point. -/
def NumericVar.fractional (x : NumericVar) : Int := x.digits.length - x.weight - 1

/-- A stored numeric. Of a special value only the header is stored; the bits that mark an infinity there are read as a
display scale of 32. No digit is hidden by the display scale: the last stored digit lies within it. -/
structure Numeric extends NumericVar where
  special : sign ≠ .pos → sign ≠ .neg → digits = [] ∧ dscale = if sign = .nan then 0 else 32
  shown : ∀ ds d, digits = ds ++ [d] → ∀ c : Nat, 4 * toNumericVar.fractional - dscale = c → c < 4 ∧ 10 ^ c ∣ d

/-- The integers that DuckDB stores decimals in. -/
inductive DecimalStorage
  | int16
  | int32
  | int64
  | hugeint
  deriving DecidableEq, Repr

def DecimalStorage.bits : DecimalStorage → Nat
  | .int16 => 16
  | .int32 => 32
  | .int64 => 64
  | .hugeint => 128

/-- The tables of powers of ten end at `10 ^ 18` and `10 ^ 38`; beyond is an exception. -/
def DecimalStorage.powers : DecimalStorage → Nat
  | .hugeint => 39
  | _ => 19

def getPowerOfTen (T : DecimalStorage) (index : Nat) : Option Nat := if index < T.powers then some (10 ^ index) else none

/-- What comes of a conversion: an integer, an exception, or a computation that leaves the range of its type. -/
inductive Outcome
  | value (n : Int)
  | error
  | overflow
  deriving DecidableEq, Repr

/-- The loop over the digits before the point; those that are not stored are zeros. -/
def integralLoop : Nat → List Nat → Nat → Nat
  | acc, _, 0 => acc
  | acc, [], n + 1 => integralLoop (acc * 10000) [] n
  | acc, d :: ds, n + 1 => integralLoop (acc * 10000 + d) ds n

/-- The loop over the digits after the point; the last one is brought to the scale. -/
def fractionalLoop (correction : Int) (compensation : Nat) : Nat → List Nat → Nat
  | acc, [] => acc
  | acc, [d] =>
    if 0 ≤ correction then acc * (10000 / compensation) + d / compensation
    else acc * (10000 * compensation) + d * compensation
  | acc, d :: ds => fractionalLoop correction compensation (acc * 10000 + d) ds

/-- The part before the point, to the scale. -/
def integralPart (scalePower : Nat) (x : NumericVar) : Nat :=
  if 0 ≤ x.weight then integralLoop (x.digits.headD 0) x.digits.tail x.weight.toNat * scalePower else 0

/-- The part after the point, to the scale. -/
def fractionalPart (T : DecimalStorage) (x : NumericVar) : Option Nat :=
  if x.weight + 1 < x.digits.length then
    let correction := 4 * x.fractional - x.dscale
    (getPowerOfTen T correction.natAbs).map fun compensation =>
      fractionalLoop correction compensation 0 (x.digits.drop (max 0 (x.weight + 1)).toNat)
  else some 0

def convertDecimal (T : DecimalStorage) (x : NumericVar) : Outcome :=
  match getPowerOfTen T x.dscale with
  | none => .error
  | some scalePower =>
    if x.digits = [] then .value 0
    else
      match fractionalPart T x with
      | none => .error
      | some fractional =>
        let result := integralPart scalePower x + fractional
        if result < 2 ^ (T.bits - 1) then .value (if x.sign = .neg then -result else result) else .overflow

/-! ## The loops -/

theorem integralLoop_nil : ∀ acc n : Nat, integralLoop acc [] n = acc * 10000 ^ n
  | acc, 0 => by simp [integralLoop]
  | acc, n + 1 => by
    rw [integralLoop, integralLoop_nil (acc * 10000) n]
    ring

theorem integralLoop_eq : ∀ (acc : Nat) (ds : List Nat) (n : Nat),
    integralLoop acc ds n = horner 10000 acc (ds.take n) * 10000 ^ (n - ds.length)
  | acc, ds, 0 => by simp [integralLoop]
  | acc, [], n + 1 => by simp [integralLoop_nil]
  | acc, d :: ds, n + 1 => by
    rw [integralLoop, integralLoop_eq (acc * 10000 + d) ds n]
    simp [horner]

theorem fractionalLoop_concat (correction : Int) (compensation d : Nat) : ∀ (acc : Nat) (ds : List Nat),
    fractionalLoop correction compensation acc (ds ++ [d]) =
      fractionalLoop correction compensation (horner 10000 acc ds) [d]
  | _, [] => by simp only [List.nil_append, horner]
  | acc, e :: ds => by
    have ih := fractionalLoop_concat correction compensation d (acc * 10000 + e) ds
    rw [horner, ← ih]
    cases ds with
    | nil => simp only [List.cons_append, List.nil_append, fractionalLoop]
    | cons e' ds => simp only [List.cons_append, fractionalLoop]

theorem fractionalLoop_scaled {correction : Int} {ds : List Nat} {d : Nat}
    (hshown : ∀ c : Nat, correction = c → c < 4 ∧ 10 ^ c ∣ d) :
    (fractionalLoop correction (10 ^ correction.natAbs) 0 (ds ++ [d]) : ℚ) =
      horner 10000 0 (ds ++ [d]) * (10 : ℚ) ^ (-correction) := by
  rw [fractionalLoop_concat, horner_concat]
  rcases Int.eq_nat_or_neg correction with ⟨c, rfl | rfl⟩
  · obtain ⟨hlt, m, rfl⟩ := hshown c rfl
    have hbase : 10000 / 10 ^ c = 10 ^ (4 - c) := by
      have hfour : 10000 = 10 ^ c * 10 ^ (4 - c) := by
        rw [← Nat.pow_add, Nat.add_sub_cancel' (by omega)]
      rw [hfour, Nat.mul_div_cancel_left _ (by positivity)]
    have hten : (10000 : ℚ) = 10 ^ (4 - c) * 10 ^ c := by
      rw [← pow_add, Nat.sub_add_cancel (by omega)]
      norm_num
    simp only [fractionalLoop, Int.natAbs_natCast, Int.natCast_nonneg, if_true, hbase]
    rw [Nat.mul_div_cancel_left _ (by positivity), zpow_neg, zpow_natCast]
    push_cast
    rw [hten]
    field_simp
  · by_cases hc : c = 0
    · subst hc
      simp [fractionalLoop]
    · have hneg : ¬(0 : Int) ≤ -(c : Int) := by omega
      simp only [fractionalLoop, Int.natAbs_neg, Int.natAbs_natCast, hneg, if_false, neg_neg, zpow_natCast]
      push_cast
      ring

/-! ## The value of a numeric -/

/-- The absolute value. -/
def NumericVar.magnitude (x : NumericVar) : ℚ := digitsValue 10000 x.weight x.digits

/-- The value of a numeric that is not special. -/
def NumericVar.value (x : NumericVar) : ℚ := if x.sign = .neg then -x.magnitude else x.magnitude

theorem getPowerOfTen_eq {T : DecimalStorage} {index p : Nat} (h : getPowerOfTen T index = some p) : p = 10 ^ index := by
  simp only [getPowerOfTen] at h
  split at h
  · cases h
    rfl
  · cases h

theorem tenThousand_zpow (k : Int) : (10000 : ℚ) ^ k = (10 : ℚ) ^ (4 * k) := by
  rw [zpow_mul]
  norm_num

theorem magnitude_scaled (x : NumericVar) (n : Nat) :
    x.magnitude * 10 ^ n = horner 10000 0 x.digits * (10 : ℚ) ^ (n - 4 * x.fractional) := by
  have hexp : 4 * (x.weight + 1 - x.digits.length) + (n : Int) = n - 4 * x.fractional := by
    simp only [NumericVar.fractional]
    omega
  rw [NumericVar.magnitude, digitsValue_eq (by norm_num), ← hexp]
  push_cast
  rw [tenThousand_zpow, mul_assoc, ← zpow_natCast, ← zpow_add₀ (by norm_num)]

theorem horner_head (ds : List Nat) (hne : ds ≠ []) : horner 10000 (ds.headD 0) ds.tail = horner 10000 0 ds := by
  cases ds with
  | nil => exact absurd rfl hne
  | cons d ds => simp [horner]

theorem integralPart_whole {x : NumericVar} (hne : x.digits ≠ []) (hlen : (x.digits.length : Int) ≤ x.weight + 1)
    (p : Nat) : (integralPart p x : ℚ) = horner 10000 0 x.digits * (10 : ℚ) ^ (-(4 * x.fractional)) * p := by
  have hpos : 0 < x.digits.length := List.length_pos_iff.mpr hne
  have hw : 0 ≤ x.weight := by omega
  obtain ⟨w, hwn⟩ := Int.eq_ofNat_of_zero_le hw
  have htail : x.digits.tail.length ≤ w := by
    rw [List.length_tail]
    omega
  have hexp : -(4 * x.fractional) = ((4 * (w - x.digits.tail.length) : Nat) : Int) := by
    simp only [NumericVar.fractional, List.length_tail] at htail ⊢
    omega
  rw [integralPart, if_pos hw, hwn, Int.toNat_natCast, integralLoop_eq, List.take_of_length_le htail,
    horner_head _ hne, hexp, zpow_natCast, pow_mul]
  push_cast
  norm_num

theorem integralPart_split {x : NumericVar} {w : Nat} (hw : x.weight = w) (hlen : w + 1 < x.digits.length) (p : Nat) :
    integralPart p x = horner 10000 0 (x.digits.take (w + 1)) * p := by
  have hne : x.digits ≠ [] := by
    rintro h
    simp [h] at hlen
  have hzero : w - x.digits.tail.length = 0 := by
    rw [List.length_tail]
    omega
  have htake : horner 10000 (x.digits.headD 0) (x.digits.tail.take w) = horner 10000 0 (x.digits.take (w + 1)) := by
    cases hd : x.digits with
    | nil => exact absurd hd hne
    | cons d ds => simp [horner]
  rw [integralPart, if_pos (by omega), hw, Int.toNat_natCast, integralLoop_eq, hzero, htake]
  simp

theorem fractionalPart_scaled {T : DecimalStorage} {x : Numeric} {i f : Nat}
    (hi : (max 0 (x.weight + 1)).toNat = i) (hlt : i < x.digits.length) (hlen : x.weight + 1 < x.digits.length)
    (h : fractionalPart T x.toNumericVar = some f) :
    (f : ℚ) = horner 10000 0 (x.digits.drop i) * (10 : ℚ) ^ (x.dscale - 4 * x.fractional) := by
  simp only [fractionalPart, if_pos hlen, hi] at h
  obtain ⟨compensation, hc, rfl⟩ := Option.map_eq_some_iff.mp h
  rw [getPowerOfTen_eq hc]
  have hdrop : x.digits.drop i ≠ [] := by simpa using hlt
  have hlast := (List.dropLast_append_getLast hdrop).symm
  rw [hlast, fractionalLoop_scaled, neg_sub]
  intro c hcorr
  refine x.shown (x.digits.take i ++ (x.digits.drop i).dropLast) _ ?_ c hcorr
  rw [List.append_assoc, ← hlast, List.take_append_drop]

theorem result_eq {T : DecimalStorage} {x : Numeric} {f : Nat} (hne : x.digits ≠ [])
    (h : fractionalPart T x.toNumericVar = some f) :
    ((integralPart (10 ^ x.dscale) x.toNumericVar + f : Nat) : ℚ) = x.magnitude * 10 ^ x.dscale := by
  have hten : (10 : ℚ) ≠ 0 := by norm_num
  rw [magnitude_scaled]
  by_cases hlen : x.weight + 1 < x.digits.length
  · by_cases hw : 0 ≤ x.weight
    · obtain ⟨w, hwn⟩ := Int.eq_ofNat_of_zero_le hw
      have hi : (max 0 (x.weight + 1)).toNat = w + 1 := by omega
      have hlt : w + 1 < x.digits.length := by omega
      have hfrac := fractionalPart_scaled hi hlt hlen h
      have hint := integralPart_split hwn hlt (10 ^ x.dscale)
      have hsplit : horner 10000 0 x.digits =
          horner 10000 0 (x.digits.take (w + 1)) * 10000 ^ (x.digits.length - (w + 1)) +
            horner 10000 0 (x.digits.drop (w + 1)) := by
        conv_lhs => rw [← List.take_append_drop (w + 1) x.digits]
        rw [horner_append, horner_acc, List.length_drop]
      have hpow : (10000 : ℚ) ^ (x.digits.length - (w + 1)) * (10 : ℚ) ^ (x.dscale - 4 * x.fractional) =
          10 ^ x.dscale := by
        rw [← zpow_natCast, tenThousand_zpow, ← zpow_add₀ hten, ← zpow_natCast]
        congr 1
        simp only [NumericVar.fractional]
        omega
      rw [Nat.cast_add, hfrac, hint, hsplit]
      push_cast
      rw [add_mul, mul_assoc, hpow]
    · have hi : (max 0 (x.weight + 1)).toNat = 0 := by omega
      have hlt : 0 < x.digits.length := List.length_pos_iff.mpr hne
      have hfrac := fractionalPart_scaled hi hlt hlen h
      rw [Nat.cast_add, hfrac, integralPart, if_neg hw, List.drop_zero]
      simp
  · have hzero : f = 0 := by
      simp only [fractionalPart, if_neg hlen, Option.some.injEq] at h
      exact h.symm
    subst hzero
    rw [Nat.add_zero, integralPart_whole hne (by omega), mul_assoc]
    push_cast
    rw [← zpow_natCast, ← zpow_add₀ hten]
    congr 2
    omega

theorem fractionalPart_isSome {T : DecimalStorage} (x : Numeric) (hscale : x.dscale < T.powers) (hne : x.digits ≠ []) :
    ∃ f, fractionalPart T x.toNumericVar = some f := by
  by_cases hlen : x.weight + 1 < x.digits.length
  · have hbound : (4 * x.fractional - x.dscale).natAbs < T.powers := by
      have hk : 0 < x.fractional := by
        simp only [NumericVar.fractional]
        omega
      have hfour : 4 < T.powers := by cases T <;> decide
      by_cases hneg : 4 * x.fractional - x.dscale < 0
      · omega
      · obtain ⟨c, hc⟩ := Int.eq_ofNat_of_zero_le (not_lt.mp hneg)
        have hlt := (x.shown _ _ (List.dropLast_append_getLast hne).symm c hc).1
        omega
    simp only [fractionalPart, if_pos hlen, getPowerOfTen, if_pos hbound]
    exact ⟨_, rfl⟩
  · exact ⟨0, by simp only [fractionalPart, if_neg hlen]⟩

theorem convertDecimal_eq {T : DecimalStorage} (x : Numeric) (hscale : x.dscale < T.powers) :
    ∃ r : Nat, (r : ℚ) = x.magnitude * 10 ^ x.dscale ∧
      convertDecimal T x.toNumericVar =
        if r < 2 ^ (T.bits - 1) then .value (if x.sign = .neg then -r else r) else .overflow := by
  have hpower : getPowerOfTen T x.dscale = some (10 ^ x.dscale) := if_pos hscale
  by_cases hne : x.digits = []
  · refine ⟨0, by simp [NumericVar.magnitude, hne, digitsValue], ?_⟩
    simp [convertDecimal, hpower, hne]
  · obtain ⟨f, hf⟩ := fractionalPart_isSome x hscale hne
    refine ⟨_, result_eq hne hf, ?_⟩
    simp only [convertDecimal, hpower, hne, if_false, hf]

end PgDucklake.Decimal
