import PgDucklake.Decimal.RoundTrip
import PgDucklake.Lib.Traced

/-!
# Numerics of a declared column become their decimals

`convertDecimal` on the numerics that a `numeric(p, s)` column holds. The computation is written out a second time with a
note of every value that it stores in the decimal's own type; none of them leaves the type (`steps_fit`), and the result
is the value times `10 ^ s`. `decimal_exact_iff` adds the special values: they have no digits, and where the conversion
gets that far it returns zero for them.
-/

namespace PgDucklake.Decimal

open Lib

/-! ## The steps of a conversion -/

/-- A value that is stored in the decimal's type. -/
def keep (n : Nat) : Traced Nat Nat := .note n n

@[simp] theorem value_keep (n : Nat) : (keep n).value = n := rfl

@[simp] theorem all_keep {P : Nat → Prop} (n : Nat) : (keep n).All P ↔ P n := Traced.all_note n n

def integralLoopSteps : Nat → List Nat → Nat → Traced Nat Nat
  | acc, _, 0 => pure acc
  | acc, [], n + 1 => do
    let acc ← keep (acc * 10000)
    integralLoopSteps acc [] n
  | acc, d :: ds, n + 1 => do
    let acc ← keep (acc * 10000)
    let acc ← keep (acc + d)
    integralLoopSteps acc ds n

def integralPartSteps (scalePower : Nat) (x : NumericVar) : Traced Nat Nat :=
  if 0 ≤ x.weight then do
    let acc ← keep (x.digits.headD 0)
    let acc ← integralLoopSteps acc x.digits.tail x.weight.toNat
    keep (acc * scalePower)
  else pure 0

def fractionalLoopSteps (correction : Int) (compensation : Nat) : Nat → List Nat → Traced Nat Nat
  | acc, [] => pure acc
  | acc, [d] => do
    let finalBase ← keep 10000
    let finalDigit ← keep d
    let compensation ← keep compensation
    let finalBase ← keep (if 0 ≤ correction then finalBase / compensation else finalBase * compensation)
    let finalDigit ← keep (if 0 ≤ correction then finalDigit / compensation else finalDigit * compensation)
    let acc ← keep (acc * finalBase)
    keep (acc + finalDigit)
  | acc, d :: ds => do
    let acc ← keep (acc * 10000)
    let acc ← keep (acc + d)
    fractionalLoopSteps correction compensation acc ds

def fractionalPartSteps (x : NumericVar) : Traced Nat Nat :=
  if x.weight + 1 < x.digits.length then
    let correction := 4 * x.fractional - x.dscale
    fractionalLoopSteps correction (10 ^ correction.natAbs) 0 (x.digits.drop (max 0 (x.weight + 1)).toNat)
  else pure 0

/-- The computation of a conversion that finds its powers of ten. -/
def convertSteps (x : NumericVar) : Traced Nat Nat := do
  let integralPart ← integralPartSteps (10 ^ x.dscale) x
  let fractionalPart ← fractionalPartSteps x
  keep (integralPart + fractionalPart)

/-! ## The steps compute the parts -/

@[simp]
theorem value_integralLoopSteps : ∀ (acc : Nat) (ds : List Nat) (n : Nat),
    (integralLoopSteps acc ds n).value = integralLoop acc ds n
  | _, _, 0 => by simp [integralLoopSteps, integralLoop]
  | acc, [], n + 1 => by simp [integralLoopSteps, integralLoop, value_integralLoopSteps _ [] n]
  | acc, d :: ds, n + 1 => by simp [integralLoopSteps, integralLoop, value_integralLoopSteps _ ds n]

@[simp]
theorem value_integralPartSteps (scalePower : Nat) (x : NumericVar) :
    (integralPartSteps scalePower x).value = integralPart scalePower x := by
  simp [integralPartSteps, integralPart]

@[simp]
theorem value_fractionalLoopSteps (correction : Int) (compensation : Nat) : ∀ (acc : Nat) (ds : List Nat),
    (fractionalLoopSteps correction compensation acc ds).value = fractionalLoop correction compensation acc ds
  | _, [] => rfl
  | acc, [d] => by
    simp only [fractionalLoopSteps, fractionalLoop, Traced.value_bind, value_keep]
    split <;> rfl
  | acc, d :: e :: ds => by
    have ih := value_fractionalLoopSteps correction compensation (acc * 10000 + d) (e :: ds)
    simp [fractionalLoopSteps, fractionalLoop, ih]

/-! ## None of them is large -/

theorem le_integralLoop : ∀ (acc : Nat) (ds : List Nat) (n : Nat), acc ≤ integralLoop acc ds n
  | _, _, 0 => by simp [integralLoop]
  | acc, [], n + 1 => by
    have ih := le_integralLoop (acc * 10000) [] n
    rw [integralLoop]
    omega
  | acc, d :: ds, n + 1 => by
    have ih := le_integralLoop (acc * 10000 + d) ds n
    rw [integralLoop]
    omega

theorem integralLoopSteps_le {bound : Nat} : ∀ {acc : Nat} {ds : List Nat} {n : Nat},
    integralLoop acc ds n ≤ bound → (integralLoopSteps acc ds n).All (· ≤ bound)
  | _, _, 0, _ => by simp [integralLoopSteps]
  | acc, [], n + 1, h => by
    rw [integralLoop] at h
    have ih := integralLoopSteps_le h
    have hstep := (le_integralLoop (acc * 10000) [] n).trans h
    simp [integralLoopSteps, ih, hstep]
  | acc, d :: ds, n + 1, h => by
    rw [integralLoop] at h
    have ih := integralLoopSteps_le h
    have hstep := (le_integralLoop (acc * 10000 + d) ds n).trans h
    simp only [integralLoopSteps, Traced.all_bind, all_keep, value_keep]
    exact ⟨(Nat.le_add_right _ d).trans hstep, hstep, ih⟩

theorem integralPartSteps_le {scalePower bound : Nat} (hpower : 0 < scalePower) {x : NumericVar}
    (h : integralPart scalePower x ≤ bound) : (integralPartSteps scalePower x).All (· ≤ bound) := by
  by_cases hw : 0 ≤ x.weight
  · rw [integralPart, if_pos hw] at h
    have hloop := (Nat.le_mul_of_pos_right _ hpower).trans h
    have hfirst := (le_integralLoop (x.digits.headD 0) x.digits.tail x.weight.toNat).trans hloop
    simp only [integralPartSteps, if_pos hw, Traced.all_bind, all_keep, value_keep, value_integralLoopSteps]
    exact ⟨hfirst, integralLoopSteps_le hloop, h⟩
  · simp [integralPartSteps, if_neg hw]

/-- What brings the last digit to the scale is at least one. -/
def finalBase (correction : Int) (compensation : Nat) : Nat :=
  if 0 ≤ correction then 10000 / compensation else 10000 * compensation

def finalDigit (correction : Int) (compensation d : Nat) : Nat :=
  if 0 ≤ correction then d / compensation else d * compensation

theorem fractionalLoop_last (correction : Int) (compensation acc d : Nat) :
    fractionalLoop correction compensation acc [d] =
      acc * finalBase correction compensation + finalDigit correction compensation d := by
  simp only [fractionalLoop, finalBase, finalDigit]
  split <;> rfl

theorem le_fractionalLoop {correction : Int} {compensation : Nat} (hbase : 0 < finalBase correction compensation) :
    ∀ (acc : Nat) (ds : List Nat), acc ≤ fractionalLoop correction compensation acc ds
  | _, [] => Nat.le_refl _
  | acc, [d] => by
    rw [fractionalLoop_last]
    exact (Nat.le_mul_of_pos_right acc hbase).trans (Nat.le_add_right _ _)
  | acc, d :: e :: ds => by
    have ih := le_fractionalLoop hbase (acc * 10000 + d) (e :: ds)
    rw [fractionalLoop]
    · exact (Nat.le_mul_of_pos_right acc (by norm_num)).trans ((Nat.le_add_right _ d).trans ih)
    · exact fun h => by cases h

theorem fractionalLoopSteps_le {correction : Int} {compensation bound : Nat}
    (hbase : 0 < finalBase correction compensation) (hten : 10000 ≤ bound) (hcompensation : compensation ≤ bound)
    (hfinal : finalBase correction compensation ≤ bound) :
    ∀ {acc : Nat} {ds : List Nat}, (∀ d ∈ ds, d ≤ bound ∧ finalDigit correction compensation d ≤ bound) →
      fractionalLoop correction compensation acc ds ≤ bound →
      (fractionalLoopSteps correction compensation acc ds).All (· ≤ bound)
  | _, [], _, _ => by simp [fractionalLoopSteps]
  | acc, [d], hdigits, h => by
    obtain ⟨hd, hdigit⟩ := hdigits d List.mem_cons_self
    rw [fractionalLoop_last] at h
    simp only [fractionalLoopSteps, Traced.all_bind, all_keep, value_keep]
    exact ⟨hten, hd, hcompensation, hfinal, hdigit, (Nat.le_add_right _ _).trans h, h⟩
  | acc, d :: e :: ds, hdigits, h => by
    rw [fractionalLoop] at h
    · have ih := fractionalLoopSteps_le hbase hten hcompensation hfinal
        (fun d' hd' => hdigits d' (List.mem_cons_of_mem _ hd')) h
      have hstep := (le_fractionalLoop hbase (acc * 10000 + d) (e :: ds)).trans h
      simp only [fractionalLoopSteps, Traced.all_bind, all_keep, value_keep]
      exact ⟨(Nat.le_add_right _ d).trans hstep, hstep, ih⟩
    · exact fun h => by cases h

/-! ## The numerics of a column -/

/-- A numeric that a column `numeric(p, s)` may hold: a number is rounded to the scale and within the precision. -/
structure ColumnNumeric (t : DecimalType) extends Numeric where
  digits_lt : ∀ d ∈ digits, d < 10000
  rounded : toNumericVar.Finite → dscale = t.scale
  within : toNumericVar.Finite → toNumericVar.magnitude * 10 ^ t.scale < 10 ^ t.precision

/-- The conversion of a number is exact and stays in its type; the conversion of a special value returns no number. -/
def DecimalExact (t : DecimalType) (x : ColumnNumeric t) : Prop :=
  (x.Finite → (∃ n : Int, convertDecimal t.storage x.toNumericVar = .value n ∧ (n : ℚ) = x.value * 10 ^ t.scale) ∧
    (x.digits ≠ [] → (convertSteps x.toNumericVar).All (· < 2 ^ (t.storage.bits - 1)))) ∧
  (¬x.Finite → ∀ n, convertDecimal t.storage x.toNumericVar ≠ .value n)

theorem value_convertSteps {T : DecimalStorage} {x : NumericVar} {f : Nat} (h : fractionalPart T x = some f) :
    (convertSteps x).value = integralPart (10 ^ x.dscale) x + f := by
  have hf : (fractionalPartSteps x).value = f := by
    simp only [fractionalPart] at h
    simp only [fractionalPartSteps]
    split at h
    · rename_i hlen
      obtain ⟨compensation, hc, rfl⟩ := Option.map_eq_some_iff.mp h
      rw [if_pos hlen, value_fractionalLoopSteps, getPowerOfTen_eq hc]
    · rename_i hlen
      rw [if_neg hlen]
      exact Option.some.inj h
  simp [convertSteps, hf]

theorem final_le {scale bound : Nat} (correction : Int) (hten : 10000 ≤ bound) (hscale : 10 ^ scale ≤ bound)
    (hpositive : 0 ≤ correction → correction < 4) (hnegative : correction < 0 → correction + scale ≥ 4) :
    10 ^ correction.natAbs ≤ bound ∧ 0 < finalBase correction (10 ^ correction.natAbs) ∧
      finalBase correction (10 ^ correction.natAbs) ≤ bound ∧
      ∀ d < 10000, finalDigit correction (10 ^ correction.natAbs) d ≤ bound := by
  by_cases hc : 0 ≤ correction
  · have hlt := hpositive hc
    have hpow : 10 ^ correction.natAbs ≤ 10 ^ 3 := Nat.pow_le_pow_right (by norm_num) (by omega)
    refine ⟨by omega, ?_, ?_, ?_⟩
    · rw [finalBase, if_pos hc]
      exact Nat.div_pos (by omega) (by positivity)
    · rw [finalBase, if_pos hc]
      exact (Nat.div_le_self _ _).trans hten
    · intro d hd
      rw [finalDigit, if_pos hc]
      exact (Nat.div_le_self _ _).trans (by omega)
  · have hge := hnegative (not_le.mp hc)
    have hbase : 10000 * 10 ^ correction.natAbs ≤ bound := by
      refine le_trans ?_ hscale
      rw [show 10000 = 10 ^ 4 from rfl, ← Nat.pow_add]
      exact Nat.pow_le_pow_right (by norm_num) (by omega)
    have hpos : 0 < 10 ^ correction.natAbs := by positivity
    refine ⟨by omega, ?_, ?_, ?_⟩
    · rw [finalBase, if_neg hc]
      positivity
    · rw [finalBase, if_neg hc]
      exact hbase
    · intro d hd
      rw [finalDigit, if_neg hc]
      exact (Nat.mul_le_mul_right _ hd.le).trans hbase

theorem steps_fit {t : DecimalType} (x : ColumnNumeric t) (hfinite : x.Finite) (hne : x.digits ≠ []) {f : Nat}
    (hf : fractionalPart t.storage x.toNumericVar = some f) :
    (convertSteps x.toNumericVar).All (· < 2 ^ (t.storage.bits - 1)) := by
  have hscale := x.rounded hfinite
  have hfits := storage_fits t
  -- the result, which bounds the two parts
  have hresult : integralPart (10 ^ x.dscale) x.toNumericVar + f < 10 ^ t.precision := by
    have hcast := result_eq hne hf
    have hwithin := x.within hfinite
    rw [hscale] at hcast ⊢
    rw [← hcast] at hwithin
    exact_mod_cast hwithin
  obtain ⟨bound, hbound⟩ : ∃ bound, 2 ^ (t.storage.bits - 1) = bound + 1 :=
    ⟨2 ^ (t.storage.bits - 1) - 1, by omega⟩
  have hten : 10000 ≤ bound := by
    have hsmall : 10000 < 2 ^ (t.storage.bits - 1) := by cases t.storage <;> decide
    omega
  have hpow : 10 ^ t.scale ≤ bound := by
    have := Nat.pow_le_pow_right (by norm_num : 0 < 10) t.scale_le
    omega
  have hfractional : (fractionalPartSteps x.toNumericVar).All (· ≤ bound) := by
    by_cases hlen : x.weight + 1 < x.digits.length
    · have hone : 1 ≤ x.fractional := by
        simp only [NumericVar.fractional]
        omega
      obtain ⟨hcompensation, hbase, hfinal, hdigit⟩ :=
        final_le (4 * x.fractional - x.dscale) hten hpow
          (fun hc => by
            obtain ⟨c, hc⟩ := Int.eq_ofNat_of_zero_le hc
            have := (x.shown _ _ (List.dropLast_append_getLast hne).symm c hc).1
            omega)
          (fun _ => by omega)
      simp only [fractionalPart, if_pos hlen] at hf
      obtain ⟨compensation, hc, hloop⟩ := Option.map_eq_some_iff.mp hf
      rw [getPowerOfTen_eq hc] at hloop
      simp only [fractionalPartSteps, if_pos hlen]
      refine fractionalLoopSteps_le hbase hten hcompensation hfinal ?_ (by omega)
      intro d hd
      have hlt := x.digits_lt d (List.mem_of_mem_drop hd)
      exact ⟨by omega, hdigit d hlt⟩
    · simp [fractionalPartSteps, if_neg hlen]
  have hintegral : (integralPartSteps (10 ^ x.dscale) x.toNumericVar).All (· ≤ bound) :=
    integralPartSteps_le (by positivity) (by omega)
  have hsum : (convertSteps x.toNumericVar).All (· ≤ bound) := by
    have hvalue := value_convertSteps hf
    simp only [convertSteps, Traced.value_bind, value_keep] at hvalue
    simp only [convertSteps, Traced.all_bind, all_keep]
    exact ⟨hintegral, hfractional, by omega⟩
  intro e he
  have := hsum e he
  omega

/-! ## Exactness -/

theorem finite_exact {t : DecimalType} (x : ColumnNumeric t) (hfinite : x.Finite) :
    ∃ n : Int, convertDecimal t.storage x.toNumericVar = .value n ∧ (n : ℚ) = x.value * 10 ^ t.scale := by
  have hscale := x.rounded hfinite
  have hpowers : x.dscale < t.storage.powers := by
    rw [hscale]
    exact scale_lt_powers t
  obtain ⟨r, hr, hconvert⟩ := convertDecimal_eq x.toNumeric hpowers
  rw [hscale] at hr
  have hlt : r < 2 ^ (t.storage.bits - 1) := by
    refine Nat.lt_trans ?_ (storage_fits t)
    have hcast : (r : ℚ) < 10 ^ t.precision := hr ▸ x.within hfinite
    exact_mod_cast hcast
  exact ⟨signed x.toNumericVar r, by rw [hconvert, if_pos hlt]; rfl, signed_cast hr⟩

/-- The conversion is exact for every number, and returns no number for the infinities, except that of a 128-bit
decimal. -/
theorem decimal_exact_iff (t : DecimalType) (x : ColumnNumeric t) :
    DecimalExact t x ↔ x.sign ≠ .nan ∧ (x.Finite ∨ t.storage ≠ .hugeint) := by
  by_cases hfinite : x.Finite
  · have hnan : x.sign ≠ .nan := by rcases hfinite with h | h <;> simp [h]
    have hsteps : x.digits ≠ [] → (convertSteps x.toNumericVar).All (· < 2 ^ (t.storage.bits - 1)) := by
      intro hne
      obtain ⟨f, hf⟩ := fractionalPart_isSome x.toNumeric (by rw [x.rounded hfinite]; exact scale_lt_powers t) hne
      exact steps_fit x hfinite hne hf
    constructor
    · exact fun _ => ⟨hnan, Or.inl hfinite⟩
    · exact fun _ => ⟨fun _ => ⟨finite_exact x hfinite, hsteps⟩, fun h => absurd hfinite h⟩
  · have hdigits : x.digits = [] := (x.special (fun h => hfinite (Or.inl h)) (fun h => hfinite (Or.inr h))).1
    have hconvert : convertDecimal t.storage x.toNumericVar =
        if x.dscale < t.storage.powers then .value 0 else .error := by
      simp only [convertDecimal, getPowerOfTen]
      split
      · rename_i h
        split at h
        · cases h
        · rename_i hlt
          rw [if_neg hlt]
      · rename_i h
        split at h
        · rename_i hlt
          rw [if_pos hlt, if_pos hdigits]
        · cases h
    have hexact : DecimalExact t x ↔ t.storage.powers ≤ x.dscale := by
      constructor
      · rintro ⟨-, hspecial⟩
        by_contra hlt
        exact hspecial hfinite 0 (by rw [hconvert, if_pos (Nat.lt_of_not_le hlt)])
      · intro hle
        refine ⟨fun h => absurd h hfinite, fun _ n h => ?_⟩
        rw [hconvert, if_neg (Nat.not_lt.mpr hle)] at h
        cases h
    rw [hexact]
    rcases not_finite hfinite with hnan | hinf
    · have hzero : x.dscale = 0 := by
        have := (x.special (by simp [hnan]) (by simp [hnan])).2
        rwa [if_pos hnan] at this
      have hpowers : 0 < t.storage.powers := by cases t.storage <;> decide
      simp [hzero, hnan, Nat.ne_of_gt hpowers]
    · have hnan : x.sign ≠ .nan := by rcases hinf with h | h <;> simp [h]
      have hscale : x.dscale = 32 := dscale_infinite hinf
      rw [hscale]
      cases t.storage <;> simp [DecimalStorage.powers, hnan, hfinite]

/-- NaN, which every column may hold. -/
def nanOf (t : DecimalType) : ColumnNumeric t where
  sign := .nan
  weight := 0
  dscale := 0
  digits := []
  special _ _ := ⟨rfl, rfl⟩
  shown ds d h := absurd h (by simp)
  digits_lt := by simp
  rounded h := by simp [NumericVar.Finite] at h
  within h := by simp [NumericVar.Finite] at h

/-- In a `numeric(10, 2)` column NaN is read as the decimal zero. -/
theorem nan_becomes_zero : ∃ t : DecimalType, t.precision = 10 ∧ t.scale = 2 ∧
    convertDecimal t.storage (nanOf t).toNumericVar = .value 0 ∧ ¬DecimalExact t (nanOf t) := by
  refine ⟨⟨10, 2, by decide, by decide⟩, rfl, rfl, by decide, fun h => ?_⟩
  exact h.2 (by simp [NumericVar.Finite, nanOf]) 0 (by decide)

end PgDucklake.Decimal
