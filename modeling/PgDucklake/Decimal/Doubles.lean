import PgDucklake.Decimal.Exact

/-!
# Numerics as doubles

A numeric that has no DECIMAL can be read as a DOUBLE: `ConvertDecimal` once more, in double arithmetic, with the result
divided by the power of ten that the parts were brought to. The operations are parameters.
-/

namespace PgDucklake.Decimal

/-- The operations of C++ on doubles, by their bits. -/
structure Doubles where
  ofNat : Nat → BitVec 64
  add : BitVec 64 → BitVec 64 → BitVec 64
  mul : BitVec 64 → BitVec 64 → BitVec 64
  div : BitVec 64 → BitVec 64 → BitVec 64
  neg : BitVec 64 → BitVec 64
  /-- `pow(10, index)`. -/
  pow : Nat → BitVec 64

variable (D : Doubles)

def integralLoopDouble : BitVec 64 → List Nat → Nat → BitVec 64
  | acc, _, 0 => acc
  | acc, [], n + 1 => integralLoopDouble (D.mul acc (D.ofNat 10000)) [] n
  | acc, d :: ds, n + 1 => integralLoopDouble (D.add (D.mul acc (D.ofNat 10000)) (D.ofNat d)) ds n

def fractionalLoopDouble (correction : Int) (compensation : BitVec 64) : BitVec 64 → List Nat → BitVec 64
  | acc, [] => acc
  | acc, [d] =>
    let finalBase := if 0 ≤ correction then D.div (D.ofNat 10000) compensation else D.mul (D.ofNat 10000) compensation
    let finalDigit := if 0 ≤ correction then D.div (D.ofNat d) compensation else D.mul (D.ofNat d) compensation
    D.add (D.mul acc finalBase) finalDigit
  | acc, d :: ds => fractionalLoopDouble correction compensation (D.add (D.mul acc (D.ofNat 10000)) (D.ofNat d)) ds

def integralPartDouble (x : NumericVar) : BitVec 64 :=
  if 0 ≤ x.weight then
    D.mul (integralLoopDouble D (D.ofNat (x.digits.headD 0)) x.digits.tail x.weight.toNat) (D.pow x.dscale)
  else 0

def fractionalPartDouble (x : NumericVar) : BitVec 64 :=
  if x.weight + 1 < x.digits.length then
    let correction := 4 * x.fractional - x.dscale
    fractionalLoopDouble D correction (D.pow correction.natAbs) 0 (x.digits.drop (max 0 (x.weight + 1)).toNat)
  else 0

/-- `ConvertDecimal<double, DecimalConversionDouble>`. -/
def convertDecimalDouble (x : NumericVar) : BitVec 64 :=
  if x.digits = [] then 0
  else
    let baseRes := D.div (D.add (integralPartDouble D x) (fractionalPartDouble D x)) (D.pow x.dscale)
    if x.sign = .neg then D.neg baseRes else baseRes

end PgDucklake.Decimal
