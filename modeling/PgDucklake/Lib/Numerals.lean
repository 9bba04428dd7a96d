import Mathlib.Algebra.Order.Field.Basic
import Mathlib.Algebra.Order.Floor.Ring
import Mathlib.Data.Nat.Digits.Defs
import Mathlib.Data.Rat.Floor
import Mathlib.Tactic.FieldSimp
import Mathlib.Tactic.Linarith
import Mathlib.Tactic.Ring

/-!
# Positional numerals

The value of a list of digits, most significant first, whose first digit is worth a given power of the base
(`digitsValue`); Horner's rule computes it up to a power of the base (`digitsValue_eq`). Rounding to an integer, halves
away from zero (`roundAway`), leaves integers alone and moves everything else off its scaled image
(`roundAway_div_eq_self`).
-/

namespace Lib

section Positional

/-- Horner's rule. -/
def horner (b : Nat) : Nat → List Nat → Nat
  | acc, [] => acc
  | acc, d :: ds => horner b (acc * b + d) ds

@[simp]
theorem horner_nil (b acc : Nat) : horner b acc [] = acc := rfl

theorem horner_append (b : Nat) : ∀ (acc : Nat) (ds es : List Nat),
    horner b acc (ds ++ es) = horner b (horner b acc ds) es
  | _, [], _ => rfl
  | acc, d :: ds, es => horner_append b (acc * b + d) ds es

theorem horner_acc (b : Nat) : ∀ (acc : Nat) (ds : List Nat), horner b acc ds = acc * b ^ ds.length + horner b 0 ds
  | acc, [] => by simp
  | acc, d :: ds => by
    have h₁ := horner_acc b (acc * b + d) ds
    have h₂ := horner_acc b (0 * b + d) ds
    simp only [horner, List.length_cons]
    rw [h₁, h₂]
    ring

theorem horner_concat (b acc : Nat) (ds : List Nat) (d : Nat) : horner b acc (ds ++ [d]) = horner b acc ds * b + d := by
  rw [horner_append]
  rfl

theorem horner_digits (b n : Nat) : horner b 0 (Nat.digits b n).reverse = n := by
  have hof : ∀ ds : List Nat, horner b 0 ds.reverse = Nat.ofDigits b ds := by
    intro ds
    induction ds with
    | nil => simp
    | cons d ds ih =>
      rw [List.reverse_cons, horner_concat, ih, Nat.ofDigits_cons, Nat.mul_comm, Nat.add_comm]
  rw [hof, Nat.ofDigits_digits]

/-- The first digit is worth `b ^ w`, the next `b ^ (w - 1)`, and so on. -/
def digitsValue (b : Nat) : Int → List Nat → ℚ
  | _, [] => 0
  | w, d :: ds => d * (b : ℚ) ^ w + digitsValue b (w - 1) ds

theorem digitsValue_eq {b : Nat} (hb : b ≠ 0) : ∀ (w : Int) (ds : List Nat),
    digitsValue b w ds = horner b 0 ds * (b : ℚ) ^ (w + 1 - ds.length)
  | w, [] => by simp [digitsValue]
  | w, d :: ds => by
    have hb' : (b : ℚ) ≠ 0 := by exact_mod_cast hb
    have ih := digitsValue_eq hb (w - 1) ds
    have hsplit : horner b 0 (d :: ds) = d * b ^ ds.length + horner b 0 ds := by
      rw [horner, Nat.zero_mul, Nat.zero_add]
      exact horner_acc b d ds
    have hpow : (b : ℚ) ^ w = (b : ℚ) ^ ds.length * (b : ℚ) ^ (w - ds.length) := by
      rw [← zpow_natCast, ← zpow_add₀ hb']
      congr 1
      omega
    have hexp : w + 1 - ((d :: ds).length : Int) = w - ds.length := by
      simp only [List.length_cons]
      omega
    rw [digitsValue, ih, hsplit, hexp, hpow, show w - 1 + 1 - (ds.length : Int) = w - ds.length by omega]
    push_cast
    ring

theorem digitsValue_zero_cons (b : Nat) (w : Int) (ds : List Nat) :
    digitsValue b w (0 :: ds) = digitsValue b (w - 1) ds := by
  simp [digitsValue]

theorem digitsValue_concat_zero (b : Nat) : ∀ (w : Int) (ds : List Nat),
    digitsValue b w (ds ++ [0]) = digitsValue b w ds
  | w, [] => by simp [digitsValue]
  | w, d :: ds => by
    have ih := digitsValue_concat_zero b (w - 1) ds
    simp only [List.cons_append, digitsValue, ih]

end Positional

section Digits

/-- The lowest digits of a number, lowest first. -/
def lowDigits (b : Nat) : Nat → Nat → List Nat
  | 0, _ => []
  | k + 1, n => n % b :: lowDigits b k (n / b)

@[simp]
theorem length_lowDigits (b : Nat) : ∀ k n : Nat, (lowDigits b k n).length = k
  | 0, _ => rfl
  | k + 1, n => by simp [lowDigits, length_lowDigits b k]

theorem lowDigits_lt {b : Nat} (hb : 0 < b) {d : Nat} : ∀ {k n : Nat}, d ∈ lowDigits b k n → d < b
  | 0, _, h => by cases h
  | k + 1, n, h => by
    rcases List.mem_cons.mp h with rfl | h
    · exact Nat.mod_lt n hb
    · exact lowDigits_lt hb h

theorem horner_lowDigits (b : Nat) : ∀ k n : Nat, horner b 0 (lowDigits b k n).reverse = n % b ^ k
  | 0, n => by simp [lowDigits, Nat.mod_one]
  | k + 1, n => by
    have ih := horner_lowDigits b k (n / b)
    rw [lowDigits, List.reverse_cons, horner_concat, ih, Nat.pow_succ', Nat.mod_mul]
    ring

/-- The digits of a number, lowest first, if there is room for them. -/
def digitsWithin (b : Nat) : Nat → Nat → Option (List Nat)
  | _, 0 => some []
  | 0, _ + 1 => none
  | room + 1, n + 1 => (digitsWithin b room ((n + 1) / b)).map ((n + 1) % b :: ·)

theorem digitsWithin_eq {b : Nat} (hb : 1 < b) : ∀ {room n : Nat}, n < b ^ room →
    digitsWithin b room n = some (Nat.digits b n)
  | room, 0, _ => by cases room <;> simp [digitsWithin]
  | 0, n + 1, h => by simp at h
  | room + 1, n + 1, h => by
    have hlt : (n + 1) / b < b ^ room := by
      rw [Nat.div_lt_iff_lt_mul (by omega), ← Nat.pow_succ]
      exact h
    have hdigits := Nat.digits_of_two_le_of_pos hb (Nat.succ_pos n)
    rw [digitsWithin, digitsWithin_eq hb hlt, hdigits]
    rfl

end Digits

section Rounding

/-- The nearest integer, halves away from zero. -/
def roundAway (q : ℚ) : Int := if 0 ≤ q then ⌊q + 1 / 2⌋ else -⌊-q + 1 / 2⌋

@[simp]
theorem roundAway_neg (q : ℚ) : roundAway (-q) = -roundAway q := by
  unfold roundAway
  rcases lt_trichotomy q 0 with h | rfl | h
  · rw [if_pos (by linarith), if_neg (by linarith)]
    simp
  · norm_num
  · rw [if_neg (by linarith), if_pos (by linarith)]
    simp

theorem roundAway_natCast (n : Nat) : roundAway n = n := by
  unfold roundAway
  rw [if_pos (by positivity)]
  refine Int.floor_eq_iff.mpr ⟨?_, ?_⟩
  · push_cast
    linarith
  · push_cast
    linarith

theorem roundAway_div_eq_self {n e : Nat} (he : 0 < e) (h : roundAway ((n : ℚ) / 10 ^ e) = n) : n = 0 := by
  by_contra hne
  have hn : (1 : ℚ) ≤ n := by exact_mod_cast Nat.one_le_iff_ne_zero.mpr hne
  have hpow : (10 : ℚ) ≤ 10 ^ e := by
    calc (10 : ℚ) = 10 ^ 1 := by norm_num
      _ ≤ 10 ^ e := pow_le_pow_right₀ (by norm_num) he
  have hdiv : (n : ℚ) / 10 ^ e ≤ n / 10 := by
    apply div_le_div_of_nonneg_left
    · positivity
    · norm_num
    · exact hpow
  unfold roundAway at h
  rw [if_pos (by positivity)] at h
  have hle := (Int.floor_eq_iff.mp h).1
  push_cast at hle
  linarith

end Rounding

end Lib
