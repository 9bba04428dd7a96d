import Mathlib.Tactic.Common
import Mathlib.Algebra.Order.Ring.Int

/-!
# Machine words over `Nat` and `Int`

A `uint64_t` is a natural number below `u64Size`; sums and differences wrap (`u64Add`, `u64Sub`). The lemmas say when
they do not. An `int64_t` is an integer in range (`I64`), with the casts between the two; an `int32_t` likewise (`I32`).
-/

namespace Lib

/-- One past the largest `uint64_t`. -/
def u64Size : Nat := 2 ^ 64

/-- The largest `uint64_t`. -/
def u64Max : Nat := 2 ^ 64 - 1

/-- The largest `int64_t`. -/
def int64Max : Nat := 2 ^ 63 - 1

/-- `a + b` on `uint64_t`. -/
def u64Add (a b : Nat) : Nat := (a + b) % u64Size

/-- `a - b` on `uint64_t`. -/
def u64Sub (a b : Nat) : Nat := (a + u64Size - b) % u64Size

theorem u64Add_of_lt {a b : Nat} (h : a + b < u64Size) : u64Add a b = a + b := Nat.mod_eq_of_lt h

theorem u64Sub_of_le {a b : Nat} (hb : b ≤ a) (ha : a < u64Size) : u64Sub a b = a - b := by
  have h : a + u64Size - b = (a - b) + u64Size := by omega
  rw [u64Sub, h, Nat.add_mod_right, Nat.mod_eq_of_lt (by omega)]

/-! ## Signed words -/

/-- An `int64_t`. -/
structure I64 where
  val : Int
  ge : -2 ^ 63 ≤ val
  lt : val < 2 ^ 63
deriving DecidableEq

namespace I64

/-- An integer, if it is in range. -/
def ofInt? (i : Int) : Option I64 := if h : -2 ^ 63 ≤ i ∧ i < 2 ^ 63 then some ⟨i, h.1, h.2⟩ else none

/-- `static_cast<uint64_t>`. -/
def toU64 (i : I64) : Nat := (i.val % 2 ^ 64).toNat

/-- `static_cast<int64_t>`. -/
def ofU64 (n : Nat) : I64 where
  val := ((n : Int) + 2 ^ 63) % 2 ^ 64 - 2 ^ 63
  ge := by omega
  lt := by omega

/-- A result that wraps. -/
def wrap (i : Int) : I64 where
  val := (i + 2 ^ 63) % 2 ^ 64 - 2 ^ 63
  ge := by omega
  lt := by omega

theorem val_wrap {i : Int} (hge : -2 ^ 63 ≤ i) (hlt : i < 2 ^ 63) : (wrap i).val = i := by
  simp only [wrap]
  omega

theorem ext_val {i j : I64} (h : i.val = j.val) : i = j := by
  cases i
  cases j
  simpa using h

theorem val_ofU64 {n : Nat} (h : n ≤ int64Max) : (ofU64 n).val = n := by
  have hn : n < 2 ^ 63 := by
    unfold int64Max at h
    omega
  simp only [ofU64]
  omega

theorem ofInt?_eq {i : Int} {j : I64} (h : j.val = i) : ofInt? i = some j := by
  subst h
  exact dif_pos ⟨j.ge, j.lt⟩

theorem toU64_eq_iff {i : I64} {n : Nat} (hn : n ≤ int64Max) : i.toU64 = n ↔ i.val = n := by
  have hn' : n < 2 ^ 63 := by
    unfold int64Max at hn
    omega
  have hge := i.ge
  have hlt := i.lt
  simp only [toU64]
  omega

theorem toU64_of_nonneg {i : I64} (h : 0 ≤ i.val) : (i.toU64 : Int) = i.val := by
  have hlt := i.lt
  simp only [toU64]
  omega

end I64

/-- An `int32_t`. -/
structure I32 where
  val : Int
  ge : -2 ^ 31 ≤ val
  lt : val < 2 ^ 31
deriving DecidableEq

namespace I32

/-- A result that wraps. -/
def wrap (i : Int) : I32 where
  val := (i + 2 ^ 31) % 2 ^ 32 - 2 ^ 31
  ge := by omega
  lt := by omega

theorem val_wrap {i : Int} (hge : -2 ^ 31 ≤ i) (hlt : i < 2 ^ 31) : (wrap i).val = i := by
  simp only [wrap]
  omega

theorem ext_val {i j : I32} (h : i.val = j.val) : i = j := by
  cases i
  cases j
  simpa using h

end I32

end Lib
