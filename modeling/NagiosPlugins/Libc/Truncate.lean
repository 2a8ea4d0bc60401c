import Mathlib.Algebra.Order.Floor.Semifield
import Mathlib.Data.Rat.Floor
import NagiosPlugins.Libc.Strtod

/-!
# From floating point numbers to integers

The conversion of a `double` cuts off its fraction, and has a result only if the type holds it.
-/

namespace Libc.Double

/-- `n * x` for an unsigned `n`. -/
def natMul (n : ℕ) : Double → Double
  | .fin q => .fin (n * q)
  | .inf negative => if n = 0 then .nan else .inf negative
  | .nan => .nan

/-- `(unsigned long long) x`. -/
def toUInt64? : Double → Option UInt64
  | .fin q => if -1 < q ∧ q < 2 ^ 64 then some (UInt64.ofNat ⌊q⌋₊) else none
  | _ => none

lemma toUInt64?_fin {q : ℚ} (h0 : 0 ≤ q) (h : q < 2 ^ 64) :
    (Double.fin q).toUInt64? = some (UInt64.ofNat ⌊q⌋₊) := by
  have hneg : -1 < q := lt_of_lt_of_le (by norm_num) h0
  rw [toUInt64?, if_pos ⟨hneg, h⟩]

lemma toNat_ofNat_floor {q : ℚ} (h0 : 0 ≤ q) (h : q < 2 ^ 64) :
    (UInt64.ofNat ⌊q⌋₊).toNat = ⌊q⌋₊ := by
  refine UInt64.toNat_ofNat_of_lt' ?_
  rw [UInt64.size, Nat.floor_lt h0]
  exact_mod_cast h

/-! ### Signed conversions -/

/-- The integral part, as the conversion to an integer type finds it. -/
def truncate (q : ℚ) : ℤ := if q < 0 then ⌈q⌉ else ⌊q⌋

/-- `(long long int) x`; there is no value for a number that the type cannot hold. -/
def toInt64? : Double → Option Int64
  | .fin q => if -2 ^ 63 - 1 < q ∧ q < 2 ^ 63 then some (Int64.ofInt (truncate q)) else none
  | _ => none

lemma truncate_mem_range {q : ℚ} (hlo : -2 ^ 63 - 1 < q) (hhi : q < 2 ^ 63) :
    -2 ^ 63 ≤ truncate q ∧ truncate q < 2 ^ 63 := by
  rw [truncate]
  split_ifs with hneg
  · have hceil : ⌈q⌉ ≤ 0 := Int.ceil_le.2 (by exact_mod_cast hneg.le)
    have hlt : (-2 ^ 63 - 1 : ℤ) < ⌈q⌉ := Int.lt_ceil.2 (by exact_mod_cast hlo)
    exact ⟨by omega, by omega⟩
  · have hfloor : 0 ≤ ⌊q⌋ := Int.floor_nonneg.2 (not_lt.1 hneg)
    have hlt : ⌊q⌋ < (2 ^ 63 : ℤ) := Int.floor_lt.2 (by exact_mod_cast hhi)
    exact ⟨by omega, hlt⟩

/-- A conversion with a value cuts off the fraction. -/
lemma toInt_toInt64? {q : ℚ} (hlo : -2 ^ 63 - 1 < q) (hhi : q < 2 ^ 63) :
    (Double.fin q).toInt64?.map Int64.toInt = some (truncate q) := by
  have hrange := truncate_mem_range hlo hhi
  rw [toInt64?, if_pos ⟨hlo, hhi⟩, Option.map_some, Int64.toInt_ofInt_of_le]
  · exact hrange.1
  · exact hrange.2

/-- `(int) x`; there is no value for a number that the type cannot hold. -/
def toInt32? : Double → Option ℤ
  | .fin q => if -2 ^ 31 - 1 < q ∧ q < 2 ^ 31 then some (truncate q) else none
  | _ => none

lemma toInt32?_natCast {n : ℕ} (h : n < 2 ^ 31) : (Double.fin n).toInt32? = some (n : ℤ) := by
  have hn : (0 : ℚ) ≤ n := Nat.cast_nonneg n
  have hlo : (-2 ^ 31 - 1 : ℚ) < n := by linarith
  have hhi : (n : ℚ) < 2 ^ 31 := by exact_mod_cast h
  rw [toInt32?, if_pos ⟨hlo, hhi⟩, truncate, if_neg (not_lt.2 hn), Int.floor_natCast]

/-! ### Range errors -/

/-- Does `strtod` report `ERANGE` for this exact value? It does if the nearest `double` is infinite,
or if the value is subnormal and no `double` equals it. -/
def rangeError : Double → Bool
  | .fin q =>
    2 ^ 1024 - 2 ^ 970 ≤ |q| ∨ (|q| < 2 ^ (-1022 : ℤ) ∧ (q * 2 ^ 1074).den ≠ 1)
  | _ => false

end Libc.Double
