import Mathlib.Tactic

/-!
# Conversions between integer types

An `int` is an integer; `FitsInt` says that the type holds it.
-/

namespace Libc

/-- The values of the type `int`. -/
def FitsInt (i : ℤ) : Prop := -2 ^ 31 ≤ i ∧ i < 2 ^ 31

instance (i : ℤ) : Decidable (FitsInt i) := inferInstanceAs (Decidable (_ ∧ _))

/-- `(int) x` keeps the lower 32 bits. -/
def toInt (x : UInt64) : ℤ :=
  let low : ℤ := x.toNat % 2 ^ 32
  if low < 2 ^ 31 then low else low - 2 ^ 32

/-- `(unsigned long long) i`. -/
def toUnsigned (i : ℤ) : UInt64 := UInt64.ofInt i

lemma fitsInt_toInt (x : UInt64) : FitsInt (toInt x) := by
  unfold FitsInt toInt
  simp only
  split_ifs <;> omega

lemma toInt_of_lt {x : UInt64} (h : x.toNat < 2 ^ 31) : toInt x = x.toNat := by
  unfold toInt
  simp only
  split_ifs <;> omega

@[simp] lemma toNat_toUnsigned (i : ℤ) : ((toUnsigned i).toNat : ℤ) = i % 2 ^ 64 := by
  rw [toUnsigned, UInt64.ofInt, UInt64.toNat_ofNat']
  omega

lemma toUnsigned_natCast (n : ℕ) : toUnsigned n = UInt64.ofNat n := by
  rw [toUnsigned, UInt64.ofInt, ← UInt64.toNat_inj, UInt64.toNat_ofNat', UInt64.toNat_ofNat']
  omega

lemma ofInt_toNat (x : UInt32) : UInt32.ofInt x.toNat = x := by
  have hx := x.toNat_lt
  rw [UInt32.ofInt, ← UInt32.toNat_inj, UInt32.toNat_ofNat']
  omega

lemma toInt_toUnsigned {i : ℤ} (h : FitsInt i) : toInt (toUnsigned i) = i := by
  unfold FitsInt at h
  unfold toInt
  simp only [toNat_toUnsigned]
  split_ifs <;> omega

/-- An integer comes back from an `int` modulo 2 ^ 32. -/
lemma toInt_toUnsigned_eq_bmod (i : ℤ) : toInt (toUnsigned i) = i.bmod (2 ^ 32) := by
  unfold toInt
  rw [Int.bmod_def]
  simp only [toNat_toUnsigned]
  split_ifs <;> omega

lemma toUnsigned_sub (i j : ℤ) : toUnsigned (i - j) = toUnsigned i - toUnsigned j := by
  have hi := toNat_toUnsigned i
  have hj := toNat_toUnsigned j
  have hij := toNat_toUnsigned (i - j)
  rw [← UInt64.toNat_inj, UInt64.toNat_sub]
  omega

/-- A `long` and an `unsigned long` have the same bits. -/
lemma toUnsigned_toInt64 (x : UInt64) : toUnsigned x.toInt64.toInt = x := by
  have hx := x.toNat_lt
  have hsigned : x.toInt64.toInt = (x.toNat : ℤ).bmod (2 ^ 64) := BitVec.toInt_eq_toNat_bmod _
  have hbits := toNat_toUnsigned ((x.toNat : ℤ).bmod (2 ^ 64))
  rw [show (2 ^ 64 : ℤ) = (2 ^ 64 : ℕ) by norm_num, Int.bmod_emod] at hbits
  rw [hsigned, ← UInt64.toNat_inj]
  omega

/-- A difference that fits is the signed difference. -/
lemma toInt_sub {x y : UInt64} (h : FitsInt ((x.toNat : ℤ) - y.toNat)) :
    toInt (x - y) = (x.toNat : ℤ) - y.toNat := by
  unfold FitsInt at h
  unfold toInt
  simp only [UInt64.toNat_sub]
  have hx := x.toNat_lt
  have hy := y.toNat_lt
  split_ifs <;> omega

/-- A sum that does not wrap around. -/
lemma toNat_add_of_lt {x y : UInt64} (h : x.toNat + y.toNat < 2 ^ 64) :
    (x + y).toNat = x.toNat + y.toNat := by
  rw [UInt64.toNat_add, Nat.mod_eq_of_lt h]

/-- A difference that is added without wrapping around. -/
lemma toNat_add_sub {x y z : UInt64} (hle : z ≤ y)
    (h : x.toNat + (y.toNat - z.toNat) < 2 ^ 64) :
    (x + y - z).toNat = x.toNat + (y.toNat - z.toNat) := by
  have hle := UInt64.le_iff_toNat_le.1 hle
  have hy := y.toNat_lt
  rw [UInt64.toNat_sub, UInt64.toNat_add]
  omega

/-- A difference does not wrap around exactly if it is not greater than what it is taken from. -/
lemma sub_le_iff {x y : UInt64} : x - y ≤ x ↔ y ≤ x := by
  rw [UInt64.le_iff_toNat_le, UInt64.le_iff_toNat_le, UInt64.toNat_sub]
  have hx := x.toNat_lt
  have hy := y.toNat_lt
  omega

lemma sub_three_eq (x a b c : UInt64) : x - a - b - c = x - (a + b + c) := by
  simp only [UInt64.sub_eq_add_neg, UInt64.neg_add]
  ac_rfl

lemma toNat_min (x y : UInt64) : (min x y).toNat = min x.toNat y.toNat := by
  show (if x ≤ y then x else y).toNat = _
  split_ifs with hle
  · exact (min_eq_left (UInt64.le_iff_toNat_le.1 hle)).symm
  · exact (min_eq_right (Nat.le_of_lt (UInt64.not_le.1 hle))).symm

lemma toInt64_eq_ofInt (x : UInt64) : x.toInt64 = Int64.ofInt x.toNat := by
  rw [Int64.ofInt_eq_ofNat, ← UInt64.toInt64_ofNat', UInt64.ofNat_toNat]

/-- A signed number that is not let below zero. -/
lemma toNat_toUInt64_clamp (x : Int64) :
    ((if x < 0 then 0 else x).toUInt64.toNat : ℤ) = max 0 x.toInt := by
  split_ifs with hneg
  · have hlt : x.toInt < 0 := Int64.lt_iff_toInt_lt.1 hneg
    exact (max_eq_left (Int.le_of_lt hlt)).symm
  · have hle : 0 ≤ x.toInt := Int64.le_iff_toInt_le.1 (Int64.not_lt.1 hneg)
    rw [Int64.toNat_toUInt64_of_le (Int64.not_lt.1 hneg), max_eq_right hle]
    exact Int.toNat_of_nonneg hle

end Libc
