import NagiosPlugins.Libc.Rounding

/-!
# Single precision

The rounding of a `float`, for numbers that are not too large for one.
-/

namespace Libc.Single

open Libc.Double (roundEven abs_roundEven_sub_le le_roundEven_iff roundEven_intCast two_zpow_pos)

/-- The exponent of the last place of a `float` of this size. -/
def lastPlace (q : ℚ) : ℤ := max (Int.log 2 |q| - 23) (-149)

/-- The number rounded to its last place. -/
def toPlace (q : ℚ) : ℚ := roundEven (q / 2 ^ lastPlace q) * 2 ^ lastPlace q

@[simp] lemma toPlace_zero : toPlace 0 = 0 := by
  simp [toPlace, roundEven]

section Normal

variable {q : ℚ}

/-- The place of a number that is not subnormally small. -/
lemma lastPlace_eq (hq : 2 ^ (-126 : ℤ) ≤ q) : lastPlace q = Int.log 2 q - 23 := by
  have hpos : 0 < q := (two_zpow_pos _).trans_le hq
  have hlog : -126 ≤ Int.log 2 q :=
    (Int.zpow_le_iff_le_log (by norm_num) hpos).1 (by exact_mod_cast hq)
  rw [lastPlace, abs_of_pos hpos]
  exact max_eq_left (by omega)

lemma two_zpow_lastPlace_le (hq : 2 ^ (-126 : ℤ) ≤ q) : 2 ^ lastPlace q ≤ q / 2 ^ 23 := by
  have hpos : 0 < q := (two_zpow_pos _).trans_le hq
  have hle := Int.zpow_log_le_self (b := 2) (by norm_num) hpos
  rw [lastPlace_eq hq, zpow_sub₀ (by norm_num)]
  norm_num at hle ⊢
  linarith

lemma lt_two_zpow_lastPlace (hq : 2 ^ (-126 : ℤ) ≤ q) : q / 2 ^ 24 < 2 ^ lastPlace q := by
  have hpos : 0 < q := (two_zpow_pos _).trans_le hq
  have hlt := Int.lt_zpow_succ_log_self (b := 2) (by norm_num) q
  rw [lastPlace_eq hq, zpow_sub₀ (by norm_num)]
  rw [zpow_add_one₀ (by norm_num)] at hlt
  norm_num at hlt ⊢
  linarith

lemma abs_toPlace_sub_le_half (q : ℚ) : |toPlace q - q| ≤ 2 ^ lastPlace q / 2 := by
  have hplace := two_zpow_pos (lastPlace q)
  have habs := abs_roundEven_sub_le (q / 2 ^ lastPlace q)
  have hsub : toPlace q - q = (roundEven (q / 2 ^ lastPlace q) - q / 2 ^ lastPlace q)
      * 2 ^ lastPlace q := by
    rw [toPlace, sub_mul, div_mul_cancel₀ _ hplace.ne']
  rw [hsub, abs_mul, abs_of_pos hplace]
  calc |(roundEven (q / 2 ^ lastPlace q) : ℚ) - q / 2 ^ lastPlace q| * 2 ^ lastPlace q
      ≤ 1 / 2 * 2 ^ lastPlace q := mul_le_mul_of_nonneg_right habs hplace.le
    _ = 2 ^ lastPlace q / 2 := by ring

/-- Rounding changes a number by at most half a unit of its 24th digit. -/
lemma abs_toPlace_sub_le (hq : 2 ^ (-126 : ℤ) ≤ q) : |toPlace q - q| ≤ q / 2 ^ 24 := by
  have hhalf := abs_toPlace_sub_le_half q
  have hplace := two_zpow_lastPlace_le hq
  linarith

/-- The places of small numbers divide the integers. -/
lemma natCast_div_two_zpow (n m : ℕ) : (n : ℚ) / 2 ^ (-m : ℤ) = ((n * 2 ^ m : ℕ) : ℤ) := by
  rw [zpow_neg, zpow_natCast, div_inv_eq_mul]
  push_cast
  rfl

/-- An integer of 24 digits is a `float`. -/
lemma toPlace_natCast {n : ℕ} (hn : n < 2 ^ 24) : toPlace n = n := by
  rcases Nat.eq_zero_or_pos n with rfl | hpos
  · exact_mod_cast toPlace_zero
  · have hone : (1 : ℚ) ≤ n := by exact_mod_cast hpos
    have hnormal : (2 : ℚ) ^ (-126 : ℤ) ≤ n := le_trans (by norm_num) hone
    have hlog : Int.log 2 (n : ℚ) < 24 := by
      rw [← Int.lt_zpow_iff_log_lt (by norm_num) (by linarith)]
      exact_mod_cast hn
    obtain ⟨m, hm⟩ : ∃ m : ℕ, lastPlace (n : ℚ) = -m := by
      rw [lastPlace_eq hnormal]
      exact ⟨(Int.log 2 (n : ℚ) - 23).natAbs, by omega⟩
    have hplace := two_zpow_pos (-m : ℤ)
    rw [toPlace, hm, natCast_div_two_zpow, roundEven_intCast, ← natCast_div_two_zpow,
      div_mul_cancel₀ _ hplace.ne']

/-- A number is not rounded below an integer from which it differs little. -/
lemma natCast_le_toPlace {k : ℕ} (hk : (k : ℚ) * (1 - 1 / 2 ^ 26) ≤ q) (hq : 2 ^ (-126 : ℤ) ≤ q)
    (hlt : q < 2 ^ 23) : k ≤ toPlace q := by
  have hpos : 0 < q := (two_zpow_pos _).trans_le hq
  have hlog : Int.log 2 q < 23 := by
    rw [← Int.lt_zpow_iff_log_lt (by norm_num) hpos]
    exact_mod_cast hlt
  obtain ⟨m, hm⟩ : ∃ m : ℕ, lastPlace q = -(m + 1 : ℕ) := by
    rw [lastPlace_eq hq]
    exact ⟨(Int.log 2 q - 22).natAbs, by omega⟩
  have hplace := two_zpow_pos (-(m + 1 : ℕ) : ℤ)
  have hlarge := lt_two_zpow_lastPlace hq
  have heven : Even ((k * 2 ^ (m + 1) : ℕ) : ℤ) := by
    rw [pow_succ]
    push_cast
    exact (even_two.mul_left _).mul_left _
  have hround : (k : ℚ) / 2 ^ (-(m + 1 : ℕ) : ℤ) ≤ roundEven (q / 2 ^ lastPlace q) := by
    rw [natCast_div_two_zpow, Int.cast_le, le_roundEven_iff heven, hm, ← natCast_div_two_zpow,
      le_div_iff₀ hplace, sub_mul, div_mul_cancel₀ _ hplace.ne', ← hm]
    norm_num at hk hlarge ⊢
    linarith
  rw [div_le_iff₀ hplace] at hround
  rw [toPlace]
  rwa [hm] at hround ⊢

/-- An integer is rounded to an integer. -/
lemma exists_toPlace_natCast (n : ℕ) : ∃ m : ℕ, toPlace n = m := by
  rcases lt_or_ge n (2 ^ 24) with hlt | hge
  · exact ⟨n, toPlace_natCast hlt⟩
  · have hlarge : (2 : ℚ) ^ (24 : ℤ) ≤ n := by exact_mod_cast hge
    have hnormal : (2 : ℚ) ^ (-126 : ℤ) ≤ n := le_trans (by norm_num) hlarge
    have hlog : 24 ≤ Int.log 2 (n : ℚ) := by
      rw [← Int.zpow_le_iff_le_log (by norm_num) (lt_of_lt_of_le (by norm_num) hlarge)]
      exact_mod_cast hlarge
    obtain ⟨p, hp⟩ : ∃ p : ℕ, lastPlace (n : ℚ) = p := by
      rw [lastPlace_eq hnormal]
      exact ⟨(Int.log 2 (n : ℚ) - 23).natAbs, by omega⟩
    have hnonneg : (0 : ℤ) ≤ roundEven ((n : ℚ) / 2 ^ lastPlace (n : ℚ)) := by
      rw [le_roundEven_iff (by decide)]
      have hy : (0 : ℚ) ≤ n / 2 ^ lastPlace (n : ℚ) := by positivity
      push_cast
      linarith
    obtain ⟨k, hk⟩ := Int.eq_ofNat_of_zero_le hnonneg
    refine ⟨k * 2 ^ p, ?_⟩
    rw [toPlace, hk, hp]
    push_cast
    rfl

end Normal

end Libc.Single
