import NagiosPlugins.Libc.Binary64

/-!
# The order of rounded numbers

Rounding to a `double` keeps the order and the sign, and powers of two are doubles. So it is known
for every number on which side of a power of two it is rounded to.
-/

namespace Libc.Double

/-! ### Integers -/

lemma roundEven_mono {x y : ℚ} (h : x ≤ y) : roundEven x ≤ roundEven y := by
  have hfloor := Int.floor_le_floor h
  have hx : roundEven x ≤ ⌊x⌋ + 1 := by
    rw [roundEven]
    split_ifs <;> omega
  have hy : ⌊y⌋ ≤ roundEven y := by
    rw [roundEven]
    split_ifs <;> omega
  rcases hfloor.lt_or_eq with hlt | heq
  · omega
  · -- over one floor the larger fraction is rounded up if the smaller one is
    rw [roundEven, roundEven, heq]
    by_cases hdown : y - ⌊y⌋ < 1 / 2 ∨ (y - ⌊y⌋ = 1 / 2 ∧ Even ⌊y⌋)
    · have hdown' : x - ⌊y⌋ < 1 / 2 ∨ (x - ⌊y⌋ = 1 / 2 ∧ Even ⌊y⌋) := by
        rcases hdown with hlt | ⟨hhalf, heven⟩
        · left
          linarith
        · rcases (show x - ⌊y⌋ ≤ 1 / 2 by linarith).lt_or_eq with hlt | hxhalf
          · exact .inl hlt
          · exact .inr ⟨hxhalf, heven⟩
      rw [if_pos hdown, if_pos hdown']
    · rw [if_neg hdown]
      split_ifs <;> omega

@[simp] lemma roundEven_intCast (n : ℤ) : roundEven n = n := by
  simp [roundEven]

lemma roundEven_neg (y : ℚ) : roundEven (-y) = -roundEven y := by
  by_cases hint : (⌊y⌋ : ℚ) = y
  · rw [← hint, ← Int.cast_neg, roundEven_intCast, roundEven_intCast]
  · have hle := Int.floor_le y
    have hlt := Int.lt_floor_add_one y
    have hne : (⌊y⌋ : ℚ) < y := lt_of_le_of_ne hle hint
    have hneg : ⌊-y⌋ = -⌊y⌋ - 1 := by
      rw [Int.floor_eq_iff]
      push_cast
      constructor <;> linarith
    have heven : Even (-⌊y⌋ - 1) ↔ ¬ Even ⌊y⌋ := by
      rw [Int.even_sub, even_neg]
      simp
    have hfrac : -y - ((-⌊y⌋ - 1 : ℤ) : ℚ) = 1 - (y - ⌊y⌋) := by
      push_cast
      ring
    simp only [roundEven, hneg, hfrac, heven]
    rcases lt_trichotomy (y - ⌊y⌋) (1 / 2) with hlow | hhalf | hhigh
    · have hup : ¬ (1 - (y - ⌊y⌋) < 1 / 2 ∨ 1 - (y - ⌊y⌋) = 1 / 2 ∧ ¬ Even ⌊y⌋) := by
        rintro (hlt | ⟨heq, -⟩) <;> linarith
      rw [if_neg hup, if_pos (.inl hlow)]
      ring
    · -- the even one of the two neighbours keeps its parity
      have hhalf' : (1 : ℚ) - 1 / 2 = 1 / 2 := by norm_num
      simp only [hhalf, hhalf', lt_self_iff_false, true_and, false_or]
      by_cases heven : Even ⌊y⌋
      · rw [if_neg (not_not.2 heven), if_pos heven]
        ring
      · rw [if_pos heven, if_neg heven]
        ring
    · rw [if_pos (.inl (by linarith))]
      have hup : ¬ (y - ⌊y⌋ < 1 / 2 ∨ y - ⌊y⌋ = 1 / 2 ∧ Even ⌊y⌋) := by
        rintro (hlt | ⟨heq, -⟩) <;> linarith
      rw [if_neg hup]
      ring

/-- Up to half above an even number, a number is rounded to it or below. -/
lemma roundEven_le_iff {n : ℤ} (hn : Even n) {y : ℚ} : roundEven y ≤ n ↔ y ≤ n + 1 / 2 := by
  have hiff := le_roundEven_iff hn.neg (y := -y)
  rw [roundEven_neg, neg_le_neg_iff] at hiff
  rw [hiff]
  push_cast
  constructor <;> intro h <;> linarith

/-! ### Places -/

lemma lastPlace_neg (q : ℚ) : lastPlace (-q) = lastPlace q := by
  rw [lastPlace, lastPlace, abs_neg]

lemma toPlace_neg_eq (q : ℚ) : toPlace (-q) = -toPlace q := by
  rw [toPlace, toPlace, lastPlace_neg, neg_div, roundEven_neg]
  push_cast
  ring

section Order

variable {x y q : ℚ} {k : ℤ}

/-- A number below a power of two is not rounded to one above it. -/
lemma toPlace_le_two_zpow (hq : q < 2 ^ (lastPlace q + 53)) :
    toPlace q ≤ 2 ^ (lastPlace q + 53) := by
  have hplace := two_zpow_pos (lastPlace q)
  have hpow : (2 : ℚ) ^ (lastPlace q + 53) = ((2 ^ 53 : ℤ) : ℚ) * 2 ^ lastPlace q := by
    rw [zpow_add₀ (by norm_num), mul_comm]
    norm_cast
  have hround : roundEven (q / 2 ^ lastPlace q) ≤ 2 ^ 53 := by
    rw [← roundEven_intCast (2 ^ 53)]
    apply roundEven_mono
    rw [div_le_iff₀ hplace, ← hpow]
    exact hq.le
  rw [toPlace, hpow]
  exact mul_le_mul_of_nonneg_right (by exact_mod_cast hround) hplace.le

lemma lt_two_zpow_lastPlace (hq : 0 < q) : q < 2 ^ (lastPlace q + 53) := by
  have hlt := Int.lt_zpow_succ_log_self (b := 2) (by norm_num) q
  have hplace : Int.log 2 q - 52 ≤ lastPlace q := by
    rw [lastPlace, abs_of_pos hq]
    exact le_max_left _ _
  calc q < 2 ^ (Int.log 2 q + 1) := by exact_mod_cast hlt
    _ ≤ 2 ^ (lastPlace q + 53) := zpow_le_zpow_right₀ (by norm_num) (by omega)

/-- Rounding keeps the order. -/
lemma toPlace_mono (hx : 0 ≤ x) (h : x ≤ y) : toPlace x ≤ toPlace y := by
  rcases hx.eq_or_lt with rfl | hxpos
  · rw [toPlace_zero]
    exact toPlace_nonneg h
  have hypos := hxpos.trans_le h
  have hplaces : lastPlace x ≤ lastPlace y := by
    rw [lastPlace, lastPlace, abs_of_pos hxpos, abs_of_pos hypos]
    exact max_le_max_right _ (Int.sub_le_sub_right (Int.log_mono_right hxpos h) _)
  rcases hplaces.lt_or_eq with hlt | heq
  · -- a power of two lies between the two results
    have hlog : lastPlace y = Int.log 2 y - 52 := by
      have hnot : lastPlace y ≠ -1074 := ((neg_le_lastPlace x).trans_lt hlt).ne'
      rw [lastPlace, abs_of_pos hypos] at hnot ⊢
      rw [max_def] at hnot ⊢
      split_ifs at hnot ⊢
      · exact absurd rfl hnot
      · rfl
    have hself : (2 : ℚ) ^ (lastPlace y + 52) ≤ y := by
      have hle := Int.zpow_log_le_self (b := 2) (by norm_num) hypos
      rw [hlog, sub_add_cancel]
      exact_mod_cast hle
    calc toPlace x ≤ 2 ^ (lastPlace x + 53) := toPlace_le_two_zpow (lt_two_zpow_lastPlace hxpos)
      _ ≤ 2 ^ (lastPlace y + 52) := zpow_le_zpow_right₀ (by norm_num) (by omega)
      _ ≤ toPlace y := two_zpow_le_toPlace ((neg_le_lastPlace x).trans_lt hlt) hself
  · have hplace := two_zpow_pos (lastPlace y)
    rw [toPlace, toPlace, heq]
    apply mul_le_mul_of_nonneg_right _ hplace.le
    exact_mod_cast roundEven_mono (div_le_div_of_nonneg_right h hplace.le)

/-- A number whose last place is not behind that of its size is a `double`. -/
lemma toPlace_intCast_mul {n p : ℤ} (h : lastPlace (n * 2 ^ p) ≤ p) :
    toPlace (n * 2 ^ p) = n * 2 ^ p := by
  obtain ⟨k, hk⟩ : ∃ k : ℕ, p = lastPlace (n * 2 ^ p) + k := 
    ⟨(p - lastPlace (n * 2 ^ p)).toNat, by omega⟩
  have hplace := two_zpow_pos (lastPlace (n * 2 ^ p))
  have hquotient : (n * 2 ^ p : ℚ) / 2 ^ lastPlace (n * 2 ^ p) = ((n * 2 ^ k : ℤ) : ℚ) := by
    rw [div_eq_iff hplace.ne']
    nth_rewrite 1 [hk]
    rw [zpow_add₀ (by norm_num), zpow_natCast]
    push_cast
    ring
  rw [toPlace, hquotient, roundEven_intCast, ← hquotient, div_mul_cancel₀ _ hplace.ne']

/-- A power of two is a `double`. -/
lemma toPlace_two_zpow (hk : -1074 ≤ k) : toPlace (2 ^ k) = 2 ^ k := by
  have hlog : Int.log 2 ((2 : ℚ) ^ k) = k := by
    have h := Int.log_zpow (R := ℚ) (b := 2) (by norm_num) k
    exact_mod_cast h
  have hplace : lastPlace (2 ^ k) ≤ k := by
    rw [lastPlace, abs_of_pos (two_zpow_pos k), hlog]
    omega
  have hself := toPlace_intCast_mul (n := 1) (p := k) (by rwa [Int.cast_one, one_mul])
  rwa [Int.cast_one, one_mul] at hself

lemma toPlace_toPlace_of_nonneg (hq : 0 ≤ q) : toPlace (toPlace q) = toPlace q := by
  rcases hq.eq_or_lt with rfl | hpos
  · rw [toPlace_zero, toPlace_zero]
  rcases (toPlace_nonneg hq).eq_or_lt with hzero | hresult
  · rw [← hzero, toPlace_zero]
  rcases (toPlace_le_two_zpow (lt_two_zpow_lastPlace hpos)).eq_or_lt with htop | hbelow
  · rw [htop]
    have hplace := neg_le_lastPlace q
    exact toPlace_two_zpow (by omega)
  · apply toPlace_intCast_mul
    rw [← toPlace, lastPlace, abs_of_pos hresult]
    have hlog := (Int.lt_zpow_iff_log_lt (b := 2) (by norm_num) hresult).1
      (by exact_mod_cast hbelow)
    exact max_le (by omega) (neg_le_lastPlace q)

/-- Rounding a second time changes nothing. -/
lemma toPlace_toPlace (q : ℚ) : toPlace (toPlace q) = toPlace q := by
  rcases le_total 0 q with hq | hq
  · exact toPlace_toPlace_of_nonneg hq
  · have hneg := toPlace_toPlace_of_nonneg (neg_nonneg.2 hq)
    rwa [toPlace_neg_eq, toPlace_neg_eq, neg_inj] at hneg

lemma nearest_of_nearest {x : ℚ} (h : nearest q = .fin x) : nearest x = .fin x := by
  rw [nearest] at h
  split_ifs at h with hlt
  cases h
  rw [nearest, toPlace_toPlace, if_pos hlt]

/-- A product with one is not rounded again. -/
lemma rounded_mul_one (x : Double) : x.rounded.mul (.fin 1) = x.rounded := by
  have hsign : ¬ (1 : ℚ) < 0 := by norm_num
  cases x with
  | fin q =>
    cases h : (Double.fin q).rounded with
    | fin y =>
      rw [mul, mul_one]
      exact nearest_of_nearest h
    | inf negative => simp [mul, hsign]
    | nan => rfl
  | inf negative => simp [rounded, mul, hsign]
  | nan => rfl

/-- A number is not rounded above a power of two exactly if it is at most half a place above it. -/
lemma toPlace_le_iff (hk : -1074 ≤ k) (hq : 0 ≤ q) :
    toPlace q ≤ 2 ^ (k + 52) ↔ q ≤ 2 ^ (k + 52) + 2 ^ (k - 1) := by
  have hhalf := two_zpow_pos (k - 1)
  have hplace := two_zpow_pos k
  have hdouble : (2 : ℚ) ^ (k + 53) = 2 ^ (k + 52) + 2 ^ (k + 52) := by
    rw [show k + 53 = k + 52 + 1 by ring, zpow_add_one₀ (by norm_num)]
    ring
  have hpow : (2 : ℚ) ^ (k - 1) < 2 ^ (k + 52) := zpow_lt_zpow_right₀ (by norm_num) (by omega)
  rcases le_or_gt q (2 ^ (k + 52)) with hsmall | hlarge
  · have hle := toPlace_mono hq hsmall
    rw [toPlace_two_zpow (by omega)] at hle
    exact iff_of_true hle (by linarith)
  · rcases lt_or_ge q (2 ^ (k + 53)) with hbelow | habove
    · have hlast : lastPlace q = k := by
        have hpos := (two_zpow_pos _).trans hlarge
        have hlog : Int.log 2 q = k + 52 := by
          apply le_antisymm
          · have hlt := (Int.lt_zpow_iff_log_lt (b := 2) (by norm_num) hpos).1
              (by exact_mod_cast hbelow)
            omega
          · exact (Int.zpow_le_iff_le_log (by norm_num) hpos).1 (by exact_mod_cast hlarge.le)
        rw [lastPlace, abs_of_pos hpos, hlog, add_sub_cancel_right]
        exact max_eq_left hk
      have hpow' : (2 : ℚ) ^ (k + 52) = ((2 ^ 52 : ℤ) : ℚ) * 2 ^ k := by
        rw [zpow_add₀ (by norm_num), mul_comm]
        norm_cast
      have hhalf' : (2 : ℚ) ^ (k - 1) = 1 / 2 * 2 ^ k := by
        rw [zpow_sub_one₀ (by norm_num), mul_comm]
        norm_num
      rw [toPlace, hlast, hpow', hhalf', mul_le_mul_iff_left₀ hplace, Int.cast_le,
        roundEven_le_iff (by decide), div_le_iff₀ hplace, add_mul]
    · have hle := toPlace_mono (two_zpow_pos _).le habove
      rw [toPlace_two_zpow (by omega)] at hle
      have hpos := two_zpow_pos (k + 52)
      exact iff_of_false (by linarith) (by linarith)

end Order

/-! ### The range of a signed conversion -/

/-- A number whose last place is a whole one is rounded to an integer. -/
lemma exists_toPlace_eq_intCast {q : ℚ} (h : 0 ≤ lastPlace q) : ∃ n : ℤ, toPlace q = n := by
  obtain ⟨k, hk⟩ := Int.eq_ofNat_of_zero_le h
  refine ⟨roundEven (q / 2 ^ lastPlace q) * 2 ^ k, ?_⟩
  rw [toPlace, hk]
  push_cast
  rfl

lemma toPlace_lt_two_pow_63_add_one_iff {q : ℚ} (hq : 0 ≤ q) :
    toPlace q < 2 ^ 63 + 1 ↔ q ≤ 2 ^ 63 + 2 ^ 10 := by
  have hiff := toPlace_le_iff (k := 11) (by norm_num) hq
  norm_num at hiff
  norm_num
  rw [← hiff]
  constructor
  · intro hlt
    rcases le_or_gt q (2 ^ 63) with hsmall | hlarge
    · have hle := toPlace_mono hq hsmall
      have hpow := toPlace_two_zpow (k := 63) (by norm_num)
      norm_num at hle hpow
      rwa [hpow] at hle
    · have hplace : 0 ≤ lastPlace q := by
        have hpos : 0 < q := lt_trans (by norm_num) hlarge
        have hlog : 63 ≤ Int.log 2 q :=
          (Int.zpow_le_iff_le_log (by norm_num) hpos).1 (by exact_mod_cast hlarge.le)
        rw [lastPlace, abs_of_pos hpos]
        exact le_max_of_le_left (by omega)
      obtain ⟨n, hn⟩ := exists_toPlace_eq_intCast hplace
      rw [hn] at hlt ⊢
      have hint : n < 9223372036854775809 := by exact_mod_cast hlt
      exact_mod_cast Int.lt_add_one_iff.1 hint
  · intro hle
    linarith

/-- What is converted to a signed 64 bit number after it is rounded. -/
lemma nearest_mem_int64_iff {q : ℚ} :
    (∃ x, nearest q = .fin x ∧ -2 ^ 63 - 1 < x ∧ x < 2 ^ 63) ↔
      -2 ^ 63 - 2 ^ 10 ≤ q ∧ q < 2 ^ 63 - 2 ^ 9 := by
  rcases le_or_gt 0 q with hq | hq
  · have hiff := nearest_lt_iff (k := 10) (by norm_num) (by norm_num) hq
    norm_num at hiff
    norm_num
    constructor
    · rintro ⟨x, hx, -, hlt⟩
      have hnonneg : 0 ≤ x := by
        have hplace := toPlace_nonneg hq
        rw [nearest] at hx
        split_ifs at hx
        cases hx
        exact hplace
      exact ⟨by linarith, hiff.1 ⟨x, hx, hnonneg, hlt⟩⟩
    · rintro ⟨-, hlt⟩
      obtain ⟨x, hx, hnonneg, hlt⟩ := hiff.2 hlt
      exact ⟨x, hx, by linarith, hlt⟩
  · have hneg : toPlace q = -toPlace (-q) := by rw [toPlace_neg_eq, neg_neg]
    have hnonneg := toPlace_nonneg (neg_nonneg.2 hq.le)
    have hiff := toPlace_lt_two_pow_63_add_one_iff (neg_nonneg.2 hq.le)
    constructor
    · rintro ⟨x, hx, hlow, -⟩
      rw [nearest] at hx
      split_ifs at hx
      cases hx
      have hle := hiff.1 (by linarith)
      constructor <;> linarith
    · rintro ⟨hlow, -⟩
      have hlt := hiff.2 (by linarith)
      refine ⟨toPlace q, ?_, by linarith, by linarith⟩
      rw [nearest, if_pos]
      rw [hneg, abs_neg, abs_of_nonneg hnonneg]
      exact hlt.trans (lt_of_lt_of_le (b := (2 : ℚ) ^ 64) (by norm_num)
        (pow_le_pow_right₀ (by norm_num) (by norm_num)))

end Libc.Double
