import Mathlib.Data.Int.Log
import NagiosPlugins.Libc.Truncate

/-!
# Rounding

A number that a `double` cannot hold is replaced by the nearest one, and of two by the one whose
significand is even. Products of doubles are rounded once.
-/

namespace Libc.Double

/-! ### Integers -/

/-- The nearest integer, and of two the even one. -/
def roundEven (y : ℚ) : ℤ :=
  if y - ⌊y⌋ < 1 / 2 ∨ (y - ⌊y⌋ = 1 / 2 ∧ Even ⌊y⌋) then ⌊y⌋ else ⌊y⌋ + 1

lemma abs_roundEven_sub_le (y : ℚ) : |(roundEven y : ℚ) - y| ≤ 1 / 2 := by
  have hle := Int.floor_le y
  have hlt := Int.lt_floor_add_one y
  rw [roundEven, abs_le]
  split_ifs with hdown
  · have hhalf : y - ⌊y⌋ ≤ 1 / 2 := by
      rcases hdown with hlt | ⟨heq, -⟩
      · exact hlt.le
      · exact heq.le
    constructor <;> linarith
  · have hhalf : 1 / 2 ≤ y - ⌊y⌋ := not_lt.1 (not_or.1 hdown).1
    push_cast
    constructor <;> linarith

/-- From half below an even number on, a number is rounded to it or above. -/
lemma le_roundEven_iff {n : ℤ} (hn : Even n) {y : ℚ} : n ≤ roundEven y ↔ n - 1 / 2 ≤ y := by
  have hle := Int.floor_le y
  have hlt := Int.lt_floor_add_one y
  constructor
  · intro h
    have habs := (abs_le.1 (abs_roundEven_sub_le y)).2
    have hcast : (n : ℚ) ≤ roundEven y := by exact_mod_cast h
    linarith
  · intro h
    have hfloor : n - 1 ≤ ⌊y⌋ := by
      rw [Int.le_floor]
      push_cast
      linarith
    rw [roundEven]
    split_ifs with hdown
    · by_contra hnot
      have heq : ⌊y⌋ = n - 1 := by omega
      have hcast : (⌊y⌋ : ℚ) = n - 1 := by rw [heq]; push_cast; rfl
      rcases hdown with hhalf | ⟨-, heven⟩
      · linarith
      · rw [heq, Int.even_sub] at heven
        exact absurd (heven.1 hn) (by decide)
    · omega

/-! ### The places of a double -/

/-- The exponent of the last place of a `double` of this size. -/
def lastPlace (q : ℚ) : ℤ := max (Int.log 2 |q| - 52) (-1074)

/-- The number rounded to its last place. -/
def toPlace (q : ℚ) : ℚ := roundEven (q / 2 ^ lastPlace q) * 2 ^ lastPlace q

/-- The nearest `double`. -/
def nearest (q : ℚ) : Double := if |toPlace q| < 2 ^ 1024 then .fin (toPlace q) else .inf (q < 0)

section ToPlace

variable {q : ℚ}

lemma two_zpow_pos (k : ℤ) : (0 : ℚ) < 2 ^ k := zpow_pos (by norm_num) k

lemma neg_le_lastPlace (q : ℚ) : -1074 ≤ lastPlace q := le_max_right _ _

@[simp] lemma toPlace_zero : toPlace 0 = 0 := by
  simp [toPlace, roundEven]

@[simp] lemma nearest_zero : nearest 0 = .fin 0 := by
  rw [nearest, toPlace_zero, abs_zero, if_pos (by positivity)]

lemma toPlace_nonneg (hq : 0 ≤ q) : 0 ≤ toPlace q := by
  have hplace := two_zpow_pos (lastPlace q)
  have hround : (0 : ℤ) ≤ roundEven (q / 2 ^ lastPlace q) := by
    rw [le_roundEven_iff (by decide)]
    have hy : 0 ≤ q / 2 ^ lastPlace q := by positivity
    push_cast
    linarith
  rw [toPlace]
  have hcast : (0 : ℚ) ≤ roundEven (q / 2 ^ lastPlace q) := by exact_mod_cast hround
  positivity

lemma toPlace_le (q : ℚ) : toPlace q ≤ q + 2 ^ (lastPlace q - 1) := by
  have hplace := two_zpow_pos (lastPlace q)
  have habs := (abs_le.1 (abs_roundEven_sub_le (q / 2 ^ lastPlace q))).2
  have hhalf : (2 : ℚ) ^ (lastPlace q - 1) = 1 / 2 * 2 ^ lastPlace q := by
    rw [zpow_sub_one₀ (by norm_num), mul_comm]
    norm_num
  rw [toPlace, hhalf]
  calc (roundEven (q / 2 ^ lastPlace q) : ℚ) * 2 ^ lastPlace q
      ≤ (q / 2 ^ lastPlace q + 1 / 2) * 2 ^ lastPlace q := by gcongr; linarith
    _ = q + 1 / 2 * 2 ^ lastPlace q := by field_simp

/-- Where the last place is not that of the subnormal numbers, the significand has 53 digits. -/
lemma two_zpow_le_toPlace {k : ℤ} (hk : -1074 < k) (hq : 2 ^ (k + 52) ≤ q) :
    2 ^ (k + 52) ≤ toPlace q := by
  have hpos : 0 < q := (two_zpow_pos _).trans_le hq
  have hlog : k + 52 ≤ Int.log 2 |q| := by
    rw [abs_of_pos hpos, ← Int.zpow_le_iff_le_log (by norm_num) hpos]
    exact_mod_cast hq
  have hplace : lastPlace q = Int.log 2 |q| - 52 := max_eq_left (by omega)
  have hself : (2 : ℚ) ^ (lastPlace q + 52) ≤ q := by
    have hle := Int.zpow_log_le_self (b := 2) (by norm_num) hpos
    rw [hplace, abs_of_pos hpos, sub_add_cancel]
    exact_mod_cast hle
  have hround : (2 ^ 52 : ℤ) ≤ roundEven (q / 2 ^ lastPlace q) := by
    rw [le_roundEven_iff (by decide)]
    have hy : (2 : ℚ) ^ (52 : ℤ) ≤ q / 2 ^ lastPlace q := by
      rwa [le_div_iff₀ (two_zpow_pos _), ← zpow_add₀ (by norm_num), add_comm]
    push_cast
    norm_num at hy ⊢
    linarith
  have hcast : (2 : ℚ) ^ (52 : ℤ) ≤ roundEven (q / 2 ^ lastPlace q) := by exact_mod_cast hround
  calc (2 : ℚ) ^ (k + 52) ≤ 2 ^ (52 + lastPlace q) := by
        apply zpow_le_zpow_right₀ (by norm_num)
        omega
    _ = 2 ^ (52 : ℤ) * 2 ^ lastPlace q := zpow_add₀ (by norm_num) _ _
    _ ≤ toPlace q := by
        rw [toPlace]
        exact mul_le_mul_of_nonneg_right hcast (two_zpow_pos _).le

/-- With 53 digits before the last place the even rounding decides. -/
lemma toPlace_lt_iff_of_lastPlace {k : ℤ} (hk : lastPlace q = k) :
    toPlace q < 2 ^ (k + 53) ↔ q < 2 ^ (k + 53) - 2 ^ (k - 1) := by
  have hplace := two_zpow_pos k
  have hpow : (2 : ℚ) ^ (k + 53) = 2 ^ 53 * 2 ^ k := by
    rw [zpow_add₀ (by norm_num), mul_comm]
    norm_cast
  have hhalf : (2 : ℚ) ^ (k - 1) = 1 / 2 * 2 ^ k := by
    rw [zpow_sub_one₀ (by norm_num), mul_comm]
    norm_num
  have hround := le_roundEven_iff (n := (2 : ℤ) ^ 53) (by decide) (y := q / 2 ^ k)
  rw [← Int.cast_le (R := ℚ), Int.cast_pow, Int.cast_ofNat] at hround
  rw [toPlace, hk, hpow, mul_lt_mul_iff_left₀ hplace, hhalf, ← sub_mul, ← div_lt_iff₀ hplace]
  exact not_le.symm.trans ((not_congr hround).trans not_le)

/-- A number is rounded below a power of two exactly if it is more than half a place below it. -/
lemma toPlace_lt_iff {k : ℤ} (hk : -1074 ≤ k) (hq : 0 ≤ q) :
    toPlace q < 2 ^ (k + 53) ↔ q < 2 ^ (k + 53) - 2 ^ (k - 1) := by
  have hhalf : (2 : ℚ) ^ (k - 1) ≤ 2 ^ (k + 52) :=
    zpow_le_zpow_right₀ (by norm_num) (by omega)
  have hdouble : (2 : ℚ) ^ (k + 53) = 2 ^ (k + 52) + 2 ^ (k + 52) := by
    rw [show k + 53 = k + 52 + 1 by ring, zpow_add_one₀ (by norm_num)]
    ring
  rcases hq.eq_or_lt with rfl | hpos
  · have hpow := two_zpow_pos (k + 52)
    rw [toPlace_zero]
    constructor
    · intro
      linarith
    · intro
      linarith
  rcases lt_or_ge q (2 ^ (k + 52)) with hsmall | hlarge
  · have hplace : lastPlace q ≤ k := by
      have hlog : Int.log 2 |q| < k + 52 := by
        rw [abs_of_pos hpos, ← Int.lt_zpow_iff_log_lt (by norm_num) hpos]
        exact_mod_cast hsmall
      exact max_le (by omega) hk
    have hle := toPlace_le q
    have hpow : (2 : ℚ) ^ (lastPlace q - 1) ≤ 2 ^ (k - 1) :=
      zpow_le_zpow_right₀ (by norm_num) (by omega)
    constructor
    · intro
      linarith
    · intro
      linarith
  · rcases lt_or_ge q (2 ^ (k + 53)) with hbelow | habove
    · have hlog : Int.log 2 |q| = k + 52 := by
        rw [abs_of_pos hpos]
        apply le_antisymm
        · have hlt := (Int.lt_zpow_iff_log_lt (b := 2) (by norm_num) hpos).1
            (by exact_mod_cast hbelow)
          omega
        · exact (Int.zpow_le_iff_le_log (by norm_num) hpos).1 (by exact_mod_cast hlarge)
      apply toPlace_lt_iff_of_lastPlace
      rw [lastPlace, hlog, add_sub_cancel_right]
      exact max_eq_left hk
    · have hle : (2 : ℚ) ^ (k + 53) ≤ toPlace q := by
        have hnext := two_zpow_le_toPlace (k := k + 1) (q := q) (by omega)
        rw [show k + 1 + 52 = k + 53 by ring] at hnext
        exact hnext habove
      have hhalf := two_zpow_pos (k - 1)
      constructor
      · intro
        linarith
      · intro
        linarith

/-- What is not subnormally small is not rounded to zero. -/
lemma toPlace_neg (hq : q ≤ -2 ^ (-1074 : ℤ)) : toPlace q < 0 := by
  have hneg : q < 0 := hq.trans_lt (neg_lt_zero.2 (two_zpow_pos _))
  have hplace := two_zpow_pos (lastPlace q)
  have hself : 2 ^ lastPlace q ≤ -q := by
    rcases max_cases (Int.log 2 |q| - 52) (-1074) with ⟨hmax, -⟩ | ⟨hmax, -⟩
    · have hle := Int.zpow_log_le_self (b := 2) (by norm_num) (abs_pos.2 hneg.ne)
      rw [abs_of_neg hneg] at hle hmax
      rw [lastPlace, abs_of_neg hneg, hmax]
      refine le_trans ?_ hle
      push_cast
      exact zpow_le_zpow_right₀ (by norm_num) (by omega)
    · rw [lastPlace, hmax]
      linarith
  have hy : q / 2 ^ lastPlace q ≤ -1 := by
    rw [div_le_iff₀ hplace]
    linarith
  have habs := (abs_le.1 (abs_roundEven_sub_le (q / 2 ^ lastPlace q))).2
  have hround : (roundEven (q / 2 ^ lastPlace q) : ℚ) < 0 := by linarith
  rw [toPlace]
  exact mul_neg_of_neg_of_pos hround hplace

end ToPlace

/-! ### Ranges -/

section Range

variable {q : ℚ}

/-- A finite number that is not negative is rounded to one below a power of two exactly if it is
more than half a place below it. -/
lemma nearest_lt_iff {k : ℤ} (hk : -1074 ≤ k) (hk' : k + 53 ≤ 1024) (hq : 0 ≤ q) :
    (∃ x, nearest q = .fin x ∧ 0 ≤ x ∧ x < 2 ^ (k + 53)) ↔
      q < 2 ^ (k + 53) - 2 ^ (k - 1) := by
  have hnonneg := toPlace_nonneg hq
  rw [← toPlace_lt_iff hk hq]
  constructor
  · rintro ⟨x, hx, -, hlt⟩
    rw [nearest] at hx
    split_ifs at hx
    cases hx
    exact hlt
  · intro hlt
    have hpow : (2 : ℚ) ^ (k + 53) ≤ 2 ^ (1024 : ℤ) := zpow_le_zpow_right₀ (by norm_num) hk'
    refine ⟨toPlace q, ?_, hnonneg, hlt⟩
    rw [nearest, abs_of_nonneg hnonneg, if_pos]
    exact_mod_cast hlt.trans_le hpow

/-- What is converted to an unsigned 64 bit number, where the sign is not lost in rounding. -/
lemma nearest_mem_iff (hq : 0 ≤ q ∨ q ≤ -2 ^ (-1074 : ℤ)) :
    (∃ x, nearest q = .fin x ∧ 0 ≤ x ∧ x < 2 ^ 64) ↔ 0 ≤ q ∧ q < 2 ^ 64 - 2 ^ 10 := by
  rcases hq with hq | hq
  · have hiff := nearest_lt_iff (k := 11) (by norm_num) (by norm_num) hq
    norm_num at hiff ⊢
    rw [hiff]
    exact ⟨fun h => ⟨hq, h⟩, And.right⟩
  · have hneg : q < 0 := hq.trans_lt (neg_lt_zero.2 (two_zpow_pos _))
    constructor
    · rintro ⟨x, hx, hnonneg, -⟩
      rw [nearest] at hx
      split_ifs at hx
      cases hx
      exact absurd hnonneg (not_le.2 (toPlace_neg hq))
    · rintro ⟨hnonneg, -⟩
      exact absurd hneg (not_lt.2 hnonneg)

/-- A negative `double` is not smaller than the smallest place. -/
lemma le_neg_of_nearest {x : ℚ} (hx : nearest q = .fin x) (hneg : x < 0) :
    x ≤ -2 ^ (-1074 : ℤ) := by
  rw [nearest] at hx
  split_ifs at hx
  cases hx
  have hplace := two_zpow_pos (lastPlace q)
  have hround : roundEven (q / 2 ^ lastPlace q) ≤ -1 := by
    have hlt : (roundEven (q / 2 ^ lastPlace q) : ℚ) < 0 := by
      rw [toPlace] at hneg
      exact neg_of_mul_neg_left hneg hplace.le
    exact Int.le_sub_one_of_lt (by exact_mod_cast hlt)
  have hcast : (roundEven (q / 2 ^ lastPlace q) : ℚ) ≤ -1 := by exact_mod_cast hround
  have hpow : (2 : ℚ) ^ (-1074 : ℤ) ≤ 2 ^ lastPlace q :=
    zpow_le_zpow_right₀ (by norm_num) (neg_le_lastPlace q)
  calc toPlace q ≤ -1 * 2 ^ lastPlace q := mul_le_mul_of_nonneg_right hcast hplace.le
    _ ≤ -2 ^ (-1074 : ℤ) := by linarith

end Range

/-! ### Operations -/

/-- `(double) n`. -/
def ofUInt64 (n : UInt64) : Double := nearest n.toNat

/-- `x * y`. -/
def mul : Double → Double → Double
  | .nan, _ | _, .nan => .nan
  | .fin a, .fin b => nearest (a * b)
  | .fin a, .inf negative => if a = 0 then .nan else .inf (negative ^^ (a < 0))
  | .inf negative, .fin b => if b = 0 then .nan else .inf (negative ^^ (b < 0))
  | .inf n, .inf m => .inf (n ^^ m)

/-- `x / n` for a positive `n`. -/
def divNat (x : Double) (n : ℕ) : Double :=
  match x with
  | .fin q => nearest (q / n)
  | x => x

/-- The nearest `double` of what is read. -/
def rounded : Double → Double
  | .fin q => nearest q
  | x => x

@[simp] lemma ofUInt64_zero : ofUInt64 0 = .fin 0 := by simp [ofUInt64]

/-- Every other `unsigned long` is at least one, also when it is rounded. -/
lemma exists_ofUInt64 {n : UInt64} (hn : n ≠ 0) : ∃ b, ofUInt64 n = .fin b ∧ 1 ≤ b := by
  have hlt : (n.toNat : ℚ) < 2 ^ 64 := by exact_mod_cast n.toNat_lt
  have hpos : 1 ≤ n.toNat := Nat.one_le_iff_ne_zero.2 fun h => hn (UInt64.toNat_inj.1 h)
  have hone : (1 : ℚ) ≤ n.toNat := by exact_mod_cast hpos
  have hfinite := (nearest_lt_iff (q := n.toNat) (k := 12) (by norm_num) (by norm_num)
    (by positivity)).2
  obtain ⟨b, hb, -, -⟩ := hfinite (by norm_num at hlt ⊢; linarith)
  refine ⟨b, hb, ?_⟩
  rw [nearest] at hb
  split_ifs at hb
  cases hb
  have hle := two_zpow_le_toPlace (k := -52) (q := n.toNat) (by norm_num) (by simpa using hone)
  simpa using hle

end Libc.Double
