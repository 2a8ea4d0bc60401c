import Mathlib.Data.List.Range
import Mathlib.Data.Nat.Bitwise
import Mathlib.Tactic.Ring

/-!
# Fields of bits

A number as a row of fields of equal width. All pairs of neighbouring fields are added at once
under a mask, which doubles the width and keeps the sum of the fields; from single bits on this
counts the bits that are set.
-/

namespace BitFields

/-- The sum of the lowest `n` fields of `w` bits. -/
def fieldSum (w : ℕ) : ℕ → ℕ → ℕ
  | 0, _ => 0
  | n + 1, x => x % 2 ^ w + fieldSum w n (x / 2 ^ w)

/-- Every other field of `w` bits, `n` times. -/
def mask (w : ℕ) : ℕ → ℕ
  | 0 => 0
  | n + 1 => (2 ^ w - 1) + 2 ^ (2 * w) * mask w n

/-- Adds `n` pairs of neighbouring fields. -/
def addPairs (w n x : ℕ) : ℕ := (x &&& mask w n) + ((x >>> w) &&& mask w n)

/-! ### Adding pairs -/

/-- A bitwise conjunction, cut in two. -/
lemma and_add_mul (m : ℕ) {c : ℕ} (hc : c < 2 ^ m) (x d : ℕ) :
    x &&& (c + 2 ^ m * d) = (x % 2 ^ m &&& c) + 2 ^ m * (x / 2 ^ m &&& d) := by
  have hlow : x % 2 ^ m < 2 ^ m := Nat.mod_lt x (Nat.two_pow_pos m)
  have hand : x % 2 ^ m &&& c < 2 ^ m := Nat.and_lt_two_pow _ hc
  apply Nat.eq_of_testBit_eq
  intro i
  conv_lhs => rw [← Nat.div_add_mod x (2 ^ m)]
  rw [Nat.add_comm c, Nat.add_comm (x % 2 ^ m &&& c), Nat.testBit_and,
    Nat.testBit_two_pow_mul_add _ hlow, Nat.testBit_two_pow_mul_add _ hc,
    Nat.testBit_two_pow_mul_add _ hand]
  split_ifs <;> rw [Nat.testBit_and]

lemma and_mask_succ (w n x : ℕ) :
    x &&& mask w (n + 1) = x % 2 ^ w + 2 ^ (2 * w) * (x / 2 ^ (2 * w) &&& mask w n) := by
  have hle : 2 ^ w ≤ 2 ^ (2 * w) := Nat.pow_le_pow_right (by norm_num) (by omega)
  have hlt : 2 ^ w - 1 < 2 ^ (2 * w) := by
    have hpos := Nat.two_pow_pos w
    omega
  have hdvd : 2 ^ w ∣ 2 ^ (2 * w) := Nat.pow_dvd_pow 2 (by omega)
  rw [mask, and_add_mul _ hlt, Nat.and_two_pow_sub_one_eq_mod, Nat.mod_mod_of_dvd x hdvd]

/-- The lowest pair, and the others. -/
lemma addPairs_succ (w n x : ℕ) :
    addPairs w (n + 1) x
      = (x % 2 ^ w + x / 2 ^ w % 2 ^ w) + 2 ^ (2 * w) * addPairs w n (x / 2 ^ (2 * w)) := by
  have hshift : x / 2 ^ w / 2 ^ (2 * w) = x / 2 ^ (2 * w) / 2 ^ w := by
    rw [Nat.div_div_eq_div_mul, Nat.div_div_eq_div_mul, mul_comm]
  simp only [addPairs, and_mask_succ, Nat.shiftRight_eq_div_pow, hshift]
  ring

/-- A pair has room for its sum. -/
lemma pair_lt {w : ℕ} (hw : 0 < w) (x : ℕ) :
    x % 2 ^ w + x / 2 ^ w % 2 ^ w < 2 ^ (2 * w) := by
  have hfirst := Nat.mod_lt x (Nat.two_pow_pos w)
  have hsecond := Nat.mod_lt (x / 2 ^ w) (Nat.two_pow_pos w)
  have htwo : 2 ≤ 2 ^ w := by
    calc 2 = 2 ^ 1 := rfl
      _ ≤ 2 ^ w := Nat.pow_le_pow_right (by norm_num) hw
  have hsquare : 2 * 2 ^ w ≤ 2 ^ (2 * w) := by
    calc 2 * 2 ^ w ≤ 2 ^ w * 2 ^ w := Nat.mul_le_mul_right _ htwo
      _ = 2 ^ (2 * w) := by rw [two_mul, pow_add]
  omega

lemma addPairs_lt {w : ℕ} (hw : 0 < w) (n x : ℕ) : addPairs w n x < 2 ^ (2 * w * n) := by
  induction n generalizing x with
  | zero => simp [addPairs, mask]
  | succ n ih =>
    have hrest := ih (x / 2 ^ (2 * w))
    calc addPairs w (n + 1) x
        < 2 ^ (2 * w) + 2 ^ (2 * w) * addPairs w n (x / 2 ^ (2 * w)) := by
          rw [addPairs_succ]
          exact Nat.add_lt_add_right (pair_lt hw x) _
      _ = 2 ^ (2 * w) * (addPairs w n (x / 2 ^ (2 * w)) + 1) := by ring
      _ ≤ 2 ^ (2 * w) * 2 ^ (2 * w * n) := Nat.mul_le_mul_left _ hrest
      _ = 2 ^ (2 * w * (n + 1)) := by rw [← pow_add]; ring_nf

/-- The sum of all fields stays the same. -/
theorem fieldSum_addPairs {w : ℕ} (hw : 0 < w) (n x : ℕ) :
    fieldSum (2 * w) n (addPairs w n x) = fieldSum w (2 * n) x := by
  induction n generalizing x with
  | zero => rfl
  | succ n ih =>
    have hpair := pair_lt hw x
    have hmod : addPairs w (n + 1) x % 2 ^ (2 * w) = x % 2 ^ w + x / 2 ^ w % 2 ^ w := by
      rw [addPairs_succ, Nat.add_mul_mod_self_left, Nat.mod_eq_of_lt hpair]
    have hdiv : addPairs w (n + 1) x / 2 ^ (2 * w) = addPairs w n (x / 2 ^ (2 * w)) := by
      rw [addPairs_succ, Nat.add_mul_div_left _ _ (Nat.two_pow_pos _), Nat.div_eq_of_lt hpair,
        Nat.zero_add]
    have htwo : 2 * (n + 1) = 2 * n + 1 + 1 := by ring
    rw [fieldSum, hmod, hdiv, ih, htwo, fieldSum, fieldSum, Nat.div_div_eq_div_mul, ← pow_add,
      ← two_mul, add_assoc]

/-! ### The ends of the chain -/

/-- Fields of single bits. -/
lemma fieldSum_bits (n x : ℕ) : fieldSum 1 n x = (List.range n).countP x.testBit := by
  induction n generalizing x with
  | zero => rfl
  | succ n ih =>
    have hbit : x % 2 = if x.testBit 0 then 1 else 0 := by
      rw [Nat.testBit_zero]
      rcases Nat.mod_two_eq_zero_or_one x with h | h <;> simp [h]
    have hrest : (x / 2).testBit = x.testBit ∘ Nat.succ := by
      funext i
      exact (Nat.testBit_succ x i).symm
    rw [fieldSum, pow_one, ih, hbit, hrest, List.range_succ_eq_map, List.countP_cons,
      List.countP_map, add_comm]

/-- No more bits are set than a number has. -/
lemma countP_testBit_le {n x : ℕ} (h : x < 2 ^ n) (lim : ℕ) :
    (List.range lim).countP x.testBit ≤ n := by
  have hbits : (List.range lim).countP x.testBit ≤ (List.range lim).countP fun k => k < n := by
    apply List.countP_mono_left
    intro k _ hk
    by_contra hle
    have hle : n ≤ k := by simpa using hle
    have hsmall : x < 2 ^ k := lt_of_lt_of_le h (Nat.pow_le_pow_right (by norm_num) hle)
    rw [Nat.testBit_lt_two_pow hsmall] at hk
    cases hk
  have hcount : (List.range lim).countP (fun k => k < n) = min lim n := by
    clear hbits
    induction lim with
    | zero => simp
    | succ lim ih =>
      rw [List.range_succ, List.countP_append, ih, List.countP_singleton]
      simp only [decide_eq_true_eq]
      split_ifs <;> omega
  exact hbits.trans (hcount ▸ min_le_right lim n)

end BitFields
