import NagiosPlugins.Libc.Arith
import NagiosPlugins.Libc.Stdlib

/-!
# Printing and reading integers

`%u` and `%d` of `printf`, and that `strtoul`, `strtoull` and `strtol` read back what they print.
-/

namespace Libc

/-- `%u`. -/
def decimal (n : ℕ) : CString := (Nat.toDigits 10 n).map Char.toUInt8

/-- `%0*u`. -/
def zeroPadded (width n : ℕ) : CString :=
  List.replicate (width - (decimal n).length) ('0' : UInt8) ++ decimal n

/-- `%d`. -/
def signedDecimal (i : ℤ) : CString :=
  if i < 0 then ('-' : UInt8) :: decimal i.natAbs else decimal i.natAbs

lemma decimal_of_lt {n : ℕ} (h : n < 10) : decimal n = [UInt8.ofNat (48 + n)] := by
  rw [decimal, Nat.toDigits_of_lt_base h]
  interval_cases n <;> rfl

/-- The last digit comes off the end. -/
lemma decimal_append {n d : ℕ} (hn : 0 < n) (hd : d < 10) :
    decimal (10 * n + d) = decimal n ++ decimal d := by
  rw [decimal, ← Nat.toDigits_append_toDigits (by norm_num) hn hd, List.map_append]
  rfl

/-- A number is a single digit, or a positive number with a digit behind it. -/
lemma digit_or_append (n : ℕ) : n < 10 ∨ ∃ m d, 0 < m ∧ m < n ∧ d < 10 ∧ n = 10 * m + d := by
  by_cases h : n < 10
  · exact Or.inl h
  · exact Or.inr ⟨n / 10, n % 10, by omega, by omega, by omega, by omega⟩

lemma decimal_ne_nil (n : ℕ) : decimal n ≠ [] := by
  rcases digit_or_append n with h | ⟨m, d, hm, -, hd, rfl⟩
  · rw [decimal_of_lt h]
    exact List.cons_ne_nil _ _
  · rw [decimal_append hm hd, decimal_of_lt hd]
    exact List.append_ne_nil_of_right_ne_nil _ (List.cons_ne_nil _ _)

lemma isdigit_of_mem_decimal (n : ℕ) : ∀ c ∈ decimal n, isdigit c := by
  induction n using Nat.strong_induction_on with
  | _ n ih =>
    have hdigit : ∀ d < 10, (decimal d).all isdigit := by decide
    rcases digit_or_append n with h | ⟨m, d, hm, hlt, hd, rfl⟩
    · exact List.all_eq_true.1 (hdigit n h)
    · rw [decimal_append hm hd]
      intro c hc
      rcases List.mem_append.1 hc with hc | hc
      · exact ih m hlt c hc
      · exact List.all_eq_true.1 (hdigit d hd) c hc

/-- The digits denote the number. -/
@[simp] lemma natOfDigits_decimal (n : ℕ) : natOfDigits 10 (decimal n) = n := by
  induction n using Nat.strong_induction_on with
  | _ n ih =>
    have hdigit : ∀ d < 10, natOfDigits 10 (decimal d) = d := by decide
    rcases digit_or_append n with h | ⟨m, d, hm, hlt, hd, rfl⟩
    · exact hdigit n h
    · have hlen : (decimal d).length = 1 := by rw [decimal_of_lt hd, List.length_singleton]
      rw [decimal_append hm hd, natOfDigits_append, ih m hlt, hdigit d hd, hlen]
      ring

/-- Only zero begins with the digit zero. -/
lemma head?_decimal {n : ℕ} (hn : n ≠ 0) : (decimal n).head? ≠ some ('0' : UInt8) := by
  induction n using Nat.strong_induction_on with
  | _ n ih =>
    rcases digit_or_append n with h | ⟨m, d, hm, hlt, hd, rfl⟩
    · rw [decimal_of_lt h]
      interval_cases n
      · exact absurd rfl hn
      all_goals decide
    · rw [decimal_append hm hd, List.head?_append_of_ne_nil _ (decimal_ne_nil m)]
      exact ih m hlt hm.ne'

/-- A digit ends neither a line nor a string. -/
lemma ne_of_isdigit {c : UInt8} (h : isdigit c) : c ≠ '\n' ∧ c ≠ 0 := by
  constructor <;> · rintro rfl; exact absurd h (by decide)

lemma mem_decimal (n : ℕ) : ∀ c ∈ decimal n, c ≠ '\n' ∧ c ≠ 0 :=
  fun c hc => ne_of_isdigit (isdigit_of_mem_decimal n c hc)

lemma mem_signedDecimal {i : ℤ} : ∀ c ∈ signedDecimal i, c ≠ '\n' ∧ c ≠ 0 := by
  rw [signedDecimal]
  split_ifs
  · exact List.forall_mem_cons.2 ⟨by decide, mem_decimal _⟩
  · exact mem_decimal _

lemma signedDecimal_ne_nil (i : ℤ) : signedDecimal i ≠ [] := by
  rw [signedDecimal]
  split_ifs
  · exact List.cons_ne_nil _ _
  · exact decimal_ne_nil _

/-! ### Leading zeros -/

lemma isdigit_of_mem_zeroPadded (width n : ℕ) : ∀ c ∈ zeroPadded width n, isdigit c := by
  intro c hc
  rcases List.mem_append.1 hc with hc | hc
  · rw [List.eq_of_mem_replicate hc]
    decide
  · exact isdigit_of_mem_decimal n c hc

@[simp] lemma natOfDigits_zeroPadded (width n : ℕ) : natOfDigits 10 (zeroPadded width n) = n := by
  have hzeros : ∀ k, natOfDigits 10 (List.replicate k ('0' : UInt8)) = 0 := by
    intro k
    induction k with
    | zero => rfl
    | succ k ih =>
      have hzero : natOfDigits 10 [('0' : UInt8)] = 0 := by decide
      rw [List.replicate_succ', natOfDigits_append, ih, hzero, Nat.zero_mul]
  rw [zeroPadded, natOfDigits_append, hzeros, natOfDigits_decimal, Nat.zero_mul, Nat.zero_add]

lemma length_decimal_le {n k : ℕ} (h : n < 10 ^ (k + 1)) : (decimal n).length ≤ k + 1 := by
  induction k generalizing n with
  | zero => rw [decimal_of_lt (by simpa using h), List.length_singleton]
  | succ k ih =>
    rcases digit_or_append n with hn | ⟨m, d, hm, -, hd, rfl⟩
    · rw [decimal_of_lt hn, List.length_singleton]
      exact Nat.le_add_left _ _
    · have hm' : m < 10 ^ (k + 1) := by
        rw [pow_succ] at h
        omega
      rw [decimal_append hm hd, List.length_append, decimal_of_lt hd, List.length_singleton]
      exact Nat.succ_le_succ (ih hm')

lemma length_zeroPadded {n k : ℕ} (h : n < 10 ^ (k + 1)) :
    (zeroPadded (k + 1) n).length = k + 1 := by
  rw [zeroPadded, List.length_append, List.length_replicate]
  exact Nat.sub_add_cancel (length_decimal_le h)

/-! ### Reading back -/

lemma isBaseDigit_of_isdigit {c : UInt8} (hc : isdigit c) : isBaseDigit 10 c := by
  revert c
  decide +kernel

/-- Decimal digits have no prefix `0x`. -/
lemma afterKeyword_decimal (n : ℕ) : afterKeyword (ascii "0x") (decimal n) = none := by
  rw [afterKeyword]
  apply if_neg
  intro h
  have hx : ('x' : UInt8) ∈ ((decimal n).take (ascii "0x").length).map tolower := by
    rw [h]
    decide
  obtain ⟨c, hc, hlower⟩ := List.mem_map.1 hx
  obtain ⟨-, -, -, -, hsame, -, -, hne, -⟩ :=
    isdigit_ne c (isdigit_of_mem_decimal n c (List.mem_of_mem_take hc))
  exact hne (hsame.symm.trans hlower)

/-- Digits have no sign in front of them. -/
lemma scanSign_decimal (n : ℕ) : scanSign ((decimal n).dropWhile isspace) = (false, decimal n) := by
  have hblanks : ∀ c ∈ ([] : CString), isspace c := by simp
  have hdigits : scanSign (([] ++ (decimal n ++ [])).dropWhile isspace)
      = (false, decimal n ++ []) :=
    scanSign_digits hblanks (isdigit_of_mem_decimal n) (decimal_ne_nil n)
  simpa using hdigits

lemma scanSign_minus_decimal (n : ℕ) :
    scanSign ((('-' : UInt8) :: decimal n).dropWhile isspace) = (true, decimal n) := rfl

/-- The digits are scanned to their end in the base that they tell. -/
lemma strtoull_of_scanSign {nptr : CString} {negative : Bool} {n : ℕ} (hn : n < 2 ^ 64)
    (hsign : scanSign (nptr.dropWhile isspace) = (negative, decimal n)) :
    strtoull nptr
      = ⟨if negative then -UInt64.ofNat n else UInt64.ofNat n, [], false⟩ := by
  have hnil : (decimal n).takeWhile (isBaseDigit 10) = decimal n ∧
      (decimal n).dropWhile (isBaseDigit 10) = [] := by
    have hdigits : ∀ c ∈ decimal n, isBaseDigit 10 c :=
      fun c hc => isBaseDigit_of_isdigit (isdigit_of_mem_decimal n c hc)
    exact ⟨List.takeWhile_eq_self_iff.2 hdigits, List.dropWhile_eq_nil_iff.2 hdigits⟩
  rw [strtoull, hsign]
  simp only [afterKeyword_decimal, Option.filter_none]
  by_cases hzero : n = 0
  · -- the prefix of base 8
    subst hzero
    have hhead : (decimal 0).head? = some ('0' : UInt8) := rfl
    have htake : (decimal 0).takeWhile (isBaseDigit 8) = decimal 0 := by decide
    have hdrop : (decimal 0).dropWhile (isBaseDigit 8) = [] := by decide
    have hvalue : natOfDigits 8 (decimal 0) = 0 := by decide
    simp only [hhead, if_true, htake, hdrop, hvalue, decimal_ne_nil, if_false, Nat.not_le.2 hn]
  · rw [if_neg (head?_decimal hzero)]
    simp only [hnil, decimal_ne_nil, if_false, natOfDigits_decimal, Nat.not_le.2 hn]

/-- `strtoull` in base 0 reads back a signed number modulo 2 ^ 64. -/
lemma strtoull_signedDecimal {i : ℤ} (hi : i.natAbs < 2 ^ 64) :
    strtoull (signedDecimal i) = ⟨toUnsigned i, [], false⟩ := by
  rw [signedDecimal]
  split_ifs with hneg
  · rw [strtoull_of_scanSign hi (scanSign_minus_decimal i.natAbs)]
    have hvalue : toUnsigned i = -UInt64.ofNat i.natAbs := by
      have hneg' := UInt64.toNat_neg (UInt64.ofNat i.natAbs)
      have hsize : UInt64.size = 2 ^ 64 := rfl
      rw [UInt64.toNat_ofNat_of_lt' hi, hsize] at hneg'
      have hsigned := toNat_toUnsigned i
      apply UInt64.toNat_inj.1
      omega
    rw [hvalue]
    rfl
  · rw [strtoull_of_scanSign hi (scanSign_decimal i.natAbs)]
    have hvalue : toUnsigned i = UInt64.ofNat i.natAbs := by
      apply UInt64.toNat_inj.1
      zify
      rw [toNat_toUnsigned, UInt64.toNat_ofNat_of_lt' hi]
      omega
    rw [hvalue]
    rfl

/-- `strtol` reads back a signed number that fits into a `long`. -/
lemma strtol_signedDecimal {i : ℤ} (hlo : -2 ^ 63 ≤ i) (hhi : i < 2 ^ 63) :
    strtol (signedDecimal i) = i := by
  have hdigits : (decimal i.natAbs).takeWhile isdigit = decimal i.natAbs :=
    List.takeWhile_eq_self_iff.2 (isdigit_of_mem_decimal i.natAbs)
  rw [signedDecimal]
  split_ifs with hneg
  · rw [strtol, scanSign_minus_decimal]
    simp only [hdigits, decimal_ne_nil, if_false, if_true, natOfDigits_decimal]
    omega
  · rw [strtol, scanSign_decimal]
    simp only [hdigits, decimal_ne_nil, if_false, natOfDigits_decimal, Bool.false_eq_true]
    omega

end Libc
