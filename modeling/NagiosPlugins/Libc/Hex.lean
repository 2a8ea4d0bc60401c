import Mathlib.Data.List.DropRight
import NagiosPlugins.Libc.Printf
import NagiosPlugins.Libc.Scanf

/-!
# Hexadecimal numbers, and what `sscanf` reads of them

`%X` of `printf`, and the integer conversions of `sscanf` on digits in front of a delimiter.
-/

namespace Libc

/-- The byte of a digit below 16. -/
def hexDigit (d : ℕ) : UInt8 := UInt8.ofNat (if d < 10 then 48 + d else 55 + d)

/-- `%X`. -/
def hexadecimal (n : ℕ) : CString :=
  if n < 16 then [hexDigit n] else hexadecimal (n / 16) ++ [hexDigit (n % 16)]

/-- `%0*X`. -/
def zeroPaddedHex (width n : ℕ) : CString :=
  List.replicate (width - (hexadecimal n).length) ('0' : UInt8) ++ hexadecimal n

/-- `%*u`. -/
def blankPadded (width n : ℕ) : CString :=
  List.replicate (width - (decimal n).length) (' ' : UInt8) ++ decimal n

lemma hexDigit_spec {d : ℕ} (hd : d < 16) : isxdigit (hexDigit d) = true ∧
    digitVal (hexDigit d) = d := by
  interval_cases d <;> decide

lemma hexadecimal_ne_nil (n : ℕ) : hexadecimal n ≠ [] := by
  rw [hexadecimal]
  split_ifs <;> simp

lemma isxdigit_of_mem_hexadecimal (n : ℕ) : ∀ c ∈ hexadecimal n, isxdigit c = true := by
  induction n using hexadecimal.induct with
  | case1 n hn =>
    rw [hexadecimal, if_pos hn]
    intro c hc
    rw [List.mem_singleton.1 hc]
    exact (hexDigit_spec hn).1
  | case2 n hn ih =>
    rw [hexadecimal, if_neg hn]
    intro c hc
    rcases List.mem_append.1 hc with hc | hc
    · exact ih c hc
    · rw [List.mem_singleton.1 hc]
      exact (hexDigit_spec (Nat.mod_lt n (by decide))).1

/-- The digits denote the number. -/
@[simp] lemma natOfDigits_hexadecimal (n : ℕ) : natOfDigits 16 (hexadecimal n) = n := by
  induction n using hexadecimal.induct with
  | case1 n hn =>
    rw [hexadecimal, if_pos hn]
    simpa [natOfDigits] using (hexDigit_spec hn).2
  | case2 n hn ih =>
    have hlast : natOfDigits 16 [hexDigit (n % 16)] = n % 16 := by
      simpa [natOfDigits] using (hexDigit_spec (Nat.mod_lt n (by decide))).2
    rw [hexadecimal, if_neg hn, natOfDigits_append, ih, hlast]
    simp only [List.length_singleton, pow_one]
    omega

lemma length_hexadecimal_le {n k : ℕ} (h : n < 16 ^ (k + 1)) : (hexadecimal n).length ≤ k + 1 := by
  induction k generalizing n with
  | zero =>
    rw [hexadecimal, if_pos (by simpa using h)]
    rfl
  | succ k ih =>
    rw [hexadecimal]
    split_ifs with hn
    · simp
    · have hdiv : n / 16 < 16 ^ (k + 1) := by
        rw [Nat.div_lt_iff_lt_mul (by decide)]
        rw [pow_succ] at h
        exact h
      simpa using ih hdiv

lemma isxdigit_of_mem_zeroPaddedHex (width n : ℕ) :
    ∀ c ∈ zeroPaddedHex width n, isxdigit c = true := by
  intro c hc
  rcases List.mem_append.1 hc with hc | hc
  · rw [List.eq_of_mem_replicate hc]
    decide
  · exact isxdigit_of_mem_hexadecimal n c hc

lemma zeroPaddedHex_ne_nil (width n : ℕ) : zeroPaddedHex width n ≠ [] := by
  simp [zeroPaddedHex, hexadecimal_ne_nil]

@[simp] lemma natOfDigits_zeroPaddedHex (width n : ℕ) :
    natOfDigits 16 (zeroPaddedHex width n) = n := by
  have hzeros : ∀ k, natOfDigits 16 (List.replicate k ('0' : UInt8)) = 0 := by
    intro k
    induction k with
    | zero => rfl
    | succ k ih =>
      rw [List.replicate_succ', natOfDigits_append, ih]
      rfl
  rw [zeroPaddedHex, natOfDigits_append, hzeros, zero_mul, zero_add, natOfDigits_hexadecimal]

lemma length_zeroPaddedHex {n k : ℕ} (h : n < 16 ^ (k + 1)) :
    (zeroPaddedHex (k + 1) n).length = k + 1 := by
  have hle := length_hexadecimal_le h
  rw [zeroPaddedHex, List.length_append, List.length_replicate]
  omega

/-! ### Scanning -/

/-- The value of an integer conversion for the number that the digits denote. -/
def scannedValue (n : ℕ) : UInt64 := if n ≥ 2 ^ 64 then -1 else UInt64.ofNat n

/-- The byte ends a number, and is not the second one of a prefix. -/
def Delimits (c : UInt8) : Prop := isxdigit c = false ∧ tolower c ≠ 'x'

lemma delimits_of_isspace : ∀ c, isspace c = true → isxdigit c = false ∧ tolower c ≠ 'x' := by
  decide +kernel

/-- A digit is no sign, no part of `0x` and no blank. -/
lemma isxdigit_spec : ∀ c, isxdigit c = true → (c ≠ '-' ∧ c ≠ '+') ∧ tolower c ≠ 'x' ∧
    isspace c = false ∧ isBaseDigit 16 c = true := by
  decide +kernel

variable {base : ℕ} {ds rest : CString}

/-- Digits in front of a delimiter are scanned. -/
lemma scanInteger_digits (hds : ∀ c ∈ ds, isBaseDigit base c = true) (hne : ds ≠ [])
    (hrest : ∀ c ∈ rest.head?, Delimits c) :
    scanInteger base (ds ++ rest) = some (scannedValue (natOfDigits base ds), rest) := by
  have hxdigit : ∀ c ∈ ds, isxdigit c = true := fun c hc => (Bool.and_eq_true_iff.1 (hds c hc)).1
  have hnot : ∀ c ∈ rest.head?, isBaseDigit base c = false := by
    intro c hc
    rw [isBaseDigit, (hrest c hc).1, Bool.false_and]
  obtain ⟨htake, hdrop⟩ := takeWhile_digits_append hds hnot
  have hsign : scanSign (ds ++ rest) = (false, ds ++ rest) := by
    apply scanSign_render .none
    intro c hc
    replace hc : c ∈ (ds ++ rest).head? := hc
    rw [List.head?_append_of_ne_nil _ hne] at hc
    exact (isxdigit_spec c (hxdigit c (List.mem_of_mem_head? hc))).1
  have hprefix : (if base = 16 then (afterKeyword (ascii "0x") (ds ++ rest)).getD (ds ++ rest)
      else ds ++ rest) = ds ++ rest := by
    have hnone : afterKeyword (ascii "0x") (ds ++ rest) = none := by
      -- the second byte would be an x, which is neither a digit nor a delimiter
      obtain ⟨d, ds, rfl⟩ := List.exists_cons_of_ne_nil hne
      have hsecond : ∀ c ∈ (ds ++ rest).head?, tolower c ≠ 'x' := by
        cases ds with
        | nil => exact fun c hc => (hrest c hc).2
        | cons d' ds =>
          intro c hc
          exact (isxdigit_spec c (hxdigit c (by simp [Option.some.inj hc.symm]))).2.1
      rw [afterKeyword, if_neg]
      intro htaken
      cases hbehind : ds ++ rest with
      | nil => simp [hbehind, ascii] at htaken
      | cons c s =>
        rw [List.cons_append, hbehind] at htaken
        exact hsecond c (by simp [hbehind]) (List.cons.inj (List.cons.inj htaken).2).1
    rw [hnone, Option.getD_none, ite_self]
  rw [scanInteger, hsign]
  simp only [htake, hprefix, hdrop, hne, if_false, scannedValue, Bool.false_eq_true]

/-- The argument of an integer conversion. -/
def integerArg (long : Bool) (n : ℕ) : Arg :=
  if long then .unsignedLong (scannedValue n) else .unsignedInt (scannedValue n).toUInt32

variable {blanks : CString} {format : List Directive}

/-- White space matches blanks up to what follows them. -/
lemma scan_white (hblanks : ∀ c ∈ blanks, isspace c = true)
    (hrest : ∀ c ∈ rest.head?, isspace c = false) :
    scan (.white :: format) (blanks ++ rest) = scan format rest := by
  rw [scan, (takeWhile_digits_append hblanks hrest).2]

/-- A number is looked for behind white space anyway. -/
lemma scan_white_integer (base : ℕ) (long : Bool) (s : CString) :
    scan (.white :: .integer base long :: format) s = scan (.integer base long :: format) s := by
  rw [scan, scan, scan, List.dropWhile_idempotent]

lemma scan_literal (c : UInt8) : scan (.literal c :: format) (c :: rest) = scan format rest := by
  rw [scan, if_pos rfl]

lemma scan_integer (long : Bool) (hblanks : ∀ c ∈ blanks, isspace c = true)
    (hds : ∀ c ∈ ds, isBaseDigit base c = true) (hne : ds ≠ [])
    (hrest : ∀ c ∈ rest.head?, Delimits c) :
    scan (.integer base long :: format) (blanks ++ (ds ++ rest))
      = ⟨integerArg long (natOfDigits base ds) :: (scan format rest).args, false⟩ := by
  have hhead : ∀ c ∈ (ds ++ rest).head?, isspace c = false := by
    intro c hc
    rw [List.head?_append_of_ne_nil _ hne] at hc
    exact (isxdigit_spec c (Bool.and_eq_true_iff.1 (hds c (List.mem_of_mem_head? hc))).1).2.2.1
  have hscan := scanInteger_digits hds hne hrest
  obtain ⟨d, ds, rfl⟩ := List.exists_cons_of_ne_nil hne
  rw [scan, (takeWhile_digits_append hblanks hhead).2]
  rw [List.cons_append] at hscan ⊢
  simp only [hscan, integerArg]

variable {c : UInt8}

/-- A number that was printed in base 16 is read back in front of a delimiter. -/
lemma scan_zeroPaddedHex (long : Bool) (hblanks : ∀ c ∈ blanks, isspace c = true) (width n : ℕ)
    (hc : Delimits c) :
    scan (.integer 16 long :: format) (blanks ++ (zeroPaddedHex width n ++ c :: rest))
      = ⟨integerArg long n :: (scan format (c :: rest)).args, false⟩ := by
  have hds : ∀ c ∈ zeroPaddedHex width n, isBaseDigit 16 c = true :=
    fun c hc => (isxdigit_spec c (isxdigit_of_mem_zeroPaddedHex width n c hc)).2.2.2
  rw [scan_integer long hblanks hds (zeroPaddedHex_ne_nil width n) fun c' hc' => ?_,
    natOfDigits_zeroPaddedHex]
  rwa [← Option.some.inj hc']

/-- And one that was printed in base 10. -/
lemma scan_decimal (long : Bool) (hblanks : ∀ c ∈ blanks, isspace c = true) (n : ℕ)
    (hc : Delimits c) :
    scan (.integer 10 long :: format) (blanks ++ (decimal n ++ c :: rest))
      = ⟨integerArg long n :: (scan format (c :: rest)).args, false⟩ := by
  have hds : ∀ c ∈ decimal n, isBaseDigit 10 c = true :=
    fun c hc => isBaseDigit_of_isdigit (isdigit_of_mem_decimal n c hc)
  rw [scan_integer long hblanks hds (decimal_ne_nil n) fun c' hc' => ?_, natOfDigits_decimal]
  rwa [← Option.some.inj hc']

lemma scan_set {width : ℕ} {member : UInt8 → Bool} (hds : ∀ c ∈ ds, member c = true)
    (hne : ds ≠ []) (hlength : ds.length ≤ width) (hrest : ∀ c ∈ rest.head?, member c = false) :
    scan (.set width member :: format) (ds ++ rest)
      = ⟨.chars ds :: (scan format rest).args, false⟩ := by
  have htake : ((ds ++ rest).take width).takeWhile member = ds := by
    obtain ⟨k, rfl⟩ := Nat.exists_eq_add_of_le hlength
    rw [List.take_length_add_append]
    refine (takeWhile_digits_append hds ?_).1
    intro c hc
    cases k with
    | zero => cases hc
    | succ k =>
      cases rest with
      | nil => cases hc
      | cons c' rest => exact hrest c hc
  obtain ⟨d, ds', hcons⟩ := List.exists_cons_of_ne_nil hne
  have hdrop : (ds ++ rest).drop ds.length = rest := List.drop_left ..
  rw [hcons, List.cons_append] at htake hdrop ⊢
  rw [scan]
  simp only [htake, List.cons_ne_nil, if_false, hdrop]

end Libc
