import NagiosPlugins.Libc.Rounding
import NagiosPlugins.Strton.Properties

/-!
# The range of the result

The conversions with the doubles that `strtod` and the product are rounded to. Nothing checks that
the product is a number that `*result` can hold.
-/

namespace NagiosPlugins

open Libc

/-! ### Rounded products -/

/-- The multiplication of the double that is read; the `switch` leaves it as it is for `1`. -/
def scaleRounded (n : ℕ) (x : Double) : Double :=
  if n = 1 then x.rounded else x.rounded.mul (.fin n)

lemma scaleRounded_eq (n : ℕ) (x : Double) : scaleRounded n x = x.rounded.mul (.fin n) := by
  rw [scaleRounded]
  split_ifs with h
  · rw [h, Nat.cast_one, Double.rounded_mul_one]
  · rfl

section Conversion

variable (unspecified : Double → Int64)

/-- `agemultiplier`. -/
def agemultiplierRounded : Converter := multiplier unspecified scaleRounded ageFactor

/-- `sizemultiplier`. -/
def sizemultiplierRounded : Converter := multiplier unspecified scaleRounded sizeFactor

/-- `agetollint`. -/
def agetollintRounded : Option Stored → Int64 → Option CString → Converted :=
  strtollint (agemultiplierRounded unspecified)

/-- `sizetollint`. -/
def sizetollintRounded : Option Stored → Int64 → Option CString → Converted :=
  strtollint (sizemultiplierRounded unspecified)

end Conversion

/-! ### Values out of range -/

/-- The double in front of a string, scaled by the suffix behind it. -/
def scaledValue (factor : UInt8 → Option ℕ) (s : Stored) : Option Double :=
  let (x, rest) := strtod s.text
  if rest = s.text then none
  else (factor (s.byte (stopIndex s rest))).map fun (n : ℕ) => x.rounded.mul (.fin n)

/-- A finite number whose integral part is a `long long int`. -/
def InRange (x : Double) : Prop := ∃ q, x = .fin q ∧ -2 ^ 63 - 1 < q ∧ q < 2 ^ 63

/-- Success means that the scaled value is in range and that its integral part is stored, and one
that is not in range makes the conversion fail. -/
structure RejectsOutOfRange (factor : UInt8 → Option ℕ) (s : Stored) (converted : Converted) :
    Prop where
  in_range : converted.code = 0 → ∃ x, scaledValue factor s = some x ∧ InRange x ∧
    x.toInt64? = some converted.result
  rejects : ∀ x, scaledValue factor s = some x → ¬ InRange x → converted.code = -1

/-- The string is the number `x`, without a range error, and at most one suffix, which stands for
`n`. -/
def SuffixedNumber (factor : UInt8 → Option ℕ) (s : Stored) (x : Double) (n : ℕ) : Prop :=
  ∃ rest, ReadsNumber s.text x rest ∧ factor (s.byte (stopIndex s rest)) = some n ∧
    s.byte (stopIndex s rest + 1) = 0

section Range

variable (unspecified : Double → Int64) {factor : UInt8 → Option ℕ} {s : Stored} {x : Double}
  {n : ℕ}

lemma SuffixedNumber.scaledValue_eq (h : SuffixedNumber factor s x n) :
    scaledValue factor s = some (x.rounded.mul (.fin n)) := by
  obtain ⟨rest, hreads, hfactor, -⟩ := h
  simp only [scaledValue, hreads.strtod_eq, if_neg hreads.ne, hfactor, Option.map_some]

lemma SuffixedNumber.strtollint_eq (h : SuffixedNumber factor s x n) (result : Int64)
    (errmesg : Option CString) :
    strtollint (multiplier unspecified scaleRounded factor) (some s) result errmesg
      = ⟨0, scaledResult unspecified scaleRounded x n, errmesg⟩ := by
  obtain ⟨rest, hreads, hfactor, hbehind⟩ := h
  exact strtollint_accepted unspecified scaleRounded result errmesg hreads hfactor hbehind

lemma InRange.toInt64?_eq (h : InRange (x.rounded.mul (.fin n))) :
    (x.rounded.mul (.fin n)).toInt64? = some (scaledResult unspecified scaleRounded x n) := by
  obtain ⟨q, hq, hlow, hhigh⟩ := h
  rw [scaledResult, scaleRounded_eq, hq, Double.toInt64?, if_pos ⟨hlow, hhigh⟩, Option.getD_some]

/-- A product is rounded into the range exactly if it is at most half a place outside of it. -/
lemma inRange_mul_iff (y : Double) :
    InRange (y.mul (.fin n)) ↔
      ∃ d : ℚ, y = .fin d ∧ -2 ^ 63 - 2 ^ 10 ≤ n * d ∧ n * d < 2 ^ 63 - 2 ^ 9 := by
  cases y with
  | fin d =>
    rw [Double.mul, mul_comm, InRange, Double.nearest_mem_int64_iff]
    simp
  | inf negative =>
    rw [Double.mul]
    split_ifs <;> simp [InRange]
  | nan => simp [Double.mul, InRange]

lemma rejectsOutOfRange_strtollint_iff (result : Int64) (errmesg : Option CString) :
    RejectsOutOfRange factor s
        (strtollint (multiplier unspecified scaleRounded factor) (some s) result errmesg) ↔
      ∀ x n, SuffixedNumber factor s x n →
        ∃ d : ℚ, x.rounded = .fin d ∧ -2 ^ 63 - 2 ^ 10 ≤ n * d ∧ n * d < 2 ^ 63 - 2 ^ 9 := by
  simp only [← inRange_mul_iff]
  constructor
  · intro h x n hx
    have heq := hx.strtollint_eq unspecified result errmesg
    obtain ⟨y, hy, hrange, -⟩ := h.in_range (congrArg Converted.code heq)
    rw [hx.scaledValue_eq, Option.some.injEq] at hy
    exact hy ▸ hrange
  · intro h
    -- what is accepted is a suffixed number
    have haccepted : ∀ hzero : (strtollint (multiplier unspecified scaleRounded factor) (some s)
        result errmesg).code = 0, ∃ x n, SuffixedNumber factor s x n := by
      intro hzero
      obtain ⟨x, rest, n, hx⟩ := (code_eq_zero_iff unspecified scaleRounded result errmesg).1 hzero
      exact ⟨x, n, rest, hx⟩
    refine ⟨?_, ?_⟩
    · intro hzero
      obtain ⟨x, n, hx⟩ := haccepted hzero
      refine ⟨_, hx.scaledValue_eq, h x n hx, ?_⟩
      rw [hx.strtollint_eq unspecified result errmesg]
      exact (h x n hx).toInt64?_eq unspecified
    · intro y hy hrange
      refine (refuses_of_code_ne_zero unspecified scaleRounded result errmesg ?_).1
      intro hzero
      obtain ⟨x, n, hx⟩ := haccepted hzero
      rw [hx.scaledValue_eq, Option.some.injEq] at hy
      exact hrange (hy ▸ h x n hx)

end Range

/-- Values that no `long long int` can hold are rejected exactly if the string is not a number with
at most one known suffix which is infinite, not a number or too large after scaling. The product
is rounded: to `-2 ^ 63` down to half a place below it, and to `2 ^ 63` from half a place below it
on. -/
theorem rejectsOutOfRange_iff (unspecified : Double → Int64) (s : Stored) (result : Int64)
    (errmesg : Option CString) :
    (RejectsOutOfRange ageFactor s (agetollintRounded unspecified (some s) result errmesg) ↔
      ∀ x n, SuffixedNumber ageFactor s x n → ∃ d : ℚ, x.rounded = .fin d ∧
        -2 ^ 63 - 2 ^ 10 ≤ n * d ∧ n * d < 2 ^ 63 - 2 ^ 9) ∧
    (RejectsOutOfRange sizeFactor s (sizetollintRounded unspecified (some s) result errmesg) ↔
      ∀ x n, SuffixedNumber sizeFactor s x n → ∃ d : ℚ, x.rounded = .fin d ∧
        -2 ^ 63 - 2 ^ 10 ≤ n * d ∧ n * d < 2 ^ 63 - 2 ^ 9) := by
  constructor
  · exact rejectsOutOfRange_strtollint_iff unspecified result errmesg
  · exact rejectsOutOfRange_strtollint_iff unspecified result errmesg

/-- The argument `9999p`, with zeros behind it. -/
def storedHuge : Stored where
  text := ascii "9999p"
  following _ := 0
  noNul := by decide

theorem huge_not_rejectsOutOfRange :
    ¬ RejectsOutOfRange sizeFactor storedHuge
      (sizetollintRounded (fun _ => 0) (some storedHuge) 0 none) := by
  intro h
  have hvalue : scaledValue sizeFactor storedHuge = some (.fin (9999 * 1000 ^ 5)) := by
    decide +kernel
  have hrange : ¬ InRange (.fin (9999 * 1000 ^ 5)) := by
    rintro ⟨q, hq, -, hlt⟩
    cases hq
    norm_num at hlt
  exact absurd (h.rejects _ hvalue hrange) (by decide +kernel)

end NagiosPlugins
