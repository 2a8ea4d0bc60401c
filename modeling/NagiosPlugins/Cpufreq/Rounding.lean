import Mathlib.Tactic.Linarith
import NagiosPlugins.Cpufreq.Basic

/-!
# Printed frequencies and latencies are rounded below 2 ^ 32

A number is printed to the nearest unit of the last digit, if what the rounding makes of it fits
into an `unsigned int`.
-/

namespace NagiosPlugins

open Libc

/-! ### Reading the text -/

namespace UnitNames

variable (units : UnitNames)

/-- A unit in the text, and its size. -/
structure IsSize (name : CString) (size : ℕ) : Prop where
  mem : name ∈ [units.mega, units.kilo, units.one]
  size_eq : units.size name = some size

lemma isSize_mega : units.IsSize units.mega 1000000 := ⟨by simp, if_pos rfl⟩

lemma isSize_kilo : units.IsSize units.kilo 1000 := by
  have hnodup := units.nodup
  simp only [List.nodup_cons, List.mem_cons, not_or] at hnodup
  refine ⟨by simp, ?_⟩
  rw [size, if_neg (Ne.symm hnodup.1.1), if_pos rfl]

lemma isSize_one : units.IsSize units.one 1 := by
  have hnodup := units.nodup
  simp only [List.nodup_cons, List.mem_cons, not_or] at hnodup
  refine ⟨by simp, ?_⟩
  rw [size, if_neg (Ne.symm hnodup.1.2.1), if_neg (Ne.symm hnodup.2.1.1), if_pos rfl]

variable {units} {name : CString} {size : ℕ} (h : units.IsSize name size)
include h

/-- No digits are left in front of the name. -/
lemma IsSize.span_append {ds : CString} (hds : ∀ c ∈ ds, isdigit c) :
    (ds ++ name).takeWhile isdigit = ds ∧ (ds ++ name).dropWhile isdigit = name := by
  apply takeWhile_digits_append hds
  intro c hc
  exact Bool.eq_false_iff.2 (units.isName name h.mem c hc).1

lemma IsSize.read_whole {whole : CString} (hwhole : ∀ c ∈ whole, isdigit c) :
    units.read (whole ++ name) = some ⟨natOfDigits 10 whole * size, size⟩ := by
  obtain ⟨htake, hdrop⟩ := h.span_append hwhole
  have hhead : name.head? ≠ some ('.' : UInt8) := fun heq => (units.isName name h.mem _ heq).2 rfl
  rw [read]
  simp only [htake, hdrop, if_neg hhead, h.size_eq, List.append_nil, List.length_nil, pow_zero,
    div_one, Option.map_some]

lemma IsSize.read_fraction {whole fraction : CString} (hwhole : ∀ c ∈ whole, isdigit c)
    (hfraction : ∀ c ∈ fraction, isdigit c) :
    units.read (whole ++ ascii "." ++ fraction ++ name)
      = some ⟨natOfDigits 10 (whole ++ fraction) * (size / 10 ^ fraction.length),
          size / 10 ^ fraction.length⟩ := by
  have hpoint : ascii "." = [('.' : UInt8)] := rfl
  have hnot : ∀ c ∈ (('.' : UInt8) :: (fraction ++ name)).head?, isdigit c = false := by
    intro c hc
    obtain rfl : '.' = c := Option.some.inj hc
    decide
  have htext : whole ++ ascii "." ++ fraction ++ name
      = whole ++ ('.' : UInt8) :: (fraction ++ name) := by simp [hpoint]
  obtain ⟨htake, hdrop⟩ := takeWhile_digits_append hwhole hnot
  obtain ⟨htake', hdrop'⟩ := h.span_append hfraction
  rw [htext, read]
  simp only [htake, hdrop, List.head?_cons, if_true, List.tail_cons, htake', hdrop', h.size_eq,
    Option.map_some]

/-- A point and one or two digits after it. -/
lemma IsSize.read_decimals (whole : ℕ) {fraction k : ℕ} (hfraction : fraction < 10 ^ (k + 1)) :
    units.read (decimal whole ++ ascii "." ++ zeroPadded (k + 1) fraction ++ name)
      = some ⟨(whole * 10 ^ (k + 1) + fraction : ℕ) * (size / 10 ^ (k + 1)),
          size / 10 ^ (k + 1)⟩ := by
  rw [h.read_fraction (isdigit_of_mem_decimal whole) (isdigit_of_mem_zeroPadded _ fraction),
    natOfDigits_append, natOfDigits_decimal, natOfDigits_zeroPadded, length_zeroPadded hfraction]

end UnitNames

/-! ### What is printed -/

/-- `freq` after the carry, for the unit `step`. -/
def carried (step n : ℕ) : ℕ := if step / 2 ≤ n % step then n + step else n

/-- The unit of the last digit. -/
def lastDigitOf (n : ℕ) : ℕ :=
  if 1000000 < n then 10000 else if 100000 < n then 1000 else if 1000 < n then 100 else 1

/-- The number of these units that the text denotes. -/
def printedCount (n : ℕ) : ℕ :=
  if 1000000 < n then
    let n := carried 10000 n % 2 ^ 64
    n % 2 ^ 32 / 1000000 * 100 + n % 1000000 / 10000
  else if 100000 < n then carried 1000 n / 1000
  else if 1000 < n then carried 100 n / 100
  else n

lemma toNat_carried (n : UInt64) {step half : UInt64} (hhalf : half.toNat = step.toNat / 2) :
    (if n % step ≥ half then n + step else n).toNat = carried step.toNat n.toNat % 2 ^ 64 := by
  have hcond : n % step ≥ half ↔ step.toNat / 2 ≤ n.toNat % step.toNat := by
    rw [ge_iff_le, UInt64.le_iff_toNat_le, UInt64.toNat_mod, hhalf]
  by_cases h : n % step ≥ half
  · rw [if_pos h, carried, if_pos (hcond.1 h), UInt64.toNat_add]
  · rw [if_neg h, carried, if_neg (mt hcond.2 h), Nat.mod_eq_of_lt n.toNat_lt]

lemma toNat_toUInt32_div (n : UInt64) (d : UInt32) :
    (n.toUInt32 / d).toNat = n.toNat % 2 ^ 32 / d.toNat := by
  rw [UInt32.toNat_div, UInt64.toNat_toUInt32]

lemma toNat_mod_toUInt32_div (n : UInt64) {k : UInt64} (d : UInt32) (hk : 0 < k.toNat)
    (hlt : k.toNat ≤ 2 ^ 32) :
    ((n % k).toUInt32 / d).toNat = n.toNat % k.toNat / d.toNat := by
  have hmod : n.toNat % k.toNat < 2 ^ 32 := lt_of_lt_of_le (Nat.mod_lt _ hk) hlt
  rw [toNat_toUInt32_div, UInt64.toNat_mod, Nat.mod_eq_of_lt hmod]

lemma carried_le (step n : ℕ) : carried step n ≤ n + step := by
  rw [carried]
  split_ifs
  · exact le_rfl
  · exact Nat.le_add_right _ _

/-- The text denotes a number of units. -/
theorem read_roundedToString (units : UnitNames) (n : UInt64) :
    units.read (roundedToString units n)
      = some ⟨printedCount n.toNat * lastDigitOf n.toNat, lastDigitOf n.toNat⟩ := by
  have hmega : n > 1000000 ↔ 1000000 < n.toNat := by rw [gt_iff_lt, UInt64.lt_iff_toNat_lt]; rfl
  have hkilo : n > 100000 ↔ 100000 < n.toNat := by rw [gt_iff_lt, UInt64.lt_iff_toNat_lt]; rfl
  have hone : n > 1000 ↔ 1000 < n.toNat := by rw [gt_iff_lt, UInt64.lt_iff_toNat_lt]; rfl
  rw [roundedToString, printedCount, lastDigitOf]
  simp only [hmega, hkilo, hone]
  by_cases h₁ : 1000000 < n.toNat
  · have hcarry : (if n % 10000 ≥ 5000 then n + 10000 else n).toNat
        = carried 10000 n.toNat % 2 ^ 64 := toNat_carried n rfl
    simp only [if_pos h₁, ← hcarry]
    generalize (if n % 10000 ≥ 5000 then n + 10000 else n) = m
    have hwhole : (m.toUInt32 / 1000000).toNat = m.toNat % 2 ^ 32 / 1000000 :=
      toNat_toUInt32_div m 1000000
    have hfraction : ((m % 1000000).toUInt32 / 10000).toNat = m.toNat % 1000000 / 10000 :=
      toNat_mod_toUInt32_div m 10000 (by decide) (by decide)
    rw [hwhole, hfraction, units.isSize_mega.read_decimals _ (by omega)]
    norm_num
  by_cases h₂ : 100000 < n.toNat
  · have hcarry : (if n % 1000 ≥ 500 then n + 1000 else n).toNat
        = carried 1000 n.toNat % 2 ^ 64 := toNat_carried n rfl
    have hlt : carried 1000 n.toNat < 2 ^ 32 := lt_of_le_of_lt (carried_le _ _) (by omega)
    simp only [if_neg h₁, if_pos h₂]
    generalize (if n % 1000 ≥ 500 then n + 1000 else n) = m at hcarry
    have hwhole : (m.toUInt32 / 1000).toNat = m.toNat % 2 ^ 32 / 1000 :=
      toNat_toUInt32_div m 1000
    have hcount : (m.toUInt32 / 1000).toNat = carried 1000 n.toNat / 1000 := by omega
    rw [hcount, units.isSize_kilo.read_whole (isdigit_of_mem_decimal _), natOfDigits_decimal]
  by_cases h₃ : 1000 < n.toNat
  · have hcarry : (if n % 100 ≥ 50 then n + 100 else n).toNat
        = carried 100 n.toNat % 2 ^ 64 := toNat_carried n rfl
    have hlt : carried 100 n.toNat < 2 ^ 32 := lt_of_le_of_lt (carried_le _ _) (by omega)
    simp only [if_neg h₁, if_neg h₂, if_pos h₃]
    generalize (if n % 100 ≥ 50 then n + 100 else n) = m at hcarry
    have hwhole : (m.toUInt32 / 1000).toNat = m.toNat % 2 ^ 32 / 1000 :=
      toNat_toUInt32_div m 1000
    have hfraction : ((m % 1000).toUInt32 / 100).toNat = m.toNat % 1000 / 100 :=
      toNat_mod_toUInt32_div m 100 (by decide) (by decide)
    have hcount : m.toNat % 2 ^ 32 / 1000 * 10 ^ (0 + 1) + m.toNat % 1000 / 100
        = carried 100 n.toNat / 100 := by omega
    rw [hwhole, hfraction, units.isSize_kilo.read_decimals _ (by omega), hcount]
    norm_num
  · simp only [if_neg h₁, if_neg h₂, if_neg h₃]
    rw [units.isSize_one.read_whole (isdigit_of_mem_decimal _), natOfDigits_decimal]

/-! ### Rounding -/

/-- What is divided after the carry fits into an `unsigned int`. -/
def FitsUnsigned (n : ℕ) : Prop := n < 4294957296 ∨ 4294960000 ≤ n ∧ n < 4294965000

lemma carried_cases (step n : ℕ) :
    step / 2 ≤ n % step ∧ carried step n = n + step ∨
      n % step < step / 2 ∧ carried step n = n := by
  rw [carried]
  split_ifs with h
  · exact .inl ⟨h, rfl⟩
  · exact .inr ⟨not_le.1 h, rfl⟩

/-- The value is the nearest multiple of the last digit, and the larger one of two. -/
lemma printed_eq {n : ℕ} (h : FitsUnsigned n) :
    printedCount n * lastDigitOf n = (n + lastDigitOf n / 2) / lastDigitOf n * lastDigitOf n := by
  rw [FitsUnsigned] at h
  by_cases h₁ : 1000000 < n
  · simp only [printedCount, lastDigitOf, if_pos h₁]
    rcases carried_cases 10000 n with ⟨hup, heq⟩ | ⟨hdown, heq⟩ <;> omega
  by_cases h₂ : 100000 < n
  · simp only [printedCount, lastDigitOf, if_neg h₁, if_pos h₂]
    rcases carried_cases 1000 n with ⟨hup, heq⟩ | ⟨hdown, heq⟩ <;> omega
  by_cases h₃ : 1000 < n
  · simp only [printedCount, lastDigitOf, if_neg h₁, if_neg h₂, if_pos h₃]
    rcases carried_cases 100 n with ⟨hup, heq⟩ | ⟨hdown, heq⟩ <;> omega
  · simp only [printedCount, lastDigitOf, if_neg h₁, if_neg h₂, if_neg h₃]
    omega

/-- Otherwise far too little is printed. -/
lemma printed_lt {n : ℕ} (hlt : n < 2 ^ 64) (h : ¬ FitsUnsigned n) :
    printedCount n * lastDigitOf n + 4000000000 ≤ n := by
  rw [FitsUnsigned] at h
  have h₁ : 1000000 < n := by omega
  simp only [printedCount, lastDigitOf, if_pos h₁]
  rcases carried_cases 10000 n with ⟨hup, heq⟩ | ⟨hdown, heq⟩ <;> omega

lemma lastDigitOf_bounds (n : ℕ) : 0 < lastDigitOf n ∧ lastDigitOf n ≤ 10000 := by
  rw [lastDigitOf]
  split_ifs <;> norm_num

/-- The nearest multiple is half a unit away at most. -/
lemma printed_near {n : ℕ} (h : FitsUnsigned n) :
    2 * (printedCount n * lastDigitOf n) ≤ 2 * n + lastDigitOf n ∧
      2 * n ≤ 2 * (printedCount n * lastDigitOf n) + lastDigitOf n := by
  have hlow := Nat.div_mul_le_self (n + lastDigitOf n / 2) (lastDigitOf n)
  have hhigh := Nat.lt_div_mul_add (a := n + lastDigitOf n / 2) (lastDigitOf_bounds n).1
  rw [printed_eq h]
  omega

/-- A smaller number is not printed as more, across the units too. -/
lemma printed_mono {m n : ℕ} (hle : m ≤ n) (hm : FitsUnsigned m) (hn : FitsUnsigned n) :
    printedCount m * lastDigitOf m ≤ printedCount n * lastDigitOf n := by
  rw [printed_eq hm, printed_eq hn]
  by_cases heq : lastDigitOf m = lastDigitOf n
  · rw [heq]
    exact Nat.mul_le_mul_right _ (Nat.div_le_div_right (Nat.add_le_add_right hle _))
  · -- a power of ten lies between the numbers
    revert heq
    rw [lastDigitOf, lastDigitOf]
    split_ifs <;> omega

/-- The conditions on the text, as conditions on numbers. -/
lemma printedRounded_iff (units : UnitNames) (x : UInt64) :
    PrintedRounded units (roundedToString units) x ↔
      (2 * (printedCount x.toNat * lastDigitOf x.toNat) ≤ 2 * x.toNat + lastDigitOf x.toNat ∧
        2 * x.toNat ≤ 2 * (printedCount x.toNat * lastDigitOf x.toNat) + lastDigitOf x.toNat) ∧
      ∀ y ≤ x, printedCount y.toNat * lastDigitOf y.toNat
        ≤ printedCount x.toNat * lastDigitOf x.toNat := by
  simp only [PrintedRounded, read_roundedToString, Option.some.injEq, exists_eq_left', forall_eq']
  apply and_congr
  · rw [abs_le, sub_le_iff_le_add', neg_le_sub_iff_le_add, ← Nat.cast_mul]
    constructor
    · rintro ⟨hlow, hhigh⟩
      constructor
      · have hdouble : (2 * (printedCount x.toNat * lastDigitOf x.toNat : ℕ) : ℚ)
            ≤ 2 * x.toNat + lastDigitOf x.toNat := by linarith
        exact_mod_cast hdouble
      · have hdouble : (2 * x.toNat : ℚ)
            ≤ 2 * (printedCount x.toNat * lastDigitOf x.toNat : ℕ) + lastDigitOf x.toNat := by
          linarith
        exact_mod_cast hdouble
    · rintro ⟨hhigh, hlow⟩
      have hhigh' : (2 * (printedCount x.toNat * lastDigitOf x.toNat : ℕ) : ℚ)
          ≤ 2 * x.toNat + lastDigitOf x.toNat := by exact_mod_cast hhigh
      have hlow' : (2 * x.toNat : ℚ)
          ≤ 2 * (printedCount x.toNat * lastDigitOf x.toNat : ℕ) + lastDigitOf x.toNat := by
        exact_mod_cast hlow
      constructor <;> linarith
  · refine forall₂_congr fun y _ => ?_
    norm_cast

/-- A number is printed to the nearest unit of the last digit if and only if it fits. -/
theorem printedRounded_roundedToString (units : UnitNames) (x : UInt64) :
    PrintedRounded units (roundedToString units) x ↔ FitsUnsigned x.toNat := by
  rw [printedRounded_iff]
  constructor
  · rintro ⟨⟨-, hlow⟩, -⟩
    by_contra h
    have hfar := printed_lt x.toNat_lt h
    have hdigit := (lastDigitOf_bounds x.toNat).2
    omega
  · intro h
    refine ⟨printed_near h, ?_⟩
    intro y hle
    rw [UInt64.le_iff_toNat_le] at hle
    by_cases hy : FitsUnsigned y.toNat
    · exact printed_mono hle hy h
    · -- the text for `y` denotes far too little
      have hfar := printed_lt y.toNat_lt hy
      have hnear := (printed_near h).2
      have hdigit := (lastDigitOf_bounds x.toNat).2
      omega

/-- Frequencies and latencies are rounded exactly where an `unsigned int` holds them. -/
theorem frequencies_and_latencies_rounded (x : UInt64) :
    (PrintedRounded freqUnits cpufreqFreqToString x ↔ FitsUnsigned x.toNat) ∧
    (PrintedRounded durationUnits cpufreqDurationToString x ↔ FitsUnsigned x.toNat) :=
  ⟨printedRounded_roundedToString freqUnits x, printedRounded_roundedToString durationUnits x⟩

/-- The latency that is never reached is printed as `0.97ms`. -/
theorem eternal_not_printedRounded :
    cpufreqDurationToString 4294967295 = ascii "0.97ms" ∧
    ¬ PrintedRounded durationUnits cpufreqDurationToString 4294967295 ∧
    ¬ PrintedRounded freqUnits cpufreqFreqToString 4294967295 := by
  have hnot : ¬ FitsUnsigned (4294967295 : UInt64).toNat := by
    rw [FitsUnsigned]
    decide
  refine ⟨by decide +kernel, ?_, ?_⟩
  · exact mt (printedRounded_roundedToString durationUnits _).1 hnot
  · exact mt (printedRounded_roundedToString freqUnits _).1 hnot

end NagiosPlugins
