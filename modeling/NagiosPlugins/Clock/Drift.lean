import NagiosPlugins.Clock.Basic
import NagiosPlugins.Data.Except

/-!
# The drift that is compared with the thresholds

The difference between the clocks is returned as an `int`.
-/

namespace NagiosPlugins

open Libc

/-- The plugin compares the exact drift with the thresholds, if a `long` holds it. -/
def HandsDrift (rawtime : Int64) (options : ClockOptions) (r : ℤ) : Prop :=
  |rawtime.toInt - r| < 2 ^ 63 →
    ∃ report, checkClock rawtime options = .ok (some report) ∧
      report.value = |rawtime.toInt - r|

/-! ### The clocks -/

lemma strftimeSeconds_eq (rawtime : Int64) :
    strftimeSeconds 32 rawtime = some (signedDecimal rawtime.toInt) := by
  have hlo := rawtime.le_toInt
  have hhi := rawtime.toInt_lt
  have hdigits : (decimal rawtime.toInt.natAbs).length ≤ 18 + 1 := length_decimal_le (by omega)
  have hlength : (signedDecimal rawtime.toInt).length < 32 := by
    rw [signedDecimal]
    split_ifs
    · rw [List.length_cons]
      omega
    · omega
  rw [strftimeSeconds]
  exact if_pos hlength

/-- What is returned is the difference modulo 2 ^ 32. -/
lemma getTimedelta_eq (rawtime : Int64) (r : ℤ) (verbose : Bool) :
    ∃ printed, getTimedelta rawtime (toUnsigned r) verbose
      = .ok ⟨printed, (rawtime.toInt - r).bmod (2 ^ 32)⟩ := by
  have hread : strtol (signedDecimal rawtime.toInt) = rawtime.toInt :=
    strtol_signedDecimal rawtime.le_toInt rawtime.toInt_lt
  have hlong : toUnsigned (toUnsigned rawtime.toInt - toUnsigned r).toInt64.toInt
      = toUnsigned (rawtime.toInt - r) := by
    rw [toUnsigned_toInt64, toUnsigned_sub]
  rw [getTimedelta, strftimeSeconds_eq]
  simp only [hread, hlong, toInt_toUnsigned_eq_bmod]
  exact ⟨_, rfl⟩

/-- The reference clock that `strtol_or_err` accepts is a `long`. -/
lemma strtolOrErr_mem_range {str : CString} {errmesg : String} {r : ℤ}
    (h : strtolOrErr str errmesg = .ok r) : -2 ^ 63 ≤ r ∧ r < 2 ^ 63 := by
  rw [strtolOrErr] at h
  split_ifs at h
  obtain rfl := Except.ok.inj h
  rw [strtolEnd]
  dsimp only
  split_ifs
  · norm_num
  all_goals exact strtol_mem_range str

/-- Only -1 marks that there is no reference clock. -/
lemma toUnsigned_ne_neg_one {r : ℤ} (hlo : -2 ^ 63 ≤ r) (hhi : r < 2 ^ 63) (hne : r ≠ -1) :
    toUnsigned r ≠ -1 := by
  intro heq
  have hr := toNat_toUnsigned r
  rw [heq] at hr
  have hone : ((-1 : UInt64).toNat : ℤ) = 2 ^ 64 - 1 := by decide
  omega

/-- What is compared with the thresholds is the drift modulo 2 ^ 32. -/
lemma checkClock_eq (rawtime : Int64) {options : ClockOptions} {r : ℤ}
    (hr : optionRefclock options.refclock = .ok (toUnsigned r)) (hne : toUnsigned r ≠ -1)
    {myThreshold : Thresholds}
    (hth : setThresholds none options.warning options.critical = (0, some myThreshold)) :
    ∃ report, checkClock rawtime options = .ok (some report) ∧
      report.value = |(rawtime.toInt - r).bmod (2 ^ 32)| := by
  obtain ⟨printed, hdelta⟩ := getTimedelta_eq rawtime r options.verbose
  rw [checkClock, hr]
  simp only [Except.ok_bind, hne, if_false, hth, hdelta]
  exact ⟨_, rfl, rfl⟩

/-- An `int` holds the distance up to 2 ^ 31, which it returns as its least value. -/
lemma abs_bmod_eq_iff (d : ℤ) : |d.bmod (2 ^ 32)| = |d| ↔ |d| ≤ 2 ^ 31 := by
  rw [abs_eq_abs, abs_le, Int.bmod_def]
  omega

lemma setThresholds_of_parseable {warning critical : Option CString}
    (h : (setThresholds none warning critical).1 ≠ npRangeUnparseable) :
    ∃ myThreshold, setThresholds none warning critical = (0, some myThreshold) := by
  rw [setThresholds] at h ⊢
  dsimp only at h ⊢
  split_ifs at h ⊢
  · exact absurd rfl h
  · exact absurd rfl h
  · exact ⟨_, rfl⟩

/-- For every reference clock that is accepted, the exact drift is handed to the thresholds if and
only if an `int` holds it, up to its sign, or not even a `long` does. -/
theorem handsDrift_iff (rawtime : Int64) {options : ClockOptions} {refclock : CString} {r : ℤ}
    (hoption : options.refclock = some refclock)
    (hr : strtolOrErr refclock "the option '-s' requires an integer" = .ok r) (hne : r ≠ -1)
    (hth : (setThresholds none options.warning options.critical).1 ≠ npRangeUnparseable) :
    HandsDrift rawtime options r ↔
      |rawtime.toInt - r| ≤ 2 ^ 31 ∨ 2 ^ 63 ≤ |rawtime.toInt - r| := by
  obtain ⟨hlo, hhi⟩ := strtolOrErr_mem_range hr
  have hclock : optionRefclock options.refclock = .ok (toUnsigned r) := by
    rw [hoption, optionRefclock, hr]
    rfl
  obtain ⟨myThreshold, hmy⟩ := setThresholds_of_parseable hth
  obtain ⟨report, hreport, hvalue⟩ :=
    checkClock_eq rawtime hclock (toUnsigned_ne_neg_one hlo hhi hne) hmy
  have hexact : (∃ report, checkClock rawtime options = .ok (some report) ∧
      report.value = |rawtime.toInt - r|) ↔ |rawtime.toInt - r| ≤ 2 ^ 31 := by
    rw [← abs_bmod_eq_iff, ← hvalue]
    constructor
    · rintro ⟨report', hreport', hvalue'⟩
      obtain rfl : report' = report := Option.some.inj (Except.ok.inj (hreport'.symm.trans hreport))
      exact hvalue'
    · exact fun heq => ⟨report, hreport, heq⟩
  rw [HandsDrift, hexact, ← not_lt (b := (2 ^ 63 : ℤ)), or_comm, imp_iff_not_or]

/-- A drift of seventy seconds. -/
theorem seventy_handsDrift :
    HandsDrift 1700000000
      ⟨some (ascii "1699999930"), some (ascii "120"), some (ascii "60"), false⟩ 1699999930 := by
  have hr : strtolOrErr (ascii "1699999930") "the option '-s' requires an integer"
      = .ok 1699999930 := by decide +kernel
  have hth : (setThresholds none (some (ascii "60")) (some (ascii "120"))).1
      ≠ npRangeUnparseable := by decide +kernel
  have hdrift : |(1700000000 : Int64).toInt - 1699999930| ≤ 2 ^ 31 := by decide +kernel
  exact (handsDrift_iff 1700000000 rfl hr (by norm_num) hth).2 (Or.inl hdrift)

/-- A drift of 2 ^ 32 seconds, more than a century, is none, and is not critical above 120. -/
theorem century_not_handsDrift :
    strtolOrErr (ascii "5994967296") "the option '-s' requires an integer" = .ok 5994967296 ∧
    ¬ HandsDrift 1700000000
      ⟨some (ascii "5994967296"), some (ascii "120"), some (ascii "60"), false⟩ 5994967296 ∧
    (checkClock 1700000000
      ⟨some (ascii "5994967296"), some (ascii "120"), some (ascii "60"), false⟩).map
        (Option.map fun report => (report.value, report.status)) = .ok (some (0, .ok)) := by
  have hrun : checkClock 1700000000
      ⟨some (ascii "5994967296"), some (ascii "120"), some (ascii "60"), false⟩
        = .ok (some ⟨⟨[], 0⟩, 0, .ok⟩) := by decide +kernel
  refine ⟨by decide +kernel, fun hdrift => ?_, by rw [hrun]; rfl⟩
  obtain ⟨report, hreport, hvalue⟩ := hdrift (by decide +kernel)
  obtain rfl := Option.some.inj (Except.ok.inj (hreport.symm.trans hrun))
  exact absurd hvalue (by decide +kernel)

end NagiosPlugins
