import Mathlib.Algebra.Order.Ring.Abs
import Mathlib.Data.Rat.Defs
import NagiosPlugins.Libc.Printf

/-!
# Frequencies and latencies

`cpufreq_freq_to_string` and `cpufreq_duration_to_string` of `lib/cpufreq.c`, and what the printed
texts denote. They differ in the names of their units only.
-/

namespace NagiosPlugins

open Libc

/-- The names of the units of 1000000, of 1000 and of 1. -/
structure UnitNames where
  mega : CString
  kilo : CString
  one : CString
  nodup : [mega, kilo, one].Nodup
  isName : ∀ name ∈ [mega, kilo, one], ∀ c ∈ name.head?, ¬ isdigit c ∧ c ≠ '.'

def freqUnits : UnitNames where
  mega := ascii "GHz"
  kilo := ascii "MHz"
  one := ascii "kHz"
  nodup := by decide
  isName := by decide +kernel

def durationUnits : UnitNames where
  mega := ascii "ms"
  kilo := ascii "us"
  one := ascii "ns"
  nodup := by decide
  isName := by decide +kernel

/-- The bodies of the two functions; the conversions to `unsigned int` come before the
divisions. -/
def roundedToString (units : UnitNames) (n : UInt64) : CString :=
  if n > 1000000 then
    let tmp := n % 10000
    let n := if tmp ≥ 5000 then n + 10000 else n
    decimal (n.toUInt32 / 1000000).toNat ++ ascii "."
      ++ zeroPadded 2 ((n % 1000000).toUInt32 / 10000).toNat ++ units.mega
  else if n > 100000 then
    let tmp := n % 1000
    let n := if tmp ≥ 500 then n + 1000 else n
    decimal (n.toUInt32 / 1000).toNat ++ units.kilo
  else if n > 1000 then
    let tmp := n % 100
    let n := if tmp ≥ 50 then n + 100 else n
    decimal (n.toUInt32 / 1000).toNat ++ ascii "."
      ++ zeroPadded 1 ((n % 1000).toUInt32 / 100).toNat ++ units.kilo
  else decimal n.toNat ++ units.one

/-- `cpufreq_freq_to_string`. -/
def cpufreqFreqToString (freq : UInt64) : CString := roundedToString freqUnits freq

/-- `cpufreq_duration_to_string`. -/
def cpufreqDurationToString (duration : UInt64) : CString := roundedToString durationUnits duration

/-! ### What a text denotes -/

/-- The number that a text denotes, and a unit of its last digit. -/
structure PrintedNumber where
  value : ℚ
  lastDigit : ℚ
  deriving DecidableEq

def UnitNames.size (units : UnitNames) (name : CString) : Option ℕ :=
  if name = units.mega then some 1000000
  else if name = units.kilo then some 1000
  else if name = units.one then some 1
  else none

/-- Digits, perhaps a point and digits after it, and the name of a unit. -/
def UnitNames.read (units : UnitNames) (s : CString) : Option PrintedNumber :=
  let whole := s.takeWhile isdigit
  let rest := s.dropWhile isdigit
  let (fraction, name) :=
    if rest.head? = some ('.' : UInt8) then
      (rest.tail.takeWhile isdigit, rest.tail.dropWhile isdigit)
    else ([], rest)
  (units.size name).map fun (size : ℕ) =>
    let lastDigit : ℚ := size / 10 ^ fraction.length
    { value := natOfDigits 10 (whole ++ fraction) * lastDigit, lastDigit }

/-- The text for a number denotes it up to half a unit of the last digit, and no text for a smaller
number denotes more. -/
def PrintedRounded (units : UnitNames) (toText : UInt64 → CString) (x : UInt64) : Prop :=
  ∃ p, units.read (toText x) = some p ∧ |p.value - x.toNat| ≤ p.lastDigit / 2 ∧
    ∀ y ≤ x, ∀ q, units.read (toText y) = some q → q.value ≤ p.value

end NagiosPlugins
