import NagiosPlugins.Clock.Basic
import NagiosPlugins.Data.Except

/-!
# The delay between two samples

The plugins that take two samples read the delay from the argument behind their options.
-/

namespace NagiosPlugins

open Libc

/-- `DELAY_DEFAULT` and `DELAY_MAX`. -/
def delayDefault : UInt64 := 1
def delayMax : UInt64 := 60

/-- The delay that the argument asks for. -/
def delayArgument (arg : CString) : Except Stop UInt64 := do
  let delay := UInt64.ofInt (← strtolOrErr arg "failed to parse argument")
  if delay < 1 then throw (.pluginError .unknown "delay must be positive integer")
  if delayMax < delay then
    throw (.pluginError .unknown "too large delay value (greater than 60)")
  return delay

/-- The delays that are accepted. -/
lemma delayArgument_eq_ok {arg : CString} {delay : UInt64} (h : delayArgument arg = .ok delay) :
    1 ≤ delay.toNat ∧ delay.toNat ≤ 60 := by
  obtain ⟨n, -, hn⟩ := Except.bind_eq_ok.1 h
  by_cases hlow : UInt64.ofInt n < 1
  · rw [if_pos hlow] at hn
    cases hn
  · by_cases hhigh : delayMax < UInt64.ofInt n
    · rw [if_neg hlow, if_pos hhigh] at hn
      cases hn
    · rw [if_neg hlow, if_neg hhigh] at hn
      cases hn
      rw [UInt64.lt_iff_toNat_lt, not_lt] at hlow hhigh
      exact ⟨hlow, hhigh⟩

end NagiosPlugins
