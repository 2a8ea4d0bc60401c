import NagiosPlugins.Data.Except
import NagiosPlugins.Libc.Printf
import NagiosPlugins.Sysfs.Basic

/-!
# Files of a single line

What is read from a file that holds one line, and one number.
-/

namespace NagiosPlugins

open Libc

variable {sysfs : Sysfs} {filename line : CString}

/-- The line of a file that has no other. -/
lemma sysfsparserGetline_eq (hfile : sysfs.file filename = some (line ++ [('\n' : UInt8)]))
    (hline : ∀ c ∈ line, c ≠ '\n' ∧ c ≠ 0) :
    sysfsparserGetline sysfs filename = .ok (some line) := by
  have hsingle : ∀ l ∈ [line], ∀ c ∈ l, c ≠ '\n' ∧ c ≠ 0 := by
    intro l hl
    rw [List.mem_singleton.1 hl]
    exact hline
  have hlines : getlines (line ++ [('\n' : UInt8)]) = [line ++ [('\n' : UInt8)]] := by
    simpa using getlines_flatMap hsingle
  rw [sysfsparserGetline, hfile]
  simp only [hlines, List.getLast?_concat, if_true, List.dropLast_concat]

/-- A line that is a number as a whole. -/
lemma sysfsparserGetvalue_eq {n : UInt64}
    (hline : sysfsparserGetline sysfs filename = .ok (some line))
    (hnumber : strtoull line = ⟨n, [], false⟩) (hne : line ≠ []) (value : UInt64) :
    sysfsparserGetvalue sysfs value filename = .ok (0, n) := by
  rw [sysfsparserGetvalue, hline, Except.ok_bind]
  simp only [hnumber, Ne.symm hne, Bool.false_eq_true, or_self, if_false]
  rfl

/-- A file that holds a number gives it modulo 2 ^ 64. -/
lemma sysfsparserGetvalue_signedDecimal {i : ℤ} (hi : i.natAbs < 2 ^ 64)
    (hfile : sysfs.file filename = some (signedDecimal i ++ [('\n' : UInt8)])) (value : UInt64) :
    sysfsparserGetvalue sysfs value filename = .ok (0, toUnsigned i) :=
  sysfsparserGetvalue_eq (sysfsparserGetline_eq hfile mem_signedDecimal)
    (strtoull_signedDecimal hi) (signedDecimal_ne_nil i) value

end NagiosPlugins
