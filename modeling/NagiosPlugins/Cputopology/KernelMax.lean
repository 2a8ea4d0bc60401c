import NagiosPlugins.Sysfs.FirstLine

/-!
# The greatest number of a CPU

`get_processor_number_kernel_max` of `lib/cputopology.c`, which does not look at what
`sysfsparser_getvalue` returns.
-/

namespace NagiosPlugins

open Libc

variable {sysfs : Sysfs} {filename : CString}

/-- `get_processor_number_kernel_max`; `value` is what the variable holds before it is set. -/
def getProcessorNumberKernelMax (sysfs : Sysfs) (value : UInt64) : Except Stop ℤ := do
  let (_, value) ← sysfsparserGetvalue sysfs value (ascii pathSysCpu ++ ascii "/kernel_max")
  return toInt (value + 1)

/-- There is something to read in a file. -/
def Sysfs.HasContent (sysfs : Sysfs) (filename : CString) : Prop :=
  ∃ c content, sysfs.file filename = some (c :: content)

/-- Without anything to read, the variable keeps its value. -/
lemma sysfsparserGetvalue_of_not (h : ¬ sysfs.HasContent filename) (value : UInt64) :
    sysfsparserGetvalue sysfs value filename = .ok (-1, value) := by
  rw [sysfsparserGetvalue, sysfsparserGetline]
  cases hfile : sysfs.file filename with
  | none => rfl
  | some content =>
    cases content with
    | nil => rfl
    | cons c content => exact absurd ⟨c, content, hfile⟩ h

/-- Otherwise the variable is set, also where the line is no number. -/
lemma sysfsparserGetvalue_congr (h : sysfs.HasContent filename) (value value' : UInt64) :
    sysfsparserGetvalue sysfs value filename = sysfsparserGetvalue sysfs value' filename := by
  obtain ⟨c, content, hfile⟩ := h
  simp only [sysfsparserGetvalue, sysfsparserGetline_content hfile, List.head?_cons]
  split_ifs <;> rfl

/-- What is returned does not depend on the variable if and only if there is something to read. -/
lemma getProcessorNumberKernelMax_congr_iff :
    (∀ value value', getProcessorNumberKernelMax sysfs value
        = getProcessorNumberKernelMax sysfs value') ↔
      sysfs.HasContent (ascii pathSysCpu ++ ascii "/kernel_max") := by
  constructor
  · intro h
    by_contra hnot
    have hzero := h 0 1
    simp only [getProcessorNumberKernelMax, sysfsparserGetvalue_of_not hnot] at hzero
    exact absurd (Except.ok.inj hzero) (by decide)
  · intro h value value'
    rw [getProcessorNumberKernelMax, getProcessorNumberKernelMax,
      sysfsparserGetvalue_congr h value value']

end NagiosPlugins
