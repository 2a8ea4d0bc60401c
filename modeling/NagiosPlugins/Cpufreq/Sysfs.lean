import NagiosPlugins.Cpufreq.Rounding
import NagiosPlugins.Libc.Tokens
import NagiosPlugins.Sysfs.FirstLine
import NagiosPlugins.Sysfs.Lines

/-!
# Frequencies in sysfs

The numeric attributes of a CPU in `lib/sysfsparser.c`, and the list of its frequencies in
`lib/cpufreq.c`.
-/

namespace NagiosPlugins

open Libc

/-! ### Numbers -/

/-- `enum sysfsparser_cpufreq_sysfile_numeric_id`. -/
inductive CpufreqNumericId where
  | cpuinfoCurFreq
  | cpuinfoMinFreq
  | cpuinfoMaxFreq
  | cpuinfoLatency
  | scalingCurFreq
  | scalingMinFreq
  | scalingMaxFreq
  deriving DecidableEq, Repr

/-- `sysfsparser_devices_system_cpu_file_numeric`. -/
def sysfsparserDevicesSystemCpuFileNumeric : CpufreqNumericId → CString
  | .cpuinfoCurFreq => ascii "cpuinfo_cur_freq"
  | .cpuinfoMinFreq => ascii "cpuinfo_min_freq"
  | .cpuinfoMaxFreq => ascii "cpuinfo_max_freq"
  | .cpuinfoLatency => ascii "cpuinfo_transition_latency"
  | .scalingCurFreq => ascii "scaling_cur_freq"
  | .scalingMinFreq => ascii "scaling_min_freq"
  | .scalingMaxFreq => ascii "scaling_max_freq"

/-- `strtoul` sets `errno` to `ERANGE`. -/
def strtoulOverflows (nptr : CString) : Bool :=
  2 ^ 64 ≤ natOfDigits 10 ((scanSign (nptr.dropWhile isspace)).2.takeWhile isdigit)

section Read

variable (sysfs : Sysfs) (cpu : UInt32)

/-- `sysfsparser_cpufreq_get_value`. -/
def sysfsparserCpufreqGetValue (which : CpufreqNumericId) : Except Stop UInt64 := do
  match ← sysfsparserGetline sysfs
      (cpufreqPath cpu (sysfsparserDevicesSystemCpuFileNumeric which)) with
  | none => return 0
  | some line =>
    let (value, endptr) := strtoulEnd line
    if endptr = line ∨ strtoulOverflows line then return 0 else return value

/-- `sysfsparser_cpufreq_get_freq_kernel`, which is `cpufreq_get_freq_kernel`. -/
def cpufreqGetFreqKernel : Except Stop UInt64 :=
  sysfsparserCpufreqGetValue sysfs cpu .scalingCurFreq

/-- `sysfsparser_cpufreq_get_hardware_limits`, which is `cpufreq_get_hardware_limits`: `*min` and
`*max`, unless it returns `-ENODEV`. -/
def cpufreqGetHardwareLimits : Except Stop (Option (UInt64 × UInt64)) := do
  let min ← sysfsparserCpufreqGetValue sysfs cpu .cpuinfoMinFreq
  if min = 0 then return none
  let max ← sysfsparserCpufreqGetValue sysfs cpu .cpuinfoMaxFreq
  if max = 0 then return none
  return some (min, max)

/-! ### The list of frequencies -/

/-- The loop of `cpufreq_get_available_freqs`: the values of the list that it appends. A call of
`strtok_r` shortens the string, so that its length is enough fuel. -/
def availableFreqsLoop : ℕ → CString → List UInt64
  | 0, _ => []
  | fuel + 1, str =>
    match strtok ' ' str with
    | none => []
    | some (token, saveptr) => strtoul token :: availableFreqsLoop fuel saveptr

/-- `SCALING_AVAILABLE_FREQS`. -/
def scalingAvailableFreqs : ℕ := 3

/-- `cpufreq_get_available_freqs`; the empty list is NULL. -/
def cpufreqGetAvailableFreqs : Except Stop (List UInt64) := do
  match ← sysfsparserCpufreqGetString sysfs cpu scalingAvailableFreqs with
  | none => return []
  | some freqs => return availableFreqsLoop freqs.length freqs

end Read

lemma availableFreqsLoop_eq {fuel : ℕ} {str : CString} (hfuel : str.length ≤ fuel) :
    availableFreqsLoop fuel str = (tokens ' ' str).map strtoul := by
  induction fuel generalizing str with
  | zero =>
    rw [List.length_eq_zero_iff.1 (Nat.le_zero.1 hfuel)]
    rfl
  | succ fuel ih =>
    rw [availableFreqsLoop]
    cases hstrtok : strtok ' ' str with
    | none => simp [tokens_of_strtok_eq_none hstrtok]
    | some found =>
      obtain ⟨token, saveptr⟩ := found
      obtain ⟨htokens, hlt⟩ := tokens_of_strtok_eq_some hstrtok
      simp only
      rw [ih (by omega), htokens, List.map_cons]

/-! ### What the kernel shows -/

/-- A number as a whole is read to its end. -/
lemma strtoulEnd_decimal {n : ℕ} (hlt : n < 2 ^ 64) :
    strtoulEnd (decimal n) = (UInt64.ofNat n, []) ∧ strtoulOverflows (decimal n) = false := by
  have hdigits := isdigit_of_mem_decimal n
  have hvalue : natOfDigits 10 (decimal n) < 2 ^ 64 := by rwa [natOfDigits_decimal]
  have hend := @strtoulEnd_digits [] (decimal n) [] (by simp) hdigits (decimal_ne_nil n) (by simp)
    hvalue
  constructor
  · simpa using hend
  · rw [strtoulOverflows, scanSign_decimal, List.takeWhile_eq_self_iff.2 hdigits,
      natOfDigits_decimal]
    simpa using hlt

/-- The attribute stands for this number: a file with the number, or nothing that can be read as
one, which stands for 0. -/
inductive ShowsNumber (sysfs : Sysfs) (cpu : UInt32) (which : CpufreqNumericId) : ℕ → Prop
  | absent
    (h : sysfs.file (cpufreqPath cpu (sysfsparserDevicesSystemCpuFileNumeric which)) = none) :
    ShowsNumber sysfs cpu which 0
  | number (n : ℕ) (hlt : n < 2 ^ 64)
    (h : sysfs.file (cpufreqPath cpu (sysfsparserDevicesSystemCpuFileNumeric which))
      = some (decimal n ++ [('\n' : UInt8)])) :
    ShowsNumber sysfs cpu which n
  | word (text : CString) (htext : ∀ c ∈ text, c ≠ '\n' ∧ c ≠ 0) (hscan : scanUnsigned text = none)
    (h : sysfs.file (cpufreqPath cpu (sysfsparserDevicesSystemCpuFileNumeric which))
      = some (text ++ [('\n' : UInt8)])) :
    ShowsNumber sysfs cpu which 0

lemma ShowsNumber.getValue {sysfs : Sysfs} {cpu : UInt32} {which : CpufreqNumericId} {n : ℕ}
    (h : ShowsNumber sysfs cpu which n) :
    sysfsparserCpufreqGetValue sysfs cpu which = .ok (UInt64.ofNat n) ∧ n < 2 ^ 64 := by
  cases h with
  | absent h =>
    refine ⟨?_, by decide⟩
    rw [sysfsparserCpufreqGetValue, sysfsparserGetline, h]
    rfl
  | number n hlt h =>
    refine ⟨?_, hlt⟩
    obtain ⟨hend, hoverflows⟩ := strtoulEnd_decimal hlt
    rw [sysfsparserCpufreqGetValue, sysfsparserGetline_eq h (mem_decimal n), Except.ok_bind]
    simp only [hend, hoverflows, Ne.symm (decimal_ne_nil n), Bool.false_eq_true, or_self, if_false]
    rfl
  | word text htext hscan h =>
    refine ⟨?_, by decide⟩
    have hend : strtoulEnd text = (0, text) := by rw [strtoulEnd, hscan]; rfl
    rw [sysfsparserCpufreqGetValue, sysfsparserGetline_eq h htext, Except.ok_bind]
    simp only [hend, true_or, if_true]
    rfl

/-- `%u ` for each frequency. -/
def frequenciesText (freqs : List ℕ) : CString :=
  freqs.flatMap fun n => decimal n ++ [(' ' : UInt8)]

lemma tokens_frequenciesText (freqs : List ℕ) :
    tokens ' ' (frequenciesText freqs) = freqs.map decimal := by
  induction freqs with
  | nil => rfl
  | cons n freqs ih =>
    have hdelim : (' ' : UInt8) ∉ decimal n := fun h =>
      absurd (isdigit_of_mem_decimal n _ h) (by decide)
    have htext : frequenciesText (n :: freqs)
        = decimal n ++ (' ' : UInt8) :: frequenciesText freqs := by
      rw [frequenciesText, List.flatMap_cons, List.append_assoc]
      rfl
    rw [htext, tokens_append_cons, tokens_of_notMem (decimal_ne_nil n) hdelim, ih]
    rfl

/-- The list has the frequencies in the order in which they are shown. -/
lemma cpufreqGetAvailableFreqs_eq {sysfs : Sysfs} {cpu : UInt32} {freqs : List ℕ}
    (hne : freqs ≠ []) (hlt : ∀ n ∈ freqs, n < 2 ^ 64)
    (hfile : sysfs.file (cpufreqPath cpu (ascii "scaling_available_frequencies"))
      = some (frequenciesText freqs ++ [('\n' : UInt8)])) :
    cpufreqGetAvailableFreqs sysfs cpu = .ok (freqs.map UInt64.ofNat) := by
  have htext : ∀ c ∈ frequenciesText freqs, c ≠ '\n' ∧ c ≠ 0 := by
    intro c hc
    obtain ⟨n, -, hn⟩ := List.mem_flatMap.1 hc
    rcases List.mem_append.1 hn with hn | hn
    · exact mem_decimal n c hn
    · rw [List.mem_singleton.1 hn]
      decide
  have hline : sysfsparserCpufreqGetString sysfs cpu scalingAvailableFreqs
      = .ok (some (frequenciesText freqs)) := by
    obtain ⟨n, freqs, rfl⟩ := List.exists_cons_of_ne_nil hne
    have hne' : frequenciesText (n :: freqs) ≠ [] := by simp [frequenciesText]
    have hlast := (htext _ (List.getLast_mem hne')).1
    have hname : sysfsparserDevicesSystemCpuFileString[scalingAvailableFreqs]?
        = some (ascii "scaling_available_frequencies") := rfl
    rw [sysfsparserCpufreqGetString, hname]
    simp only [sysfsparserGetline_eq hfile htext, Except.ok_bind,
      List.getLast?_eq_some_getLast hne', if_neg hlast]
    rfl
  have hvalue : ∀ n ∈ freqs, strtoul (decimal n) = UInt64.ofNat n := by
    intro n hn
    have hfst : strtoul (decimal n) = (strtoulEnd (decimal n)).1 := by
      rw [strtoul, strtoulEnd]
      cases scanUnsigned (decimal n) <;> rfl
    rw [hfst, (strtoulEnd_decimal (hlt n hn)).1]
  rw [cpufreqGetAvailableFreqs, hline, Except.ok_bind]
  simp only [availableFreqsLoop_eq le_rfl, tokens_frequenciesText, List.map_map]
  exact congrArg Except.ok (List.map_congr_left hvalue)

/-- The text that is printed for a frequency denotes it up to half a unit of the last digit. -/
def DenotesNear (n : ℕ) (freq : UInt64) : Prop :=
  ∃ p, freqUnits.read (cpufreqFreqToString freq) = some p ∧ |p.value - n| ≤ p.lastDigit / 2

/-- Of the frequencies that the kernel shows each one is printed, in their order, to the nearest
unit of the last digit. -/
theorem cpufreqGetAvailableFreqs_printed {sysfs : Sysfs} {cpu : UInt32} {freqs : List ℕ}
    (hne : freqs ≠ []) (hfits : ∀ n ∈ freqs, FitsUnsigned n)
    (hfile : sysfs.file (cpufreqPath cpu (ascii "scaling_available_frequencies"))
      = some (frequenciesText freqs ++ [('\n' : UInt8)])) :
    ∃ values, cpufreqGetAvailableFreqs sysfs cpu = .ok values ∧
      List.Forall₂ DenotesNear freqs values := by
  have hlt : ∀ n ∈ freqs, n < 2 ^ 64 := by
    intro n hn
    rcases hfits n hn with h | h <;> omega
  refine ⟨_, cpufreqGetAvailableFreqs_eq hne hlt hfile, ?_⟩
  rw [List.forall₂_map_right_iff, List.forall₂_same]
  intro n hn
  have hvalue : (UInt64.ofNat n).toNat = n := UInt64.toNat_ofNat_of_lt' (hlt n hn)
  have hrounded : PrintedRounded freqUnits (roundedToString freqUnits) (UInt64.ofNat n) :=
    (printedRounded_roundedToString freqUnits _).2 (by rw [hvalue]; exact hfits n hn)
  obtain ⟨p, hread, hnear, -⟩ := hrounded
  rw [hvalue] at hnear
  exact ⟨p, hread, hnear⟩

/-- Three frequencies, one of them in tenths of a megahertz. -/
theorem cpufreqGetAvailableFreqs_printed_three :
    let sysfs : Sysfs :=
      { file := fun path =>
          if path = cpufreqPath 1 (ascii "scaling_available_frequencies") then
            some (ascii "3400000 800000 66666 \n")
          else none
        thermalSupport := false
        thermalEntries := none }
    ∃ values, cpufreqGetAvailableFreqs sysfs 1 = .ok values ∧
      List.Forall₂ DenotesNear [3400000, 800000, 66666] values := by
  intro sysfs
  have hfits : ∀ n ∈ [3400000, 800000, 66666], FitsUnsigned n := by
    intro n hn
    left
    revert n
    decide
  exact cpufreqGetAvailableFreqs_printed (by decide) hfits (by decide +kernel)

end NagiosPlugins
