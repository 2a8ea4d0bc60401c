import NagiosPlugins.Cpudesc.Read
import NagiosPlugins.Cpufreq.Rounding
import NagiosPlugins.Cpufreq.Sysfs
import NagiosPlugins.Libc.Binary32
import NagiosPlugins.Network.Status
import NagiosPlugins.Perfdata.Representable

/-!
# The frequency plugin

`main` of `plugins/check_cpufreq.c`. The frequencies are read once for the status and once more for
the performance data.
-/

namespace NagiosPlugins

open Libc

/-! ### The plugin -/

/-- What the options `-H`, `-K`, `-M` and `-G` set. -/
inductive FreqUnit where
  | hz
  | khz
  | mhz
  | ghz
  deriving DecidableEq, Repr

/-- `factor`, a `float` that is computed from a `double`. -/
def FreqUnit.factor : FreqUnit → ℚ
  | .hz => 1000
  | .khz => 1
  | .mhz => Single.toPlace (Double.toPlace (1 / 1000))
  | .ghz => Single.toPlace (Double.toPlace (1 / 1000000))

/-- `unit_convert`: the product is one of `float`. -/
def freqUnitConvert (val : UInt64) (unit : FreqUnit) : Except Stop UInt64 :=
  let product := Single.toPlace (Single.toPlace val.toNat * unit.factor)
  if product < 2 ^ 64 then .ok (UInt64.ofNat ⌊product⌋₊) else .error .undefined

/-- The options of the command line. -/
structure CpufreqOptions where
  cpuModel : Bool
  unit : FreqUnit
  warning : Option CString
  critical : Option CString

/-- `cpu%d_freq=%llu;;;%llu;%llu`. -/
structure FreqEntry where
  cpu : ℕ
  freq : UInt64
  min : UInt64
  max : UInt64
  deriving DecidableEq, Repr

/-- What the plugin reports; the model is printed unless that is not wanted. -/
structure CpufreqReport where
  model : Option (Option CString)
  status : Nagstatus
  entries : List FreqEntry
  deriving DecidableEq, Repr

section Loops

variable (sysfs : Sysfs)

/-- The body of the loop that finds the status. -/
def freqStatusStep (threshold : Thresholds) (status : Nagstatus) (c : ℕ) :
    Except Stop Nagstatus := do
  let freqKernel ← cpufreqGetFreqKernel sysfs (UInt32.ofNat c)
  if freqKernel > 0 then
    let currstatus := getStatus (.ofUInt64 freqKernel) threshold
    return if currstatus > status then currstatus else status
  else return status

/-- The body of the loop that prints the performance data. -/
def freqEntryStep (unit : FreqUnit) (entries : List FreqEntry) (c : ℕ) :
    Except Stop (List FreqEntry) := do
  match ← cpufreqGetHardwareLimits sysfs (UInt32.ofNat c) with
  | none => return entries
  | some (freqMin, freqMax) =>
    let freqKernel ← cpufreqGetFreqKernel sysfs (UInt32.ofNat c)
    if freqKernel = 0 then return entries
    else
      let freq ← freqUnitConvert freqKernel unit
      let min ← freqUnitConvert freqMin unit
      let max ← freqUnitConvert freqMax unit
      return entries ++ [⟨c, freq, min, max⟩]

end Loops

/-- `main`, where the first loop finds `sysfs` and the second one `sysfs'`; there is no report if
the usage is printed instead. -/
def checkCpufreq (options : CpufreqOptions) (sysfsMounted : Bool) (files : CpuDescFiles)
    (ncpus : ℕ) (sysfs sysfs' : Sysfs) : Except Stop (Option CpufreqReport) :=
  if !sysfsMounted then
    .error (.pluginError .unknown "The sysfs filesystem (/sys) is not mounted")
  else
    let (status, myThreshold) := setThresholdsRounded none options.warning options.critical
    if status = npRangeUnparseable then .ok none
    else
      match myThreshold with
      | none => .error .undefined
      | some myThreshold => do
        let cpudesc ← cpuDescRead files cpuDescNew
        let status ← (List.range ncpus).foldlM (freqStatusStep sysfs myThreshold) .ok
        let entries ← (List.range ncpus).foldlM (freqEntryStep sysfs' options.unit) []
        let model := if options.cpuModel then some (cpudesc.texts .modelname) else none
        return some ⟨model, status, entries⟩

/-! ### Units -/

/-- The number that stands for so many kilohertz, up to half a unit of the 24th digit for hertz. -/
def FreqUnit.Prints (unit : FreqUnit) (n : ℕ) (printed : UInt64) : Prop :=
  match unit with
  | .hz => |(printed.toNat : ℚ) - 1000 * n| ≤ 1000 * n / 2 ^ 24
  | .khz => printed.toNat = n
  | .mhz => printed.toNat = n / 1000
  | .ghz => printed.toNat = n / 1000000

/-- The factors that are below one: each of them is off by less than a 2 ^ 24th part. -/
lemma factor_eq : FreqUnit.mhz.factor = 8589935 / 8589934592 ∧
    FreqUnit.ghz.factor = 8796093 / 8796093022208 := by
  constructor
  · decide +kernel
  · decide +kernel

/-- A number that differs little from the integer below it and is not close to the one above is
truncated to that after rounding. -/
lemma floor_toPlace {k : ℕ} {q : ℚ} (hq : 2 ^ (-126 : ℤ) ≤ q) (hlt : q < 2 ^ 23)
    (hlow : (k : ℚ) * (1 - 1 / 2 ^ 26) ≤ q) (hhigh : q * (1 + 1 / 2 ^ 24) < k + 1) :
    ⌊Single.toPlace q⌋₊ = k := by
  have hle := Single.natCast_le_toPlace hlow hq hlt
  have habs := (abs_le.1 (Single.abs_toPlace_sub_le hq)).2
  have hnonneg : (0 : ℚ) ≤ k := Nat.cast_nonneg _
  rw [Nat.floor_eq_iff (hnonneg.trans hle)]
  exact ⟨hle, by linarith⟩

/-- The integer part of a quotient. -/
lemma natCast_div_bounds (n : ℕ) {d : ℕ} (hd : 0 < d) :
    (d : ℚ) * (n / d : ℕ) ≤ n ∧ (n : ℚ) + 1 ≤ d * (n / d : ℕ) + d := by
  have hlow := Nat.mul_div_le n d
  have hhigh := Nat.lt_mul_div_succ n hd
  constructor
  · exact_mod_cast hlow
  · have hle : n + 1 ≤ d * (n / d) + d := hhigh
    exact_mod_cast hle

/-- A frequency below 8 GHz is converted. -/
lemma freqUnitConvert_eq (unit : FreqUnit) {n : ℕ} (hn : n < 2 ^ 23) :
    ∃ printed, freqUnitConvert (UInt64.ofNat n) unit = .ok printed ∧ unit.Prints n printed := by
  have hval : (UInt64.ofNat n).toNat = n := UInt64.toNat_ofNat_of_lt' (hn.trans (by decide))
  have hfloat : Single.toPlace (n : ℚ) = n := Single.toPlace_natCast (by omega)
  have hconvert : freqUnitConvert (UInt64.ofNat n) unit
      = if Single.toPlace (n * unit.factor) < 2 ^ 64 then
          .ok (UInt64.ofNat ⌊Single.toPlace (n * unit.factor)⌋₊) else .error .undefined := by
    rw [freqUnitConvert, hval, hfloat]
  rcases Nat.eq_zero_or_pos n with rfl | hpos
  · refine ⟨0, ?_, ?_⟩
    · rw [hconvert]
      simp
    · cases unit <;> simp [FreqUnit.Prints]
  have hone : (1 : ℚ) ≤ n := by exact_mod_cast hpos
  have hlt : (n : ℚ) < 2 ^ 23 := by exact_mod_cast hn
  -- what is printed where the product does not exceed 2 ^ 63
  have hprinted : ∀ k : ℕ, ⌊Single.toPlace (n * unit.factor)⌋₊ = k → k < 2 ^ 63 →
      freqUnitConvert (UInt64.ofNat n) unit = .ok (UInt64.ofNat k) ∧
        (UInt64.ofNat k).toNat = k := by
    intro k hk hlt
    have hbelow : Single.toPlace (n * unit.factor) < 2 ^ 64 := by
      have hfloor := Nat.lt_floor_add_one (Single.toPlace (n * unit.factor))
      have hk' : ((k : ℕ) : ℚ) < 2 ^ 63 := by exact_mod_cast hlt
      rw [hk] at hfloor
      linarith
    rw [hconvert, if_pos hbelow, hk]
    exact ⟨rfl, UInt64.toNat_ofNat_of_lt' (hlt.trans (by decide))⟩
  cases unit with
  | hz =>
    obtain ⟨m, hm⟩ := Single.exists_toPlace_natCast (1000 * n)
    have hproduct : (n : ℚ) * FreqUnit.hz.factor = (1000 * n : ℕ) := by
      rw [FreqUnit.factor]
      push_cast
      ring
    have hnormal : (2 : ℚ) ^ (-126 : ℤ) ≤ (1000 * n : ℕ) := by
      push_cast
      exact le_trans (by norm_num) (mul_le_mul_of_nonneg_left hone (by norm_num))
    have habs := Single.abs_toPlace_sub_le hnormal
    rw [hm] at habs
    push_cast at habs
    have hbound : (m : ℚ) < 2 ^ 63 := by
      have hhigh := (abs_le.1 habs).2
      linarith
    obtain ⟨hok, hvalue⟩ := hprinted m (by rw [hproduct, hm, Nat.floor_natCast])
      (by exact_mod_cast hbound)
    refine ⟨_, hok, ?_⟩
    rw [FreqUnit.Prints, hvalue]
    exact habs
  | khz =>
    obtain ⟨hok, hvalue⟩ := hprinted n (by simp [FreqUnit.factor, hfloat]) (by omega)
    exact ⟨_, hok, hvalue⟩
  | mhz =>
    obtain ⟨hlow, hhigh⟩ := natCast_div_bounds n (d := 1000) (by decide)
    have hfloor : ⌊Single.toPlace (n * FreqUnit.mhz.factor)⌋₊ = n / 1000 := by
      rw [factor_eq.1]
      push_cast at hlow hhigh
      apply floor_toPlace
      · exact le_trans (by norm_num) (mul_le_mul_of_nonneg_right hone (by norm_num))
      · linarith
      · linarith
      · linarith
    obtain ⟨hok, hvalue⟩ := hprinted _ hfloor (by omega)
    exact ⟨_, hok, hvalue⟩
  | ghz =>
    obtain ⟨hlow, hhigh⟩ := natCast_div_bounds n (d := 1000000) (by decide)
    have hfloor : ⌊Single.toPlace (n * FreqUnit.ghz.factor)⌋₊ = n / 1000000 := by
      rw [factor_eq.2]
      push_cast at hlow hhigh
      apply floor_toPlace
      · exact le_trans (by norm_num) (mul_le_mul_of_nonneg_right hone (by norm_num))
      · linarith
      · linarith
      · linarith
    obtain ⟨hok, hvalue⟩ := hprinted _ hfloor (by omega)
    exact ⟨_, hok, hvalue⟩

/-! ### What is reported -/

/-- What the attributes of the CPUs stand for, while the status is found and while the performance
data is printed. -/
structure Frequencies where
  atStatus : ℕ → ℕ
  min : ℕ → ℕ
  max : ℕ → ℕ
  current : ℕ → ℕ

section Report

variable {sysfs sysfs' : Sysfs} {ncpus : ℕ} {freqs : Frequencies}

/-- The two loops find these frequencies. -/
structure Frequencies.ShownIn (freqs : Frequencies) (sysfs sysfs' : Sysfs) (ncpus : ℕ) : Prop where
  atStatus : ∀ c < ncpus, ShowsNumber sysfs (UInt32.ofNat c) .scalingCurFreq (freqs.atStatus c)
  min : ∀ c < ncpus, ShowsNumber sysfs' (UInt32.ofNat c) .cpuinfoMinFreq (freqs.min c)
  max : ∀ c < ncpus, ShowsNumber sysfs' (UInt32.ofNat c) .cpuinfoMaxFreq (freqs.max c)
  current : ∀ c < ncpus, ShowsNumber sysfs' (UInt32.ofNat c) .scalingCurFreq (freqs.current c)

/-- The CPUs that are printed. -/
def Frequencies.known (freqs : Frequencies) (ncpus : ℕ) : List ℕ :=
  (List.range ncpus).filter fun c => freqs.min c ≠ 0 ∧ freqs.max c ≠ 0 ∧ freqs.current c ≠ 0

/-- An entry has the frequencies of its CPU. -/
def FreqEntry.Prints (freqs : Frequencies) (unit : FreqUnit) (entry : FreqEntry) (c : ℕ) : Prop :=
  entry.cpu = c ∧ unit.Prints (freqs.current c) entry.freq ∧ unit.Prints (freqs.min c) entry.min ∧
    unit.Prints (freqs.max c) entry.max

lemma ofNat_eq_zero_iff {n : ℕ} (hn : n < 2 ^ 64) : UInt64.ofNat n = 0 ↔ n = 0 := by
  rw [← UInt64.toNat_inj, UInt64.toNat_ofNat_of_lt' hn, UInt64.toNat_zero]

/-- The worst status, by induction on the CPUs that are left. -/
lemma foldlM_freqStatusStep (threshold : Thresholds) {cs : List ℕ}
    (h : ∀ c ∈ cs, ShowsNumber sysfs (UInt32.ofNat c) .scalingCurFreq (freqs.atStatus c))
    (status : Nagstatus) :
    cs.foldlM (freqStatusStep sysfs threshold) status
      = .ok (((cs.filter fun c => freqs.atStatus c ≠ 0).map fun c =>
          getStatus (.ofUInt64 (UInt64.ofNat (freqs.atStatus c))) threshold).foldl max status) := by
  induction cs generalizing status with
  | nil => rfl
  | cons c cs ih =>
    rw [List.forall_mem_cons] at h
    obtain ⟨hvalue, hlt⟩ := h.1.getValue
    have hpos : UInt64.ofNat (freqs.atStatus c) > 0 ↔ freqs.atStatus c ≠ 0 := by
      rw [gt_iff_lt, UInt64.lt_iff_toNat_lt, UInt64.toNat_ofNat_of_lt' hlt]
      exact Nat.pos_iff_ne_zero
    rw [List.foldlM_cons, freqStatusStep, cpufreqGetFreqKernel, hvalue, Except.ok_bind]
    by_cases hzero : freqs.atStatus c ≠ 0
    · rw [if_pos (hpos.2 hzero), List.filter_cons_of_pos (by simpa using hzero), List.map_cons,
        List.foldl_cons, ← ih h.2, max_def_lt]
      rfl
    · rw [if_neg (mt hpos.1 hzero), List.filter_cons_of_neg (by simpa using hzero), ← ih h.2]
      rfl

lemma cpufreqGetHardwareLimits_eq {cpu : UInt32} {min max : UInt64}
    (hmin : sysfsparserCpufreqGetValue sysfs cpu .cpuinfoMinFreq = .ok min)
    (hmax : sysfsparserCpufreqGetValue sysfs cpu .cpuinfoMaxFreq = .ok max) :
    cpufreqGetHardwareLimits sysfs cpu = .ok (if min ≠ 0 ∧ max ≠ 0 then some (min, max) else none)
    := by
  rw [cpufreqGetHardwareLimits, hmin, Except.ok_bind]
  by_cases hmin0 : min = 0
  · rw [if_pos hmin0, if_neg (fun h => h.1 hmin0)]
    rfl
  · rw [if_neg hmin0, hmax, Except.ok_bind]
    by_cases hmax0 : max = 0
    · rw [if_pos hmax0, if_neg (fun h => h.2 hmax0)]
      rfl
    · rw [if_neg hmax0, if_pos ⟨hmin0, hmax0⟩]
      rfl

/-- The entries, by induction on the CPUs that are left. -/
lemma foldlM_freqEntryStep {cs : List ℕ} (unit : FreqUnit)
    (hshown : ∀ c ∈ cs, ShowsNumber sysfs' (UInt32.ofNat c) .cpuinfoMinFreq (freqs.min c) ∧
      ShowsNumber sysfs' (UInt32.ofNat c) .cpuinfoMaxFreq (freqs.max c) ∧
      ShowsNumber sysfs' (UInt32.ofNat c) .scalingCurFreq (freqs.current c))
    (hlt : ∀ c ∈ cs, freqs.min c < 2 ^ 23 ∧ freqs.max c < 2 ^ 23 ∧ freqs.current c < 2 ^ 23)
    (entries : List FreqEntry) :
    ∃ printed, cs.foldlM (freqEntryStep sysfs' unit) entries = .ok (entries ++ printed) ∧
      List.Forall₂ (FreqEntry.Prints freqs unit) printed
        (cs.filter fun c => freqs.min c ≠ 0 ∧ freqs.max c ≠ 0 ∧ freqs.current c ≠ 0) := by
  induction cs generalizing entries with
  | nil => exact ⟨[], by rw [List.append_nil]; rfl, .nil⟩
  | cons c cs ih =>
    rw [List.forall_mem_cons] at hshown hlt
    obtain ⟨⟨hmin, hmax, hcurrent⟩, hshown⟩ := hshown
    obtain ⟨⟨hmin', hmax', hcurrent'⟩, hlt⟩ := hlt
    obtain ⟨hmin, hminlt⟩ := hmin.getValue
    obtain ⟨hmax, hmaxlt⟩ := hmax.getValue
    obtain ⟨hcurrent, hcurrentlt⟩ := hcurrent.getValue
    have hlimits := cpufreqGetHardwareLimits_eq hmin hmax
    simp only [ne_eq, ofNat_eq_zero_iff hminlt, ofNat_eq_zero_iff hmaxlt] at hlimits
    by_cases hknown : freqs.min c ≠ 0 ∧ freqs.max c ≠ 0 ∧ freqs.current c ≠ 0
    · obtain ⟨hmin0, hmax0, hcurrent0⟩ := hknown
      obtain ⟨min, hmin, hprintsMin⟩ := freqUnitConvert_eq unit hmin'
      obtain ⟨max, hmax, hprintsMax⟩ := freqUnitConvert_eq unit hmax'
      obtain ⟨freq, hfreq, hprints⟩ := freqUnitConvert_eq unit hcurrent'
      have hstep : freqEntryStep sysfs' unit entries c
          = .ok (entries ++ [⟨c, freq, min, max⟩]) := by
        rw [freqEntryStep, hlimits, if_pos ⟨hmin0, hmax0⟩, Except.ok_bind]
        simp only [cpufreqGetFreqKernel, hcurrent, Except.ok_bind, ofNat_eq_zero_iff hcurrentlt,
          hcurrent0, if_false, hfreq, hmin, hmax]
        rfl
      obtain ⟨printed, hloop, hprinted⟩ := ih hshown hlt (entries ++ [⟨c, freq, min, max⟩])
      refine ⟨⟨c, freq, min, max⟩ :: printed, ?_, ?_⟩
      · rw [List.foldlM_cons, hstep, Except.ok_bind, hloop, List.append_assoc]
        rfl
      · rw [List.filter_cons_of_pos (by simp [hmin0, hmax0, hcurrent0])]
        exact .cons ⟨rfl, hprints, hprintsMin, hprintsMax⟩ hprinted
    · have hstep : freqEntryStep sysfs' unit entries c = .ok entries := by
        rw [freqEntryStep, hlimits, Except.ok_bind]
        by_cases hboth : freqs.min c ≠ 0 ∧ freqs.max c ≠ 0
        · have hcurrent0 : freqs.current c = 0 := by
            by_contra h
            exact hknown ⟨hboth.1, hboth.2, h⟩
          rw [if_pos hboth]
          simp only [cpufreqGetFreqKernel, hcurrent, Except.ok_bind, hcurrent0]
          rfl
        · rw [if_neg hboth]
          rfl
      obtain ⟨printed, hloop, hprinted⟩ := ih hshown hlt entries
      refine ⟨printed, ?_, ?_⟩
      · rw [List.foldlM_cons, hstep, Except.ok_bind, hloop]
      · rwa [List.filter_cons_of_neg (by simpa using hknown)]

/-- The status is the worst one over the CPUs whose frequency is known, and the CPUs with limits and
a frequency are printed in their order, in the unit that is asked for. -/
theorem checkCpufreq_frequencies {options : CpufreqOptions} {files : CpuDescFiles}
    {cpudesc : CpuDesc} {status : ℕ} {threshold : Thresholds}
    (hcpudesc : cpuDescRead files cpuDescNew = .ok cpudesc)
    (hthreshold : setThresholdsRounded none options.warning options.critical
      = (status, some threshold)) (hstatus : status ≠ npRangeUnparseable)
    (hshown : freqs.ShownIn sysfs sysfs' ncpus)
    (hlt : ∀ c < ncpus, freqs.min c < 2 ^ 23 ∧ freqs.max c < 2 ^ 23 ∧ freqs.current c < 2 ^ 23) :
    ∃ report, checkCpufreq options true files ncpus sysfs sysfs' = .ok (some report) ∧
      report.model = (if options.cpuModel then some (cpudesc.texts .modelname) else none) ∧
      report.status = (((List.range ncpus).filter fun c => freqs.atStatus c ≠ 0).map fun c =>
        getStatus (.ofUInt64 (UInt64.ofNat (freqs.atStatus c))) threshold).foldl max .ok ∧
      List.Forall₂ (FreqEntry.Prints freqs options.unit) report.entries (freqs.known ncpus) := by
  have hloop := foldlM_freqStatusStep threshold
    (fun c hc => hshown.atStatus c (List.mem_range.1 hc)) .ok
  obtain ⟨entries, hentries, hprints⟩ := foldlM_freqEntryStep options.unit
    (fun c hc => ⟨hshown.min c (List.mem_range.1 hc), hshown.max c (List.mem_range.1 hc),
      hshown.current c (List.mem_range.1 hc)⟩)
    (fun c hc => hlt c (List.mem_range.1 hc)) []
  rw [checkCpufreq, hthreshold]
  simp only [Bool.not_true, Bool.false_eq_true, if_false, hstatus, hcpudesc, Except.ok_bind, hloop,
    hentries]
  exact ⟨_, rfl, rfl, rfl, hprints⟩

/-- The attributes of one CPU. -/
def cpu0Sysfs : Sysfs where
  file path :=
    if path = cpufreqPath 0 (ascii "cpuinfo_min_freq") then some (ascii "800000\n")
    else if path = cpufreqPath 0 (ascii "cpuinfo_max_freq") then some (ascii "4700000\n")
    else if path = cpufreqPath 0 (ascii "scaling_cur_freq") then some (ascii "3400999\n")
    else none
  thermalSupport := false
  thermalEntries := none

def cpu0Frequencies : Frequencies where
  atStatus c := if c = 0 then 3400999 else 0
  min c := if c = 0 then 800000 else 0
  max c := if c = 0 then 4700000 else 0
  current c := if c = 0 then 3400999 else 0

lemma cpu0Frequencies_shownIn : cpu0Frequencies.ShownIn cpu0Sysfs cpu0Sysfs 2 where
  atStatus c hc := by
    interval_cases c
    · exact .number 3400999 (by decide) (by decide +kernel)
    · exact .absent (by decide +kernel)
  min c hc := by
    interval_cases c
    · exact .number 800000 (by decide) (by decide +kernel)
    · exact .absent (by decide +kernel)
  max c hc := by
    interval_cases c
    · exact .number 4700000 (by decide) (by decide +kernel)
    · exact .absent (by decide +kernel)
  current c hc := by
    interval_cases c
    · exact .number 3400999 (by decide) (by decide +kernel)
    · exact .absent (by decide +kernel)

/-- Of two CPUs, one has frequencies. -/
theorem checkCpufreq_frequencies_cpu0 :
    let options : CpufreqOptions := ⟨true, .mhz, none, none⟩
    let files : CpuDescFiles := ⟨some [], some (ascii "x86_64"), mode32bit, 2, 2⟩
    ∃ report, checkCpufreq options true files 2 cpu0Sysfs cpu0Sysfs = .ok (some report) ∧
      report.model = some none ∧ report.status = .ok ∧
      List.Forall₂ (FreqEntry.Prints cpu0Frequencies .mhz) report.entries [0] := by
  intro options files
  have hcpudesc : cpuDescRead files cpuDescNew = .ok _ := rfl
  have hthreshold : setThresholdsRounded none options.warning options.critical = (_, some _) := rfl
  have hlt : ∀ c < 2, cpu0Frequencies.min c < 2 ^ 23 ∧ cpu0Frequencies.max c < 2 ^ 23 ∧
      cpu0Frequencies.current c < 2 ^ 23 := by
    decide
  exact checkCpufreq_frequencies hcpudesc hthreshold (by decide) cpu0Frequencies_shownIn hlt

end Report

end NagiosPlugins
