import NagiosPlugins.Cpu.Conservation
import NagiosPlugins.Data.Except

/-!
# The range of the percentages

A percentage leaves the range from 0 to 100 if the sum of the shares wraps around because of it.
Idle is protected by its debt, but `iowait` is not.
-/

namespace NagiosPlugins

open Libc

variable {ncpus : ℕ}

/-- All percentages of a CPU are between 0 and 100. -/
def CpuValues.InRange (v : CpuValues) : Prop := ∀ p ∈ v.percentages, 0 ≤ p ∧ p ≤ 100

namespace CpuShares

variable (d : CpuShares)

def toList : List Jiff := [d.duser, d.dsystem, d.didle, d.diowait, d.dsteal]

/-- The sum of the shares, without wrapping around. -/
def total : ℕ := (d.toList.map UInt64.toNat).sum

/-- No share alone makes the sum wrap around once more. If the sum is 0 after wrapping around,
one tick is counted as idle, and no other share may be larger than that. -/
def WrapsEvenly : Prop :=
  if 2 ^ 64 ∣ d.total then d.duser ≤ 1 ∧ d.dsystem ≤ 1 ∧ d.diowait ≤ 1 ∧ d.dsteal ≤ 1
  else ∀ x ∈ d.toList, (d.total - x.toNat) / 2 ^ 64 = d.total / 2 ^ 64

instance : Decidable d.WrapsEvenly :=
  if h : 2 ^ 64 ∣ d.total then
    decidable_of_iff (d.duser ≤ 1 ∧ d.dsystem ≤ 1 ∧ d.diowait ≤ 1 ∧ d.dsteal ≤ 1)
      (by rw [WrapsEvenly, if_pos h])
  else
    -- by the elements of the list, not by all numbers of 64 bits
    decidable_of_iff (d.toList.all fun x => (d.total - x.toNat) / 2 ^ 64 = d.total / 2 ^ 64)
      (by simp only [WrapsEvenly, if_neg h, List.all_eq_true, decide_eq_true_eq])

lemma total_eq : d.total = d.duser.toNat + d.dsystem.toNat + d.didle.toNat + d.diowait.toNat
    + d.dsteal.toNat := by
  simp only [total, toList, List.map_cons, List.map_nil, List.sum_cons, List.sum_nil]
  omega

lemma toNat_sum : (d.duser + d.dsystem + d.didle + d.diowait + d.dsteal).toNat
    = d.total % 2 ^ 64 := by
  simp only [UInt64.toNat_add, total_eq]
  omega

end CpuShares

/-- A part of a positive whole is a percentage up to 100 if it is not larger than the whole. -/
lemma percent_le_iff {part ratio : Jiff} (h : ratio ≠ 0) :
    percent part ratio ≤ 100 ↔ part ≤ ratio := by
  have hpos : (0 : ℚ) < ratio.toNat := by
    rw [Nat.cast_pos, Nat.pos_iff_ne_zero]
    exact fun hzero => h (UInt64.toNat_inj.1 hzero)
  rw [percent, div_le_iff₀ hpos, mul_le_mul_iff_right₀ (by norm_num), Nat.cast_le,
    UInt64.le_iff_toNat_le]

lemma percent_nonneg (part ratio : Jiff) : 0 ≤ percent part ratio := by
  rw [percent]
  positivity

lemma CpuValues.inRange_iff {v : CpuValues} (h : v.ratio ≠ 0) :
    v.InRange ↔ ∀ x ∈ v.toCpuShares.toList, x ≤ v.ratio := by
  simp only [InRange, percentages, CpuShares.toList, List.forall_mem_map, percent_le_iff h,
    percent_nonneg, true_and]

/-- The percentages are in range exactly if the sum wraps evenly. -/
lemma setRatio_inRange_iff (d : CpuShares) (debt : ℤ) :
    (setRatio d debt).InRange ↔ d.WrapsEvenly := by
  have hsum := d.toNat_sum
  have hle : ∀ x ∈ d.toList, x.toNat ≤ d.total :=
    fun x hx => List.le_sum_of_mem (List.mem_map_of_mem hx)
  simp only [CpuShares.WrapsEvenly, setRatio]
  by_cases hzero : d.duser + d.dsystem + d.didle + d.diowait + d.dsteal = 0
  · have hdvd : 2 ^ 64 ∣ d.total := by
      rw [hzero, UInt64.toNat_zero] at hsum
      exact Nat.dvd_of_mod_eq_zero hsum.symm
    rw [if_pos hzero, if_pos hdvd, CpuValues.inRange_iff (by simp)]
    simp [CpuShares.toList]
  · have hdvd : ¬ 2 ^ 64 ∣ d.total := by
      intro hdvd
      rw [Nat.mod_eq_zero_of_dvd hdvd] at hsum
      exact hzero (UInt64.toNat_inj.1 hsum)
    rw [if_neg hzero, if_neg hdvd, CpuValues.inRange_iff (by simpa using hzero)]
    apply forall₂_congr
    intro x hx
    have hx := hle x hx
    rw [UInt64.le_iff_toNat_le, hsum]
    omega

/-! ### Runs -/

/-- The shares of an interval, with what idle credits. -/
def intervalShares (last cpuv : CpuTime) (debt : ℤ) : CpuShares :=
  { deltaShares last cpuv with didle := idleCredit (cpuv.idle - last.idle) debt }

lemma cpuStep_inRange_iff (last cpuv : CpuTime) (debt : ℤ) :
    (cpuStep last cpuv debt).InRange ↔ (intervalShares last cpuv debt).WrapsEvenly :=
  setRatio_inRange_iff _ _

/-- The shares of the intervals that are printed wrap evenly, and no debt overflows: all of them
if `verbose` is set, else only the last. -/
def RunsEvenly (verbose : Bool) (s : CpuSampling ncpus) : List (CpuSample ncpus) → Prop
  | [] => True
  | sample :: samples =>
    DebtsFit s sample ∧
      (verbose ∨ samples = [] →
        ∀ c, (intervalShares (s.latest c) (sample c) (s.values c).debt).WrapsEvenly) ∧
      RunsEvenly verbose (cpuNext s sample) samples

/-- Everything that is printed, or compared with the thresholds, is in range. -/
def ReportsInRange (verbose : Bool) (slot first : CpuSample ncpus)
    (samples : List (CpuSample ncpus)) : Prop :=
  ∃ reports, cpuReports verbose slot first samples = .ok reports ∧
    ∀ values ∈ reports, ∀ c, (values c).InRange

lemma cpuNext_inRange_iff (s : CpuSampling ncpus) (sample : CpuSample ncpus) :
    (∀ c, ((cpuNext s sample).values c).InRange) ↔
      ∀ c, (intervalShares (s.latest c) (sample c) (s.values c).debt).WrapsEvenly := by
  simp only [cpuNext_values, cpuStep_inRange_iff]

lemma runsEvenly_iff (verbose : Bool) (s : CpuSampling ncpus) {samples : List (CpuSample ncpus)}
    (h : samples ≠ []) :
    RunsEvenly verbose s samples ↔ AllFit s samples ∧
      (verbose → ∀ s' ∈ cpuStates s samples, ∀ c, (s'.values c).InRange) ∧
      ∀ c, (((cpuStates s samples).getLastD s).values c).InRange := by
  induction samples generalizing s with
  | nil => exact absurd rfl h
  | cons sample samples ih =>
    rw [RunsEvenly, AllFit, cpuStates, ← cpuNext_inRange_iff, List.getLastD_cons,
      List.forall_mem_cons]
    cases samples with
    | nil => simp +contextual [RunsEvenly, AllFit, cpuStates]
    | cons sample' samples =>
      have hne : sample' :: samples ≠ [] := List.cons_ne_nil sample' samples
      rw [ih (cpuNext s sample) hne]
      simp only [hne, or_false]
      constructor
      · rintro ⟨hfit, hhead, hfits, htail, hlast⟩
        exact ⟨⟨hfit, hfits⟩, fun hv => ⟨hhead hv, htail hv⟩, hlast⟩
      · rintro ⟨⟨hfit, hfits⟩, hall, hlast⟩
        exact ⟨hfit, fun hv => (hall hv).1, hfits, fun hv => (hall hv).2, hlast⟩

lemma reportsInRange_nil_iff (verbose : Bool) (slot first : CpuSample ncpus) :
    ReportsInRange verbose slot first [] ↔ ∀ c, (bootShares (first c)).WrapsEvenly := by
  simp [ReportsInRange, cpuReports, cpuLoop, cpuStart, setRatio_inRange_iff]

lemma reportsInRange_iff_of_ne_nil (verbose : Bool) (slot first : CpuSample ncpus)
    {samples : List (CpuSample ncpus)} (h : samples ≠ []) :
    ReportsInRange verbose slot first samples ↔
      RunsEvenly verbose (cpuStart slot first) samples := by
  rw [runsEvenly_iff verbose _ h]
  by_cases hfit : AllFit (cpuStart slot first) samples
  · have hreports : cpuReports verbose slot first samples
        = .ok ((if verbose then (cpuStates (cpuStart slot first) samples).map (·.values) else [])
          ++ [((cpuStates (cpuStart slot first) samples).getLastD
            (cpuStart slot first)).values]) := by
      rw [cpuReports, cpuLoop_of_allFit hfit]
      rfl
    simp only [ReportsInRange, hreports, Except.ok.injEq, exists_eq_left', List.mem_append,
      List.mem_singleton, hfit, true_and]
    cases verbose with
    | true => simp [or_imp, forall_and]
    | false => simp
  · have hreports : cpuReports verbose slot first samples = .error .undefined := by
      rw [cpuReports, cpuLoop_of_not_allFit hfit]
      rfl
    simp [ReportsInRange, hreports, hfit]

/-- The percentages are in range exactly if the shares of every interval that is printed wrap
evenly. -/
theorem reportsInRange_iff (verbose : Bool) (slot first : CpuSample ncpus)
    (samples : List (CpuSample ncpus)) :
    ReportsInRange verbose slot first samples ↔
      (samples = [] → ∀ c, (bootShares (first c)).WrapsEvenly) ∧
        RunsEvenly verbose (cpuStart slot first) samples := by
  by_cases hempty : samples = []
  · subst hempty
    simp [reportsInRange_nil_iff, RunsEvenly]
  · rw [reportsInRange_iff_of_ne_nil verbose slot first hempty]
    simp [hempty]

/-- `iowait` runs backwards by one tick, and five ticks of user time become 125 percent. -/
theorem iowaitBack_not_inRange :
    KernelSamples [oneCpu 10 50 9, oneCpu 15 50 8] ∧
      ¬ ReportsInRange false (oneCpu 0 0 0) (oneCpu 10 50 9) [oneCpu 15 50 8] := by
  constructor
  · constructor
    · exact .cons_cons (oneCpu_advances (by decide) 50 9 50 8) (.singleton _)
    · refine .cons_cons ?_ (.singleton _)
      decide
    · decide
    · decide
  · rintro ⟨reports, hreports, hrange⟩
    have hrun : cpuReports false (oneCpu 0 0 0) (oneCpu 10 50 9) [oneCpu 15 50 8]
        = .ok [fun c => cpuStep (oneCpu 10 50 9 c) (oneCpu 15 50 8 c) 0] := rfl
    rw [hrun, Except.ok.injEq] at hreports
    have hvalues := hrange _ (hreports ▸ List.mem_singleton_self _) 0
    rw [cpuStep_inRange_iff] at hvalues
    exact absurd hvalues (by decide +kernel)

/-! ### What the kernel allows -/

/-- The ticks of an interval other than those of `iowait`. Idle counts from the highest value that
it has had. -/
def otherTicks (last cpuv : CpuTime) (peak : ℕ) : ℕ :=
  (cpuv.user.toNat - last.user.toNat) + (cpuv.nice.toNat - last.nice.toNat)
    + ((cpuv.system.toNat - last.system.toNat) + (cpuv.irq.toNat - last.irq.toNat)
      + (cpuv.softirq.toNat - last.softirq.toNat))
    + (cpuv.idle.toNat - peak) + (cpuv.steal.toNat - last.steal.toNat)

/-- A sum that does not wrap around wraps evenly. -/
lemma CpuShares.wrapsEvenly_of_total_lt {d : CpuShares} (h : d.total < 2 ^ 64) :
    d.WrapsEvenly := by
  have htotal := d.total_eq
  rw [CpuShares.WrapsEvenly]
  simp only [UInt64.le_iff_toNat_le, UInt64.toNat_one]
  split_ifs with hdvd
  · have hnone : d.total = 0 := Nat.eq_zero_of_dvd_of_lt hdvd h
    omega
  · intro x _
    rw [Nat.div_eq_of_lt h, Nat.div_eq_of_lt (lt_of_le_of_lt (Nat.sub_le ..) h)]

/-- Only `iowait` can make the sum wrap around, by running backwards less than the others
advance. -/
lemma CpuShares.wrapsEvenly_iff_of_iowait {d : CpuShares} {last cur : Jiff} {others : ℕ}
    (hothers : others = d.duser.toNat + d.dsystem.toNat + d.didle.toNat + d.dsteal.toNat)
    (hwait : d.diowait = cur - last) (hidle : d.didle.toNat < 2 ^ 31)
    (hsum : others + cur.toNat < 2 ^ 64) :
    d.WrapsEvenly ↔ last.toNat ≤ cur.toNat ∨ others < last.toNat - cur.toNat := by
  have htotal := d.total_eq
  have hlast := last.toNat_lt
  have hdiowait : d.diowait.toNat = (2 ^ 64 - last.toNat + cur.toNat) % 2 ^ 64 := by
    rw [hwait, UInt64.toNat_sub]
  constructor
  · intro heven
    by_contra hback
    rw [CpuShares.WrapsEvenly] at heven
    simp only [UInt64.le_iff_toNat_le, UInt64.toNat_one] at heven
    split_ifs at heven with hdvd
    · omega
    · have hleft := heven d.diowait (by simp [CpuShares.toList])
      omega
  · intro h
    apply CpuShares.wrapsEvenly_of_total_lt
    omega

/-- The debt is what idle is below the highest value that it has had. -/
def BelowPeak (s : CpuSampling ncpus) (peak : Fin ncpus → ℕ) : Prop :=
  ∀ c, (s.values c).debt = idleOf c s.latest - peak c

/-- The peak after a sample. -/
def nextPeak (peak : Fin ncpus → ℕ) (sample : CpuSample ncpus) (c : Fin ncpus) : ℕ :=
  max (peak c) (sample c).idle.toNat

namespace Continues

variable {s : CpuSampling ncpus} {sample : CpuSample ncpus} {samples : List (CpuSample ncpus)}
  {peak : Fin ncpus → ℕ}

lemma belowPeak_next (h : Continues s (sample :: samples)) (hpeak : BelowPeak s peak) :
    BelowPeak (cpuNext s sample) (nextPeak peak sample) := by
  intro c
  rw [(h.tick c).2.2, hpeak c, cpuNext_latest, idleOf, idleOf, nextPeak]
  omega

lemma toNat_credit (h : Continues s (sample :: samples)) (hpeak : BelowPeak s peak)
    (c : Fin ncpus) :
    (idleCredit ((sample c).idle - (s.latest c).idle) (s.values c).debt).toNat
      = (sample c).idle.toNat - peak c := by
  have hcredit := (h.tick c).2.1
  rw [hpeak c, idleOf, idleOf] at hcredit
  rw [hpeak c, idleOf]
  omega

/-- If only idle and `iowait` run backwards, then the percentages are in range exactly if `iowait`
does not, or by more than everything else has advanced. -/
lemma wrapsEvenly_iff (h : Continues s (sample :: samples)) (hpeak : BelowPeak s peak)
    (c : Fin ncpus) :
    (intervalShares (s.latest c) (sample c) (s.values c).debt).WrapsEvenly ↔
      (s.latest c).iowait ≤ (sample c).iowait ∨
        otherTicks (s.latest c) (sample c) (peak c)
          < (s.latest c).iowait.toNat - (sample c).iowait.toNat := by
  have hadvances := (List.isChain_cons_cons.1 h.kernel.advances).1 c
  have hstep := (List.isChain_cons_cons.1 h.kernel.stepFits).1 c
  have hsum := h.kernel.sumFits sample (by simp) c
  have hdebt := h.debt_nonpos c
  obtain ⟨huser, hsystem, hsteal⟩ := deltaShares_toNat hadvances hsum
  obtain ⟨huser', hsystem', hsteal'⟩ := deltaShares_le hadvances hsum
  have hcredit := h.credit_le c
  have htick := (h.tick c).2.1
  have hothers : otherTicks (s.latest c) (sample c) (peak c)
      = (intervalShares (s.latest c) (sample c) (s.values c).debt).duser.toNat
        + (intervalShares (s.latest c) (sample c) (s.values c).debt).dsystem.toNat
        + (intervalShares (s.latest c) (sample c) (s.values c).debt).didle.toNat
        + (intervalShares (s.latest c) (sample c) (s.values c).debt).dsteal.toNat := by
    simp only [otherTicks, intervalShares, huser, hsystem, hsteal, h.toNat_credit hpeak c]
  rw [UInt64.le_iff_toNat_le]
  refine CpuShares.wrapsEvenly_iff_of_iowait hothers rfl ?_ ?_
  · simp only [intervalShares]
    rw [idleOf] at htick hstep
    omega
  · rw [CpuTime.sum] at hsum
    simp only [hothers, intervalShares]
    omega

end Continues

/-- In every interval that is printed `iowait` does not run backwards, or by more than everything
else has advanced. -/
def IowaitCovered (verbose : Bool) (peak : Fin ncpus → ℕ) (last : CpuSample ncpus) :
    List (CpuSample ncpus) → Prop
  | [] => True
  | sample :: samples =>
    (verbose ∨ samples = [] → ∀ c, (last c).iowait ≤ (sample c).iowait ∨
      otherTicks (last c) (sample c) (peak c)
        < (last c).iowait.toNat - (sample c).iowait.toNat) ∧
    IowaitCovered verbose (nextPeak peak sample) sample samples

lemma Continues.runsEvenly_iff_iowaitCovered (verbose : Bool) {s : CpuSampling ncpus}
    {samples : List (CpuSample ncpus)} (h : Continues s samples) {peak : Fin ncpus → ℕ}
    (hpeak : BelowPeak s peak) :
    RunsEvenly verbose s samples ↔ IowaitCovered verbose peak s.latest samples := by
  induction samples generalizing s peak with
  | nil => rfl
  | cons sample samples ih =>
    have hrest := ih h.next (h.belowPeak_next hpeak)
    rw [cpuNext_latest] at hrest
    rw [RunsEvenly, IowaitCovered, hrest]
    simp only [h.debtsFit, true_and, h.wrapsEvenly_iff hpeak]

lemma bootShares_wrapsEvenly {cpuv : CpuTime} (h : cpuv.sum < 2 ^ 64) :
    (bootShares cpuv).WrapsEvenly := by
  apply CpuShares.wrapsEvenly_of_total_lt
  rw [CpuTime.sum] at h
  rw [CpuShares.total_eq]
  simp only [bootShares, UInt64.toNat_add]
  omega

/-- For samples as the kernel gives them, `iowait` alone decides whether the percentages are in
range. -/
theorem kernelRun_reportsInRange_iff (verbose : Bool) (slot : CpuSample ncpus)
    {first : CpuSample ncpus} {samples : List (CpuSample ncpus)}
    (h : KernelSamples (first :: samples)) :
    ReportsInRange verbose slot first samples ↔
      IowaitCovered verbose (fun c => (first c).idle.toNat) first samples := by
  by_cases hempty : samples = []
  · subst hempty
    rw [reportsInRange_nil_iff]
    simp only [IowaitCovered, iff_true]
    exact fun c => bootShares_wrapsEvenly (h.sumFits first (by simp) c)
  · have hpeak : BelowPeak (cpuStart slot first) fun c => (first c).idle.toNat := by
      intro c
      have hdebt : ((cpuStart slot first).values c).debt = 0 := setRatio_debt _ _
      rw [hdebt, cpuStart_latest, idleOf, sub_self]
    have hcontinues : Continues (cpuStart slot first) samples := h.continues
    have hiff := hcontinues.runsEvenly_iff_iowaitCovered verbose hpeak
    rw [reportsInRange_iff_of_ne_nil verbose slot first hempty, hiff, cpuStart_latest]

end NagiosPlugins
