import NagiosPlugins.Cpu.Basic
import NagiosPlugins.Data.HighWater

/-!
# CPU time is conserved

While the counters of a CPU other than idle never decrease, the sampling loop credits idle like
a meter with a high-water mark, and the shares of every interval add up to the divisor.
-/

namespace NagiosPlugins

open Libc HighWater

variable {ncpus : ℕ}

/-! ### The states of the loop -/

/-- The latest sample. -/
def CpuSampling.latest (s : CpuSampling ncpus) : CpuSample ncpus := s.cpuv s.tog

@[simp] lemma cpuStart_latest (slot first : CpuSample ncpus) :
    (cpuStart slot first).latest = first := by
  simp [CpuSampling.latest, cpuStart]

@[simp] lemma cpuNext_latest (s : CpuSampling ncpus) (sample : CpuSample ncpus) :
    (cpuNext s sample).latest = sample := by
  simp [CpuSampling.latest, cpuNext]

lemma cpuNext_values (s : CpuSampling ncpus) (sample : CpuSample ncpus) (c : Fin ncpus) :
    (cpuNext s sample).values c = cpuStep (s.latest c) (sample c) (s.values c).debt := by
  have hne : s.tog ≠ !s.tog := by cases s.tog <;> decide
  simp only [cpuNext, Bool.not_not, Function.update_self, Function.update_of_ne hne,
    CpuSampling.latest]

/-- No sum overflows in a run. -/
def AllFit (s : CpuSampling ncpus) : List (CpuSample ncpus) → Prop
  | [] => True
  | sample :: samples => DebtsFit s sample ∧ AllFit (cpuNext s sample) samples

/-- The states at the end of the iterations, if no sum overflows. -/
def cpuStates (s : CpuSampling ncpus) : List (CpuSample ncpus) → List (CpuSampling ncpus)
  | [] => []
  | sample :: samples => cpuNext s sample :: cpuStates (cpuNext s sample) samples

lemma cpuLoop_of_allFit {s : CpuSampling ncpus} {samples : List (CpuSample ncpus)}
    (h : AllFit s samples) : cpuLoop s samples = .ok (cpuStates s samples) := by
  induction samples generalizing s with
  | nil => rfl
  | cons sample samples ih =>
    rw [cpuLoop, if_pos h.1, ih h.2]
    rfl

lemma cpuLoop_of_not_allFit {s : CpuSampling ncpus} {samples : List (CpuSample ncpus)}
    (h : ¬ AllFit s samples) : cpuLoop s samples = .error .undefined := by
  induction samples generalizing s with
  | nil => exact absurd trivial h
  | cons sample samples ih =>
    rw [cpuLoop]
    by_cases hfit : DebtsFit s sample
    · rw [if_pos hfit, ih fun hall => h ⟨hfit, hall⟩]
      rfl
    · rw [if_neg hfit]

lemma getElem?_cpuStates (s : CpuSampling ncpus) (samples : List (CpuSample ncpus)) {i : ℕ}
    (hi : i < samples.length) :
    (cpuStates s samples)[i]? = some ((samples.take (i + 1)).foldl cpuNext s) := by
  induction samples generalizing s i with
  | nil => cases hi
  | cons sample samples ih =>
    cases i with
    | zero => rfl
    | succ i =>
      rw [cpuStates, List.getElem?_cons_succ, ih _ (Nat.lt_of_succ_lt_succ hi)]
      rfl

lemma length_cpuStates (s : CpuSampling ncpus) (samples : List (CpuSample ncpus)) :
    (cpuStates s samples).length = samples.length := by
  induction samples generalizing s with
  | nil => rfl
  | cons sample samples ih => simp [cpuStates, ih]

/-! ### Idle time -/

/-- The idle counter of a CPU in a sample. -/
def idleOf (c : Fin ncpus) (sample : CpuSample ncpus) : ℤ := (sample c).idle.toNat

/-- The sum of `didle` over the iterations, before a zero `ratio` is corrected. -/
def totalIdle (c : Fin ncpus) (s : CpuSampling ncpus) : List (CpuSample ncpus) → ℕ
  | [] => 0
  | sample :: samples =>
    (idleCredit ((sample c).idle - (s.latest c).idle) (s.values c).debt).toNat
      + totalIdle c (cpuNext s sample) samples

/-- One step of the idle counter is a tick of the meter. -/
lemma idle_tick {last cur : Jiff} {debt step : ℤ} (hstep : step = cur.toNat - last.toNat)
    (hdebt : debt ≤ 0) (hlower : -2 ^ 31 ≤ debt + step) (hupper : step < 2 ^ 31) :
    FitsInt (toInt (cur - last) + debt) ∧
      ((idleCredit (cur - last) debt).toNat : ℤ) = max 0 (debt + step) ∧
      idleDebt (cur - last) debt = min 0 (debt + step) := by
  have hfits : FitsInt step := ⟨by omega, hupper⟩
  have hdidle : toInt (cur - last) = step := by
    rw [hstep] at hfits ⊢
    exact toInt_sub hfits
  have hsum : FitsInt (step + debt) := ⟨by omega, by omega⟩
  have hpaid : toInt (if debt ≠ 0 then toUnsigned (toInt (cur - last) + debt) else cur - last)
      = debt + step := by
    split_ifs with hzero
    · rw [hdidle, toInt_toUnsigned hsum, add_comm]
    · have hdebt : debt = 0 := not_not.1 hzero
      rw [hdidle, hdebt, zero_add]
  refine ⟨hdidle ▸ hsum, ?_, ?_⟩
  · simp only [idleCredit, hpaid]
    split_ifs with hneg hzero
    · rw [max_eq_left hneg.le]
      rfl
    · rw [toNat_toUnsigned, hdidle, max_eq_right (not_lt.1 hneg)]
      omega
    · rw [max_eq_right (not_lt.1 hneg), UInt64.toNat_sub]
      have hcur := cur.toNat_lt
      have hlast := last.toNat_lt
      omega
  · simp only [idleDebt, hpaid]
    split_ifs with hneg
    · rw [min_eq_right hneg.le]
    · rw [min_eq_left (not_lt.1 hneg)]

/-! ### The shares of an interval -/

/-- The counters that never decrease in the kernel. -/
structure CpuTime.Advances (last cpuv : CpuTime) : Prop where
  user : last.user ≤ cpuv.user
  nice : last.nice ≤ cpuv.nice
  system : last.system ≤ cpuv.system
  irq : last.irq ≤ cpuv.irq
  softirq : last.softirq ≤ cpuv.softirq
  steal : last.steal ≤ cpuv.steal

/-- The time that a CPU has counted. -/
def CpuTime.sum (cpuv : CpuTime) : ℕ :=
  cpuv.user.toNat + cpuv.nice.toNat + cpuv.system.toNat + cpuv.idle.toNat + cpuv.iowait.toNat
    + cpuv.irq.toNat + cpuv.softirq.toNat + cpuv.steal.toNat

/-- The shares of an interval, without wrapping around. -/
lemma deltaShares_toNat {last cpuv : CpuTime} (h : last.Advances cpuv) (hsum : cpuv.sum < 2 ^ 64) :
    (deltaShares last cpuv).duser.toNat
        = (cpuv.user.toNat - last.user.toNat) + (cpuv.nice.toNat - last.nice.toNat) ∧
      (deltaShares last cpuv).dsystem.toNat
        = (cpuv.system.toNat - last.system.toNat) + (cpuv.irq.toNat - last.irq.toNat)
          + (cpuv.softirq.toNat - last.softirq.toNat) ∧
      (deltaShares last cpuv).dsteal.toNat = cpuv.steal.toNat - last.steal.toNat := by
  rw [CpuTime.sum] at hsum
  have huser := UInt64.toNat_sub_of_le _ _ h.user
  have hsystem := UInt64.toNat_sub_of_le _ _ h.system
  have hirq := toNat_add_sub (x := cpuv.system - last.system) h.irq (by omega)
  refine ⟨?_, ?_, UInt64.toNat_sub_of_le _ _ h.steal⟩
  · simp only [deltaShares]
    rw [toNat_add_sub h.nice (by omega), huser]
  · simp only [deltaShares]
    rw [toNat_add_sub h.softirq (by omega), hirq, hsystem]

/-- What ticked in an interval has been counted since the system was booted. -/
lemma deltaShares_le {last cpuv : CpuTime} (h : last.Advances cpuv) (hsum : cpuv.sum < 2 ^ 64) :
    (deltaShares last cpuv).duser.toNat ≤ cpuv.user.toNat + cpuv.nice.toNat ∧
      (deltaShares last cpuv).dsystem.toNat
        ≤ cpuv.system.toNat + cpuv.irq.toNat + cpuv.softirq.toNat ∧
      (deltaShares last cpuv).dsteal.toNat ≤ cpuv.steal.toNat := by
  obtain ⟨huser, hsystem, hsteal⟩ := deltaShares_toNat h hsum
  rw [huser, hsystem, hsteal]
  exact ⟨Nat.add_le_add (Nat.sub_le ..) (Nat.sub_le ..),
    Nat.add_le_add (Nat.add_le_add (Nat.sub_le ..) (Nat.sub_le ..)) (Nat.sub_le ..),
    Nat.sub_le ..⟩

/-- The divisor is the sum of the shares, and positive. -/
def CpuValues.Balanced (v : CpuValues) : Prop :=
  1 ≤ v.ratio.toNat ∧ v.ratio.toNat
    = v.duser.toNat + v.dsystem.toNat + v.didle.toNat + v.diowait.toNat + v.dsteal.toNat

lemma setRatio_balanced {d : CpuShares} (debt : ℤ)
    (h : d.duser.toNat + d.dsystem.toNat + d.didle.toNat + d.diowait.toNat + d.dsteal.toNat
      < 2 ^ 64) :
    (setRatio d debt).Balanced := by
  have hsum : (d.duser + d.dsystem + d.didle + d.diowait + d.dsteal).toNat
      = d.duser.toNat + d.dsystem.toNat + d.didle.toNat + d.diowait.toNat + d.dsteal.toNat := by
    have h₁ := toNat_add_of_lt (x := d.duser) (y := d.dsystem) (by omega)
    have h₂ := toNat_add_of_lt (x := d.duser + d.dsystem) (y := d.didle) (by omega)
    have h₃ := toNat_add_of_lt (x := d.duser + d.dsystem + d.didle) (y := d.diowait) (by omega)
    rw [toNat_add_of_lt (by omega), h₃, h₂, h₁]
  simp only [CpuValues.Balanced, setRatio]
  split_ifs with hzero
  · have hnone := congrArg UInt64.toNat hzero
    rw [hsum, UInt64.toNat_zero] at hnone
    have hone : (1 : UInt64).toNat = 1 := rfl
    simp only [hone]
    omega
  · have hpos : (d.duser + d.dsystem + d.didle + d.diowait + d.dsteal).toNat ≠ 0 := by
      intro hnone
      exact hzero (UInt64.toNat_inj.1 hnone)
    exact ⟨Nat.one_le_iff_ne_zero.2 hpos, hsum⟩

/-- The percentages of balanced values add up to 100. -/
lemma CpuValues.Balanced.sum_percentages {v : CpuValues} (h : v.Balanced) :
    v.percentages.sum = 100 := by
  obtain ⟨hpos, hsum⟩ := h
  have hratio : (v.ratio.toNat : ℚ) ≠ 0 := by
    rw [Nat.cast_ne_zero]
    omega
  simp only [CpuValues.percentages, percent, List.map_cons, List.map_nil, List.sum_cons,
    List.sum_nil]
  have hcast := congrArg (Nat.cast : ℕ → ℚ) hsum
  push_cast at hcast
  field_simp
  rw [hcast]
  ring

@[simp] lemma setRatio_debt (d : CpuShares) (debt : ℤ) : (setRatio d debt).debt = debt := by
  simp only [setRatio]
  split_ifs <;> rfl

lemma cpuStep_debt (last cpuv : CpuTime) (debt : ℤ) :
    (cpuStep last cpuv debt).debt = idleDebt (cpuv.idle - last.idle) debt := by
  rw [cpuStep, setRatio_debt]
  rfl

/-- An interval in which idle credits no more than it counts is balanced. -/
lemma cpuStep_balanced {last cpuv : CpuTime} {debt : ℤ} (h : last.Advances cpuv)
    (hiowait : last.iowait ≤ cpuv.iowait) (hsum : cpuv.sum < 2 ^ 64)
    (hcredit : (idleCredit (cpuv.idle - last.idle) debt).toNat ≤ cpuv.idle.toNat) :
    (cpuStep last cpuv debt).Balanced := by
  obtain ⟨huser, hsystem, hsteal⟩ := deltaShares_le h hsum
  have hwait : (deltaShares last cpuv).diowait.toNat ≤ cpuv.iowait.toNat :=
    (UInt64.toNat_sub_of_le _ _ hiowait).trans_le (Nat.sub_le _ _)
  apply setRatio_balanced
  have hidle : (deltaShares last cpuv).didle = cpuv.idle - last.idle := rfl
  rw [CpuTime.sum] at hsum
  simp only [hidle]
  omega

/-! ### Runs -/

/-- Samples as the kernel gives them: only idle and iowait may run backwards, and idle only so
far that its steps and its debt are values of `int`. -/
structure KernelSamples (samples : List (CpuSample ncpus)) : Prop where
  advances : samples.IsChain fun last sample => ∀ c, (last c).Advances (sample c)
  stepFits : samples.IsChain fun last sample => ∀ c, idleOf c sample - idleOf c last < 2 ^ 31
  debtFits : samples.Pairwise fun earlier sample =>
    ∀ c, -2 ^ 31 ≤ idleOf c sample - idleOf c earlier
  sumFits : ∀ sample ∈ samples, ∀ c, (sample c).sum < 2 ^ 64

/-- What the loop needs of the samples that are still to come: the debt stays a value of
`int`. -/
structure Continues (s : CpuSampling ncpus) (samples : List (CpuSample ncpus)) : Prop where
  kernel : KernelSamples (s.latest :: samples)
  debt_nonpos : ∀ c, (s.values c).debt ≤ 0
  debtFits : ∀ sample ∈ samples, ∀ c,
    -2 ^ 31 ≤ (s.values c).debt + (idleOf c sample - idleOf c s.latest)

namespace Continues

variable {s : CpuSampling ncpus} {sample : CpuSample ncpus} {samples : List (CpuSample ncpus)}

/-- The first step of a run is a tick of the meter. -/
lemma tick (h : Continues s (sample :: samples)) (c : Fin ncpus) :
    FitsInt (toInt ((sample c).idle - (s.latest c).idle) + (s.values c).debt) ∧
      ((idleCredit ((sample c).idle - (s.latest c).idle) (s.values c).debt).toNat : ℤ)
        = max 0 ((s.values c).debt + (idleOf c sample - idleOf c s.latest)) ∧
      ((cpuNext s sample).values c).debt
        = min 0 ((s.values c).debt + (idleOf c sample - idleOf c s.latest)) := by
  rw [cpuNext_values, cpuStep_debt]
  exact idle_tick rfl (h.debt_nonpos c) (h.debtFits sample (List.mem_cons_self ..) c)
    (List.isChain_cons_cons.1 h.kernel.stepFits |>.1 c)

lemma debtsFit (h : Continues s (sample :: samples)) : DebtsFit s sample :=
  fun c _ => (h.tick c).1

lemma next (h : Continues s (sample :: samples)) : Continues (cpuNext s sample) samples := by
  have hkernel := h.kernel
  constructor
  · rw [cpuNext_latest]
    exact ⟨(List.isChain_cons_cons.1 hkernel.advances).2,
      (List.isChain_cons_cons.1 hkernel.stepFits).2, hkernel.debtFits.of_cons,
      fun x hx => hkernel.sumFits x (List.mem_cons_of_mem _ hx)⟩
  · intro c
    rw [(h.tick c).2.2]
    exact min_le_left _ _
  · intro x hx c
    have hpair := (List.pairwise_cons.1 hkernel.debtFits.of_cons).1 x hx c
    have hlater := h.debtFits x (List.mem_cons_of_mem _ hx) c
    rw [(h.tick c).2.2, cpuNext_latest]
    omega

/-- Idle credits no more than the counter shows. -/
lemma credit_le (h : Continues s (sample :: samples)) (c : Fin ncpus) :
    (idleCredit ((sample c).idle - (s.latest c).idle) (s.values c).debt).toNat
      ≤ (sample c).idle.toNat := by
  have hcredit := (h.tick c).2.1
  have hdebt := h.debt_nonpos c
  simp only [idleOf] at hcredit
  omega

end Continues

lemma KernelSamples.continues {slot first : CpuSample ncpus} {samples : List (CpuSample ncpus)}
    (h : KernelSamples (first :: samples)) : Continues (cpuStart slot first) samples := by
  have hdebt : ∀ c, ((cpuStart slot first).values c).debt = 0 := fun c => setRatio_debt _ _
  constructor
  · rwa [cpuStart_latest]
  · intro c
    rw [hdebt]
  · intro sample hsample c
    rw [hdebt, cpuStart_latest, zero_add]
    exact (List.pairwise_cons.1 h.debtFits).1 sample hsample c

/-- The loop is a meter on the idle counter of every CPU. -/
lemma Continues.run_meter {s : CpuSampling ncpus} {samples : List (CpuSample ncpus)}
    (h : Continues s samples) (c : Fin ncpus) {m : Meter ℤ} (hm : m.debt = (s.values c).debt) :
    m.run (idleOf c s.latest) (samples.map (idleOf c))
      = ⟨m.total + totalIdle c s samples, ((samples.foldl cpuNext s).values c).debt⟩ := by
  induction samples generalizing s m with
  | nil =>
    simp only [List.map_nil, Meter.run, totalIdle, List.foldl_nil, Nat.cast_zero, add_zero, ← hm]
  | cons sample samples ih =>
    obtain ⟨-, hcredit, hdebt⟩ := h.tick c
    have htick : (m.tick (idleOf c sample - idleOf c s.latest)).debt
        = ((cpuNext s sample).values c).debt := by
      rw [hdebt, ← hm, Meter.tick]
    have hrun := ih h.next htick
    rw [cpuNext_latest] at hrun
    rw [List.map_cons, Meter.run, hrun, List.foldl_cons, totalIdle]
    simp only [Meter.tick, Meter.credit, hm, ← hcredit]
    push_cast
    rw [add_assoc]

lemma Continues.allFit {s : CpuSampling ncpus} {samples : List (CpuSample ncpus)}
    (h : Continues s samples) : AllFit s samples := by
  induction samples generalizing s with
  | nil => trivial
  | cons sample samples ih => exact ⟨h.debtsFit, ih h.next⟩

lemma KernelSamples.take {samples : List (CpuSample ncpus)} (h : KernelSamples samples) (k : ℕ) :
    KernelSamples (samples.take k) where
  advances := h.advances.take k
  stepFits := h.stepFits.take k
  debtFits := h.debtFits.sublist (List.take_sublist k samples)
  sumFits sample hsample := h.sumFits sample (List.mem_of_mem_take hsample)

lemma Continues.take {s : CpuSampling ncpus} {samples : List (CpuSample ncpus)}
    (h : Continues s samples) (k : ℕ) : Continues s (samples.take k) where
  kernel := by simpa using h.kernel.take (k + 1)
  debt_nonpos := h.debt_nonpos
  debtFits sample hsample := h.debtFits sample (List.mem_of_mem_take hsample)

/-- `iowait` does not run backwards. -/
def IowaitAdvances (samples : List (CpuSample ncpus)) : Prop :=
  samples.IsChain fun last sample => ∀ c, (last c).iowait ≤ (sample c).iowait

lemma setRatio_didle_le (d : CpuShares) (debt : ℤ) :
    (setRatio d debt).didle.toNat ≤ max 1 d.didle.toNat := by
  simp only [setRatio]
  split_ifs
  · exact le_max_left 1 _
  · exact le_max_right _ _

/-- Every iteration leaves balanced values, and an idle share that is not negative as an
`int`. -/
lemma Continues.balanced {s : CpuSampling ncpus} {samples : List (CpuSample ncpus)}
    (h : Continues s samples) (hiowait : IowaitAdvances (s.latest :: samples)) :
    ∀ s' ∈ cpuStates s samples, ∀ c,
      (s'.values c).Balanced ∧ (s'.values c).didle.toNat < 2 ^ 31 := by
  induction samples generalizing s with
  | nil => simp [cpuStates]
  | cons sample samples ih =>
    obtain ⟨hwait, hiowait⟩ := List.isChain_cons_cons.1 hiowait
    intro s' hs' c
    rcases List.mem_cons.1 hs' with rfl | hs'
    · have hkernel := h.kernel
      have hadvances := (List.isChain_cons_cons.1 hkernel.advances).1 c
      have hstep := (List.isChain_cons_cons.1 hkernel.stepFits).1 c
      have hsum := hkernel.sumFits sample (by simp) c
      have hcredit := (h.tick c).2.1
      have hdebt := h.debt_nonpos c
      rw [cpuNext_values]
      refine ⟨cpuStep_balanced hadvances (hwait c) hsum (h.credit_le c), ?_⟩
      have hle := setRatio_didle_le
        { deltaShares (s.latest c) (sample c) with
          didle := idleCredit ((sample c).idle - (s.latest c).idle) (s.values c).debt }
        (idleDebt ((sample c).idle - (s.latest c).idle) (s.values c).debt)
      simp only at hle
      refine lt_of_le_of_lt hle ?_
      omega
    · refine ih h.next ?_ s' hs' c
      rwa [IowaitAdvances, cpuNext_latest]

lemma bootShares_balanced {cpuv : CpuTime} (h : cpuv.sum < 2 ^ 64) :
    (setRatio (bootShares cpuv) 0).Balanced := by
  rw [CpuTime.sum] at h
  have huser := toNat_add_of_lt (x := cpuv.user) (y := cpuv.nice) (by omega)
  have hirq := toNat_add_of_lt (x := cpuv.system) (y := cpuv.irq) (by omega)
  have hsystem := toNat_add_of_lt (x := cpuv.system + cpuv.irq) (y := cpuv.softirq) (by omega)
  apply setRatio_balanced
  simp only [bootShares, huser, hsystem, hirq]
  omega

/-- After every iteration the idle time credited so far and the debt add up to what the idle
counter has advanced, and the percentages add up to 100; so they do before the loop. -/
theorem cpuLoop_conserves (slot : CpuSample ncpus) {first : CpuSample ncpus}
    {samples : List (CpuSample ncpus)} (h : KernelSamples (first :: samples))
    (hiowait : IowaitAdvances (first :: samples)) :
    ∃ states, cpuLoop (cpuStart slot first) samples = .ok states ∧
      states.length = samples.length ∧
      (∀ i sample s, samples[i]? = some sample → states[i]? = some s → ∀ c,
        (totalIdle c (cpuStart slot first) (samples.take (i + 1)) : ℤ) + (s.values c).debt
            = idleOf c sample - idleOf c first ∧
          (s.values c).debt ≤ 0 ∧ (s.values c).didle.toNat < 2 ^ 31) ∧
      ∀ s ∈ cpuStart slot first :: states, ∀ c,
        (s.values c).Balanced ∧ (s.values c).percentages.sum = 100 := by
  have hcontinues : Continues (cpuStart slot first) samples := h.continues
  have hbalanced := hcontinues.balanced (by rwa [cpuStart_latest])
  refine ⟨_, cpuLoop_of_allFit hcontinues.allFit, length_cpuStates _ _, ?_, ?_⟩
  · intro i sample s hsample hs c
    have hi : i < samples.length := (List.getElem?_eq_some_iff.1 hsample).1
    rw [getElem?_cpuStates _ _ hi, Option.some_inj] at hs
    have hrun := (hcontinues.take (i + 1)).run_meter c (m := Meter.start) (setRatio_debt _ _).symm
    have htotal := Meter.run_total_add_debt Meter.start (idleOf c (cpuStart slot first).latest)
      ((samples.take (i + 1)).map (idleOf c))
    have hnonpos := Meter.run_debt_nonpos (m := Meter.start) le_rfl
      (idleOf c (cpuStart slot first).latest) ((samples.take (i + 1)).map (idleOf c))
    have hlast : ((samples.take (i + 1)).map (idleOf c)).getLastD (idleOf c first)
        = idleOf c sample := by
      rw [List.take_add_one, hsample, Option.toList_some, List.map_append, List.map_singleton,
        List.getLastD_concat]
    rw [hrun, cpuStart_latest, hs, hlast] at htotal
    rw [hrun, hs] at hnonpos
    refine ⟨?_, hnonpos, (hbalanced s ?_ c).2⟩
    · simpa [Meter.start] using htotal
    · rw [← hs]
      exact List.mem_of_getElem? (getElem?_cpuStates _ _ hi)
  · intro s hs c
    have hs' : (s.values c).Balanced := by
      rcases List.mem_cons.1 hs with rfl | hs
      · exact bootShares_balanced (h.sumFits first (by simp) c)
      · exact (hbalanced s hs c).1
    exact ⟨hs', hs'.sum_percentages⟩

/-- A sample of a system with one CPU. -/
def oneCpu (user idle iowait : Jiff) : CpuSample 1 := fun _ =>
  { cpuname := some (ascii "cpu"), user, nice := 0, system := 3, idle, iowait, irq := 0,
    softirq := 1, steal := 0, guest := 0, guestn := 0 }

lemma oneCpu_advances {user user' : Jiff} (h : user ≤ user') (idle iowait idle' iowait' : Jiff)
    (c : Fin 1) : (oneCpu user idle iowait c).Advances (oneCpu user' idle' iowait' c) :=
  ⟨h, UInt64.le_refl _, UInt64.le_refl _, UInt64.le_refl _, UInt64.le_refl _, UInt64.le_refl _⟩

/-- Idle runs backwards by 2 and catches up in the next interval. -/
theorem cpuLoop_conserves_idleBack :
    ∃ states, cpuLoop (cpuStart (oneCpu 0 0 0) (oneCpu 10 50 7))
        [oneCpu 12 48 7, oneCpu 13 55 7] = .ok states ∧
      states.length = 2 ∧
      (∀ i sample s, [oneCpu 12 48 7, oneCpu 13 55 7][i]? = some sample →
        states[i]? = some s → ∀ c,
          (totalIdle c (cpuStart (oneCpu 0 0 0) (oneCpu 10 50 7))
              ([oneCpu 12 48 7, oneCpu 13 55 7].take (i + 1)) : ℤ) + (s.values c).debt
              = idleOf c sample - idleOf c (oneCpu 10 50 7) ∧
            (s.values c).debt ≤ 0 ∧ (s.values c).didle.toNat < 2 ^ 31) ∧
      ∀ s ∈ cpuStart (oneCpu 0 0 0) (oneCpu 10 50 7) :: states, ∀ c,
        (s.values c).Balanced ∧ (s.values c).percentages.sum = 100 := by
  apply cpuLoop_conserves
  · constructor
    · exact .cons_cons (oneCpu_advances (by decide) 50 7 48 7)
        (.cons_cons (oneCpu_advances (by decide) 48 7 55 7) (.singleton _))
    · refine .cons_cons ?_ (.cons_cons ?_ (.singleton _)) <;> decide
    · decide
    · decide
  · refine .cons_cons ?_ (.cons_cons ?_ (.singleton _)) <;> decide

end NagiosPlugins
