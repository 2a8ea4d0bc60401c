import NagiosPlugins.Common
import NagiosPlugins.Libc.Arith

/-!
# CPU utilization

The sampling loop of `plugins/check_cpu.c`, which is also `check_iowait`. A sample is what
`cpu_stats_get_time` stores for each of the `ncpus` lines.
-/

namespace NagiosPlugins

open Libc

/-- `jiff`. -/
abbrev Jiff := UInt64

/-- `struct cpu_time`. -/
structure CpuTime where
  cpuname : Option CString
  user : Jiff
  nice : Jiff
  system : Jiff
  idle : Jiff
  iowait : Jiff
  irq : Jiff
  softirq : Jiff
  steal : Jiff
  guest : Jiff
  guestn : Jiff
  deriving DecidableEq, Repr

/-- The time of one CPU by what it was spent on. -/
structure CpuShares where
  duser : Jiff
  dsystem : Jiff
  didle : Jiff
  diowait : Jiff
  dsteal : Jiff
  deriving DecidableEq, Repr

/-- The variables of `main` for one CPU. -/
structure CpuValues extends CpuShares where
  ratio : Jiff
  debt : ℤ
  deriving DecidableEq, Repr

/-- The divisor of the percentages; it is 1 if nothing ticked, which then counts as idle. -/
def setRatio (d : CpuShares) (debt : ℤ) : CpuValues :=
  let ratio := d.duser + d.dsystem + d.didle + d.diowait + d.dsteal
  if ratio = 0 then { d with ratio := 1, didle := 1, debt } else { d with ratio, debt }

/-- The times since the system was booted. -/
def bootShares (cpuv : CpuTime) : CpuShares where
  duser := cpuv.user + cpuv.nice
  dsystem := cpuv.system + cpuv.irq + cpuv.softirq
  didle := cpuv.idle
  diowait := cpuv.iowait
  dsteal := cpuv.steal

/-- The times between two samples. -/
def deltaShares (last cpuv : CpuTime) : CpuShares where
  duser := cpuv.user - last.user + cpuv.nice - last.nice
  dsystem := cpuv.system - last.system + cpuv.irq - last.irq + cpuv.softirq - last.softirq
  didle := cpuv.idle - last.idle
  diowait := cpuv.iowait - last.iowait
  dsteal := cpuv.steal - last.steal

/-- Idle can run backwards for a moment: the new `didle`, before a zero `ratio` is corrected. -/
def idleCredit (didle : Jiff) (debt : ℤ) : Jiff :=
  let didle := if debt ≠ 0 then toUnsigned (toInt didle + debt) else didle
  if toInt didle < 0 then 0 else didle

/-- The `debt` that goes with it. -/
def idleDebt (didle : Jiff) (debt : ℤ) : ℤ :=
  let didle := if debt ≠ 0 then toUnsigned (toInt didle + debt) else didle
  if toInt didle < 0 then toInt didle else 0

/-- The body of the sampling loop for one CPU. -/
def cpuStep (last cpuv : CpuTime) (debt : ℤ) : CpuValues :=
  let d := deltaShares last cpuv
  setRatio { d with didle := idleCredit d.didle debt } (idleDebt d.didle debt)

/-- The sum of the two `int` values has a defined result. -/
def DebtFits (last cpuv : CpuTime) (debt : ℤ) : Prop :=
  debt ≠ 0 → FitsInt (toInt (cpuv.idle - last.idle) + debt)

instance (last cpuv : CpuTime) (debt : ℤ) : Decidable (DebtFits last cpuv debt) :=
  inferInstanceAs (Decidable (_ → _))

abbrev CpuSample (ncpus : ℕ) := Fin ncpus → CpuTime

/-- The state of the sampling loop; `cpuv tog` is the latest sample. -/
structure CpuSampling (ncpus : ℕ) where
  tog : Bool
  cpuv : Bool → CpuSample ncpus
  values : Fin ncpus → CpuValues

variable {ncpus : ℕ}

/-- The state before the loop. The other slot has not been filled yet. -/
def cpuStart (slot : CpuSample ncpus) (first : CpuSample ncpus) : CpuSampling ncpus where
  tog := false
  cpuv := Function.update (fun _ => slot) false first
  values c := setRatio (bootShares (first c)) 0

/-- The body of the sampling loop, unless a sum overflows. -/
def cpuNext (s : CpuSampling ncpus) (sample : CpuSample ncpus) : CpuSampling ncpus :=
  let tog := !s.tog
  let cpuv := Function.update s.cpuv tog sample
  { tog, cpuv, values := fun c => cpuStep (cpuv (!tog) c) (cpuv tog c) (s.values c).debt }

/-- None of the sums of the loop body overflows. -/
def DebtsFit (s : CpuSampling ncpus) (sample : CpuSample ncpus) : Prop :=
  ∀ c, DebtFits (s.cpuv s.tog c) (sample c) (s.values c).debt

instance (s : CpuSampling ncpus) (sample : CpuSample ncpus) : Decidable (DebtsFit s sample) :=
  inferInstanceAs (Decidable (∀ c, DebtFits (s.cpuv s.tog c) (sample c) (s.values c).debt))

/-- The sampling loop: the states at the end of its iterations. -/
def cpuLoop (s : CpuSampling ncpus) :
    List (CpuSample ncpus) → Except Stop (List (CpuSampling ncpus))
  | [] => .ok []
  | sample :: samples =>
    if DebtsFit s sample then do
      let states ← cpuLoop (cpuNext s sample) samples
      return cpuNext s sample :: states
    else .error .undefined

/-- `100.0 * part / ratio`, in exact arithmetic. -/
def percent (part ratio : Jiff) : ℚ := 100 * part.toNat / ratio.toNat

/-- The percentages of a CPU, in the order in which they are printed. -/
def CpuValues.percentages (v : CpuValues) : List ℚ :=
  [v.duser, v.dsystem, v.didle, v.diowait, v.dsteal].map (percent · v.ratio)

/-- The values that are printed: after every iteration if `verbose` is set, and at the end,
where they are also compared with the thresholds. -/
def cpuReports (verbose : Bool) (slot first : CpuSample ncpus)
    (samples : List (CpuSample ncpus)) : Except Stop (List (Fin ncpus → CpuValues)) := do
  let states ← cpuLoop (cpuStart slot first) samples
  let last := states.getLastD (cpuStart slot first)
  return (if verbose then states.map (·.values) else []) ++ [last.values]

end NagiosPlugins
