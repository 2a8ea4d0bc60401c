import Mathlib.Data.List.OfFn
import NagiosPlugins.Cpu.Stat
import NagiosPlugins.Data.Lists
import NagiosPlugins.Network.Status

/-!
# The headline of the CPU plugin

The last loop of `main` in `plugins/check_cpu.c`. The status is the worst one of all CPUs, the
percentage beside it the one of the last CPU.
-/

namespace NagiosPlugins

open Libc

section Headline

/- The program tells which of the times is looked at, and `perc` is what `100.0 * value / ratio`
becomes in a `float`. -/
variable (cpuValue : CpuShares → Jiff) (perc : Jiff → Jiff → Double) (myThreshold : Thresholds)

/-- The percentage of a CPU. -/
def cpuPerc (v : CpuValues) : Double := perc (cpuValue v.toCpuShares) v.ratio

def cpuStatus (v : CpuValues) : Nagstatus := getStatus (cpuPerc cpuValue perc v) myThreshold

/-- The body of the loop: `status` and `cpu_perc`. -/
def headlineStep (s : Nagstatus × Double) (v : CpuValues) : Nagstatus × Double :=
  let currstatus := cpuStatus cpuValue perc myThreshold v
  (if currstatus > s.1 then currstatus else s.1, cpuPerc cpuValue perc v)

/-- The exit status and the percentage in the status line. -/
def cpuHeadline {ncpus : ℕ} (values : Fin ncpus → CpuValues) : Nagstatus × Double :=
  (List.ofFn values).foldl (headlineStep cpuValue perc myThreshold) (.ok, .fin 0)

end Headline

section Properties

variable (cpuValue : CpuShares → Jiff) (perc : Jiff → Jiff → Double) (myThreshold : Thresholds)

/-- The status becomes the larger one. -/
lemma headlineStep_eq (s : Nagstatus × Double) (v : CpuValues) :
    headlineStep cpuValue perc myThreshold s v
      = (max s.1 (cpuStatus cpuValue perc myThreshold v), cpuPerc cpuValue perc v) := by
  rw [headlineStep]
  congr 1
  split_ifs with h
  · exact (max_eq_right h.le).symm
  · exact (max_eq_left (not_lt.1 h)).symm

lemma foldl_headlineStep (vs : List CpuValues) (s : Nagstatus × Double) :
    vs.foldl (headlineStep cpuValue perc myThreshold) s
      = ((vs.map (cpuStatus cpuValue perc myThreshold)).foldl max s.1,
          ((vs.getLast?).map (cpuPerc cpuValue perc)).getD s.2) := by
  induction vs using List.reverseRecOn with
  | nil => rfl
  | append_singleton vs v ih =>
    rw [List.foldl_append, ih, List.foldl_cons, List.foldl_nil, headlineStep_eq, List.map_append,
      List.foldl_append, List.getLast?_append]
    rfl

variable {n : ℕ} (values : Fin (n + 1) → CpuValues)

/-- The percentage is that of the last CPU. -/
lemma cpuHeadline_snd :
    (cpuHeadline cpuValue perc myThreshold values).2
      = cpuPerc cpuValue perc (values (Fin.last n)) := by
  rw [cpuHeadline, foldl_headlineStep, List.ofFn_succ', List.concat_eq_append,
    List.getLast?_append]
  rfl

/-- The status is the worst one. -/
lemma cpuHeadline_fst :
    (∀ c, cpuStatus cpuValue perc myThreshold (values c)
      ≤ (cpuHeadline cpuValue perc myThreshold values).1) ∧
    ∃ c, cpuStatus cpuValue perc myThreshold (values c)
      = (cpuHeadline cpuValue perc myThreshold values).1 := by
  have hfirst : (cpuHeadline cpuValue perc myThreshold values).1
      = ((List.ofFn values).map (cpuStatus cpuValue perc myThreshold)).foldl max .ok := by
    rw [cpuHeadline, foldl_headlineStep]
  obtain ⟨-, hall, hmem⟩ := List.foldl_max_spec
    ((List.ofFn values).map (cpuStatus cpuValue perc myThreshold)) .ok
  rw [← hfirst] at hall hmem
  have hle : ∀ c, cpuStatus cpuValue perc myThreshold (values c)
      ≤ (cpuHeadline cpuValue perc myThreshold values).1 :=
    fun c => hall _ (List.mem_map_of_mem (List.mem_ofFn.2 ⟨c, rfl⟩))
  refine ⟨hle, ?_⟩
  rcases hmem with hok | hmem
  · -- no status is better than this one
    have hbottom : ∀ status : Nagstatus, .ok ≤ status := fun status => Nat.zero_le status.code
    refine ⟨0, le_antisymm (hle 0) ?_⟩
    rw [hok]
    exact hbottom _
  · obtain ⟨v, hv, hstatus⟩ := List.mem_map.1 hmem
    obtain ⟨c, rfl⟩ := List.mem_ofFn.1 hv
    exact ⟨c, hstatus⟩

end Properties

/-- The percentage is that of a CPU with the printed status, which is the worst one of all. -/
def HeadlineExplains (cpuValue : CpuShares → Jiff) (perc : Jiff → Jiff → Double)
    (myThreshold : Thresholds) {ncpus : ℕ} (values : Fin ncpus → CpuValues) : Prop :=
  let (status, printed) := cpuHeadline cpuValue perc myThreshold values
  (∃ c, printed = cpuPerc cpuValue perc (values c) ∧
    cpuStatus cpuValue perc myThreshold (values c) = status) ∧
  getStatus printed myThreshold = status ∧
  (∀ c, cpuStatus cpuValue perc myThreshold (values c) ≤ status) ∧
  ∃ c, cpuStatus cpuValue perc myThreshold (values c) = status

/-- The figure explains the status if and only if no CPU is worse than the last one. -/
theorem headlineExplains_iff (cpuValue : CpuShares → Jiff) (perc : Jiff → Jiff → Double)
    (myThreshold : Thresholds) {n : ℕ} (values : Fin (n + 1) → CpuValues) :
    HeadlineExplains cpuValue perc myThreshold values ↔
      ∀ c, cpuStatus cpuValue perc myThreshold (values c)
        ≤ cpuStatus cpuValue perc myThreshold (values (Fin.last n)) := by
  obtain ⟨hall, c, hc⟩ := cpuHeadline_fst cpuValue perc myThreshold values
  have hprinted := cpuHeadline_snd cpuValue perc myThreshold values
  have hlast : getStatus (cpuHeadline cpuValue perc myThreshold values).2 myThreshold
      = cpuStatus cpuValue perc myThreshold (values (Fin.last n)) := by
    rw [hprinted]
    rfl
  constructor
  · rintro ⟨-, hstatus, hworst, -⟩ c
    have hheadline : getStatus (cpuHeadline cpuValue perc myThreshold values).2 myThreshold
        = (cpuHeadline cpuValue perc myThreshold values).1 := hstatus
    rw [← hlast, hheadline]
    exact hworst c
  · intro h
    have hstatus : cpuStatus cpuValue perc myThreshold (values (Fin.last n))
        = (cpuHeadline cpuValue perc myThreshold values).1 :=
      le_antisymm (hall (Fin.last n)) (hc ▸ h c)
    exact ⟨⟨Fin.last n, hprinted, hstatus⟩, hlast.trans hstatus, hall, c, hc⟩

/-- The time of a CPU that has been busy or idle only. -/
def busyTime (user idle : Jiff) : CpuTime := ⟨none, user, 0, 0, idle, 0, 0, 0, 0, 0, 0⟩

/-- One CPU is busy and the other one, which is the last, is idle: with an alert above 90 percent
the status is critical and the percentage is 0. -/
theorem idle_not_headlineExplains :
    ∃ values, cpuReports false (fun _ => CpuTime.zero)
        ![busyTime 5 5, busyTime 10 0, busyTime 0 10] [] = .ok [values] ∧
      ¬ HeadlineExplains CpuShares.duser (fun value ratio => .fin (percent value ratio))
        ⟨none, some ⟨.fin 0, .fin 90, false, false, .outside⟩⟩ values := by
  refine ⟨_, rfl, ?_⟩
  rintro ⟨-, hstatus, -, -⟩
  revert hstatus
  decide +kernel

end NagiosPlugins
