import NagiosPlugins.Cpu.Headline
import NagiosPlugins.Cpu.Percentages
import NagiosPlugins.Cpu.StatTable

/-!
# The CPU plugin on a running system

`main` of `plugins/check_cpu.c` behind the options, on what `/proc/stat` holds whenever it is read.
While the kernel counts, the plugin prints what each CPU that is online spent its time on in the
last interval.
-/

namespace NagiosPlugins

open Libc

/-! ### The plugin -/

/-- `ncpus`; `total` is what `get_processor_number_total` returns. -/
def cpuNumber (perCpuStats : Bool) (total : ℕ) : ℕ := if perCpuStats then total + 1 else 1

/-- `cpu_stats_get_time (cpuv[tog], ncpus)`. -/
def readSample (procpath : String) (ncpus : ℕ) (content : Option (List UInt8)) :
    Except Stop (CpuSample ncpus) := do
  let cputime ← cpuStatsGetTime procpath content (UInt32.ofNat ncpus)
  return fun c => cputime.getD c CpuTime.zero

/-- The sampling loop with its readings: the states at the end of its iterations. -/
def samplingLoop {ncpus : ℕ} (procpath : String) (s : CpuSampling ncpus) :
    List (Option (List UInt8)) → Except Stop (List (CpuSampling ncpus))
  | [] => .ok []
  | content :: contents => do
    let sample ← readSample procpath ncpus content
    if DebtsFit s sample then
      let states ← samplingLoop procpath (cpuNext s sample) contents
      return cpuNext s sample :: states
    else throw .undefined

/-- The percentages that are printed for a CPU. -/
structure CpuLine where
  cpuname : CString
  percentages : List ℚ

/-- What is printed at the end of an iteration if `verbose` is set. -/
def verboseLines {ncpus : ℕ} (s : CpuSampling ncpus) : List CpuLine :=
  (List.finRange ncpus).map fun c =>
    ⟨(s.cpuv false c).cpuname.getD (ascii "n/a"), (s.values c).percentages⟩

/-- What is printed behind the bar: nothing for an entry without a name. -/
def perfdataLines {ncpus : ℕ} (s : CpuSampling ncpus) : List CpuLine :=
  (List.finRange ncpus).filterMap fun c =>
    (s.cpuv false c).cpuname.map fun cpuname => ⟨cpuname, (s.values c).percentages⟩

structure CpuReport where
  verbose : List CpuLine
  status : Nagstatus
  cpuPerc : Double
  perfdata : List CpuLine

section Plugin

variable (cpuValue : CpuShares → Jiff) (perc : Jiff → Jiff → Double) (myThreshold : Thresholds)
variable (verbose perCpuStats : Bool) (total : ℕ) (procpath : String)

/-- `main` behind the options, where `/proc/stat` holds `first` and then one of `contents` after the
other; `slot` is what the memory of the samples holds before it is filled. -/
def checkCpu (slot : CpuSample (cpuNumber perCpuStats total)) (first : Option (List UInt8))
    (contents : List (Option (List UInt8))) : Except Stop CpuReport := do
  let sample ← readSample procpath (cpuNumber perCpuStats total) first
  let states ← samplingLoop procpath (cpuStart slot sample) contents
  let last := states.getLastD (cpuStart slot sample)
  let (status, cpuPerc) := cpuHeadline cpuValue perc myThreshold last.values
  return {
    verbose := if verbose then states.flatMap verboseLines else []
    status, cpuPerc
    perfdata := perfdataLines last }

end Plugin

/-! ### Shares of an interval -/

/-- The highest reading of the idle counter. -/
def idleMark (readings : List CpuTime) : ℕ := readings.foldl (fun mark t => max mark t.idle.toNat) 0

/-- What the time was spent on until the last reading: user, system, idle, waiting and stolen. -/
def spent (readings : List CpuTime) : List ℕ :=
  let t := readings.getLastD CpuTime.zero
  [t.user.toNat + t.nice.toNat, t.system.toNat + t.irq.toNat + t.softirq.toNat, idleMark readings,
    t.iowait.toNat, t.steal.toNat]

/-- Ticks as percentages; a CPU without ticks was idle. -/
def sharesOf (ticks : List ℕ) : List ℚ :=
  if ticks.sum = 0 then [0, 0, 100, 0, 0] else ticks.map fun t : ℕ => 100 * (t : ℚ) / ticks.sum

/-- The percentages between the last two readings, or since the system was booted. -/
def lastShares (readings : List CpuTime) : List ℚ :=
  sharesOf (List.zipWith (· - ·) (spent readings) (spent readings.dropLast))

/-- While the sum does not wrap around, the percentages are the shares. -/
lemma setRatio_percentages {d : CpuShares} (h : d.total < 2 ^ 64) (debt : ℤ) :
    (setRatio d debt).percentages = sharesOf (d.toList.map UInt64.toNat) := by
  have hsum := d.toNat_sum
  rw [Nat.mod_eq_of_lt h] at hsum
  have htotal : (d.toList.map UInt64.toNat).sum = d.total := rfl
  rw [sharesOf, htotal, setRatio]
  by_cases hzero : d.duser + d.dsystem + d.didle + d.diowait + d.dsteal = 0
  · have hnone : d.total = 0 := by rw [← hsum, hzero, UInt64.toNat_zero]
    have hparts := hnone
    rw [CpuShares.total_eq] at hparts
    have huser : d.duser.toNat = 0 := by omega
    have hsystem : d.dsystem.toNat = 0 := by omega
    have hiowait : d.diowait.toNat = 0 := by omega
    have hsteal : d.dsteal.toNat = 0 := by omega
    simp [hzero, hnone, CpuValues.percentages, percent, huser, hsystem, hiowait, hsteal]
  · have hsome : d.total ≠ 0 := by
      rw [← hsum]
      exact fun hnone => hzero (UInt64.toNat_inj.1 hnone)
    rw [if_neg hsome]
    simp only [hzero, if_false, CpuValues.percentages, percent, hsum, CpuShares.toList,
      List.map_cons, List.map_nil]

lemma idleMark_concat (readings : List CpuTime) (t : CpuTime) :
    idleMark (readings ++ [t]) = max (idleMark readings) t.idle.toNat := by
  rw [idleMark, List.foldl_append]
  rfl

/-! ### Runs -/

section Runs

variable {ncpus : ℕ} {cpuname : Fin ncpus → Option CString} {s : CpuSampling ncpus}
  {past : List (CpuSample ncpus)}

/-- The state of the loop behind these samples, which have the same names. -/
structure Sampled (cpuname : Fin ncpus → Option CString) (s : CpuSampling ncpus)
    (past : List (CpuSample ncpus)) : Prop where
  named : ∀ c, (s.cpuv false c).cpuname = cpuname c
  latest : ∃ earlier, past = earlier ++ [s.latest]
  mark : ∀ c, (idleMark (past.map (· c)) : ℤ) = idleOf c s.latest - (s.values c).debt
  shares : ∀ c, (s.values c).percentages = lastShares (past.map (· c))

namespace Sampled

lemma spent_eq (h : Sampled cpuname s past) (c : Fin ncpus) :
    spent (past.map (· c)) = [(s.latest c).user.toNat + (s.latest c).nice.toNat,
      (s.latest c).system.toNat + (s.latest c).irq.toNat + (s.latest c).softirq.toNat,
      idleMark (past.map (· c)), (s.latest c).iowait.toNat, (s.latest c).steal.toNat] := by
  have hlast : (past.map (· c)).getLastD CpuTime.zero = s.latest c := by
    obtain ⟨earlier, hpast⟩ := h.latest
    rw [hpast, List.map_append, List.map_singleton, List.getLastD_concat]
  rw [spent, hlast]

/-- Before the loop the times since the system was booted are taken. -/
lemma start (slot : CpuSample ncpus) {first : CpuSample ncpus}
    (hname : ∀ c, (first c).cpuname = cpuname c) (hsum : ∀ c, (first c).sum < 2 ^ 64) :
    Sampled cpuname (cpuStart slot first) [first] where
  named c := by simpa [cpuStart] using hname c
  latest := ⟨[], by simp⟩
  mark c := by
    have hdebt : ((cpuStart slot first).values c).debt = 0 := setRatio_debt _ _
    simp [idleMark, idleOf, hdebt]
  shares c := by
    have hsum := hsum c
    rw [CpuTime.sum] at hsum
    have huser := toNat_add_of_lt (x := (first c).user) (y := (first c).nice) (by omega)
    have hirq := toNat_add_of_lt (x := (first c).system) (y := (first c).irq) (by omega)
    have hsystem := toNat_add_of_lt (x := (first c).system + (first c).irq)
      (y := (first c).softirq) (by omega)
    have htotal : (bootShares (first c)).total < 2 ^ 64 := by
      rw [CpuShares.total_eq]
      simp only [bootShares, huser, hsystem, hirq]
      omega
    have hvalues : (cpuStart slot first).values c = setRatio (bootShares (first c)) 0 := rfl
    rw [hvalues, setRatio_percentages htotal]
    simp [lastShares, spent, idleMark, CpuShares.toList, bootShares, huser, hsystem, hirq,
      CpuTime.zero]

/-- An iteration takes the times since the sample before. -/
lemma next {sample : CpuSample ncpus} {samples : List (CpuSample ncpus)}
    (h : Sampled cpuname s past) (hname : ∀ c, (sample c).cpuname = cpuname c)
    (hcontinues : Continues s (sample :: samples))
    (hiowait : ∀ c, (s.latest c).iowait ≤ (sample c).iowait) :
    Sampled cpuname (cpuNext s sample) (past ++ [sample]) where
  named c := by
    cases htog : s.tog with
    | false => simpa [cpuNext, htog, Function.update_of_ne] using h.named c
    | true => simpa [cpuNext, htog] using hname c
  latest := ⟨past, by simp⟩
  mark c := by
    obtain ⟨-, -, hdebt⟩ := hcontinues.tick c
    have hmark := h.mark c
    rw [List.map_append, List.map_singleton, idleMark_concat, cpuNext_latest, hdebt]
    simp only [idleOf] at hmark ⊢
    omega
  shares c := by
    have hidle : (intervalShares (s.latest c) (sample c) (s.values c).debt).didle.toNat
        = max (idleMark (past.map (· c))) (sample c).idle.toNat - idleMark (past.map (· c)) := by
      obtain ⟨-, hcredit, -⟩ := hcontinues.tick c
      have hmark := h.mark c
      simp only [intervalShares, idleOf] at hcredit hmark ⊢
      omega
    have hadvances := (List.isChain_cons_cons.1 hcontinues.kernel.advances).1 c
    have hsum := hcontinues.kernel.sumFits sample (by simp) c
    have htotal : (intervalShares (s.latest c) (sample c) (s.values c).debt).total < 2 ^ 64 := by
      obtain ⟨huser, hsystem, hsteal⟩ := deltaShares_le hadvances hsum
      have hwait : (deltaShares (s.latest c) (sample c)).diowait.toNat ≤ (sample c).iowait.toNat :=
        (UInt64.toNat_sub_of_le _ _ (hiowait c)).trans_le (Nat.sub_le _ _)
      have hcredit := hcontinues.credit_le c
      rw [CpuTime.sum] at hsum
      rw [CpuShares.total_eq]
      simp only [intervalShares]
      omega
    obtain ⟨huser, hsystem, hsteal⟩ := deltaShares_toNat hadvances hsum
    have hwait := UInt64.toNat_sub_of_le _ _ (hiowait c)
    have hshares :
        (intervalShares (s.latest c) (sample c) (s.values c).debt).toList.map UInt64.toNat
          = List.zipWith (· - ·) (spent ((past ++ [sample]).map (· c)))
              (spent (past.map (· c))) := by
      have hnow : spent ((past ++ [sample]).map (· c))
          = [(sample c).user.toNat + (sample c).nice.toNat,
              (sample c).system.toNat + (sample c).irq.toNat + (sample c).softirq.toNat,
              max (idleMark (past.map (· c))) (sample c).idle.toNat, (sample c).iowait.toNat,
              (sample c).steal.toNat] := by
        rw [List.map_append, List.map_singleton, spent, List.getLastD_concat, idleMark_concat]
      obtain ⟨hu, hn, hs, hi, hsi, hst⟩ := hadvances
      rw [UInt64.le_iff_toNat_le] at hu hn hs hi hsi
      have huser' : (deltaShares (s.latest c) (sample c)).duser.toNat
          = (sample c).user.toNat + (sample c).nice.toNat
            - ((s.latest c).user.toNat + (s.latest c).nice.toNat) := by omega
      have hsystem' : (deltaShares (s.latest c) (sample c)).dsystem.toNat
          = (sample c).system.toNat + (sample c).irq.toNat + (sample c).softirq.toNat
            - ((s.latest c).system.toNat + (s.latest c).irq.toNat
              + (s.latest c).softirq.toNat) := by omega
      have hwait' : (deltaShares (s.latest c) (sample c)).diowait.toNat
          = (sample c).iowait.toNat - (s.latest c).iowait.toNat := hwait
      simp only [hnow, h.spent_eq, CpuShares.toList, List.map_cons, List.map_nil,
        List.zipWith_cons_cons, List.zipWith_nil_right, hidle]
      simp only [intervalShares, huser', hsystem', hwait', hsteal]
    have hvalues : (cpuNext s sample).values c
        = setRatio (intervalShares (s.latest c) (sample c) (s.values c).debt)
            (idleDebt ((sample c).idle - (s.latest c).idle) (s.values c).debt) :=
      cpuNext_values s sample c
    have hpast : ((past ++ [sample]).map (· c)).dropLast = past.map (· c) := by
      rw [List.map_append, List.map_singleton, List.dropLast_concat]
    rw [hvalues, setRatio_percentages htotal, hshares, lastShares, hpast]

/-- Each state is one behind the samples up to then. -/
lemma states {samples : List (CpuSample ncpus)} (h : Sampled cpuname s past)
    (hname : ∀ sample ∈ samples, ∀ c, (sample c).cpuname = cpuname c)
    (hcontinues : Continues s samples) (hiowait : IowaitAdvances (s.latest :: samples)) :
    List.Forall₂ (Sampled cpuname) (s :: cpuStates s samples)
        (samples.inits.map fun read => past ++ read) ∧
      Sampled cpuname ((cpuStates s samples).getLastD s) (past ++ samples) := by
  induction samples generalizing s past with
  | nil => simpa [cpuStates] using h
  | cons sample samples ih =>
    obtain ⟨hwait, hiowait⟩ := List.isChain_cons_cons.1 hiowait
    obtain ⟨hfirst, hname⟩ := List.forall_mem_cons.1 hname
    obtain ⟨hstates, hlast⟩ := ih (h.next hfirst hcontinues hwait) hname hcontinues.next
      (by rwa [cpuNext_latest])
    have hinits : (sample :: samples).inits.map (fun read => past ++ read)
        = past :: samples.inits.map fun read => past ++ [sample] ++ read := by
      simp [Function.comp_def]
    rw [hinits, cpuStates, List.getLastD_cons]
    refine ⟨.cons h hstates, ?_⟩
    simpa using hlast

lemma perfdataLines_eq (h : Sampled cpuname s past) : perfdataLines s
    = (List.finRange ncpus).filterMap fun c =>
        (cpuname c).map fun name => ⟨name, lastShares (past.map (· c))⟩ := by
  simp only [perfdataLines, h.named, h.shares]

end Sampled

/-- What is printed while the loop goes on. -/
lemma flatMap_verboseLines {states : List (CpuSampling ncpus)}
    {pasts : List (List (CpuSample ncpus))} (h : List.Forall₂ (Sampled cpuname) states pasts) :
    states.flatMap verboseLines = pasts.flatMap fun past => (List.finRange ncpus).map fun c =>
      ⟨(cpuname c).getD (ascii "n/a"), lastShares (past.map (· c))⟩ := by
  induction h with
  | nil => rfl
  | cons hs _ ih =>
    simp only [List.flatMap_cons, ih, verboseLines, hs.named, hs.shares]

end Runs

/-! ### A running system -/

section System

variable {ncpus : ℕ}

/-- What is stored while the kernel shows a table. -/
def StatTable.sample (ncpus : ℕ) (table : StatTable) : CpuSample ncpus := fun c => table.entry c

/-- The kernel shows one table after the other: always for the same CPUs, each of which has an
entry, and with counters that advance. Only idle may run backwards for a while. -/
structure StatRun (ncpus : ℕ) (tables : List StatTable) : Prop where
  ncpus_lt : ncpus < 2 ^ 32
  fits : ∀ table ∈ tables, table.Fits (UInt32.ofNat ncpus)
  sameCpus : ∀ table ∈ tables, ∀ table' ∈ tables,
    table.cpus.map Prod.fst = table'.cpus.map Prod.fst
  kernel : KernelSamples (tables.map (StatTable.sample ncpus))
  iowait : IowaitAdvances (tables.map (StatTable.sample ncpus))

/-- The shares of all CPUs in the last interval. -/
def allShares (ncpus : ℕ) (first : StatTable) (read : List StatTable) : List CpuLine :=
  (List.finRange ncpus).map fun c : Fin ncpus =>
    ⟨(first.entry c).cpuname.getD (ascii "n/a"),
      lastShares ((first :: read).map fun table => table.entry c)⟩

/-- Those of the CPUs that are online. -/
def onlineShares (ncpus : ℕ) (first : StatTable) (read : List StatTable) : List CpuLine :=
  (List.finRange ncpus).filterMap fun c : Fin ncpus =>
    (first.entry c).cpuname.map fun cpuname =>
      ⟨cpuname, lastShares ((first :: read).map fun table => table.entry c)⟩

lemma readSample_render (procpath : String) {table : StatTable} (hncpus : ncpus < 2 ^ 32)
    (hfits : table.Fits (UInt32.ofNat ncpus)) :
    readSample procpath ncpus (some table.render) = .ok (table.sample ncpus) := by
  have hlines : (UInt32.ofNat ncpus).toNat = ncpus := UInt32.toNat_ofNat_of_lt' hncpus
  rw [readSample, StatTable.cpuStatsGetTime_render procpath hfits, hlines, Except.ok_bind]
  refine congrArg Except.ok (funext fun c => ?_)
  rw [List.getD_eq_getElem?_getD, List.getElem?_map, List.getElem?_range c.isLt]
  rfl

/-- The names depend on the CPUs only. -/
lemma cpuname_entry (table : StatTable) (i : ℕ) :
    (table.entry i).cpuname
      = if i = 0 then some (ascii "cpu")
        else if i - 1 ∈ table.cpus.map Prod.fst then some (ascii "cpu" ++ decimal (i - 1))
        else none := by
  cases i with
  | zero => rfl
  | succ n =>
    rw [StatTable.entry, if_neg (Nat.succ_ne_zero n), Nat.add_sub_cancel]
    cases hfind : table.cpus.find? (·.1 = n) with
    | none =>
      have hnone : n ∉ table.cpus.map Prod.fst := by
        intro hmem
        obtain ⟨cpu, hcpu, rfl⟩ := List.mem_map.1 hmem
        simpa using List.find?_eq_none.1 hfind cpu hcpu
      rw [if_neg hnone]
      rfl
    | some cpu =>
      have hsome : n ∈ table.cpus.map Prod.fst :=
        List.mem_map.2 ⟨cpu, List.mem_of_find?_eq_some hfind, by simpa using List.find?_some hfind⟩
      rw [if_pos hsome]
      rfl

lemma samplingLoop_render (procpath : String) (hncpus : ncpus < 2 ^ 32) {tables : List StatTable}
    (hfits : ∀ table ∈ tables, table.Fits (UInt32.ofNat ncpus)) (s : CpuSampling ncpus) :
    samplingLoop procpath s (tables.map fun table => some table.render)
      = cpuLoop s (tables.map (StatTable.sample ncpus)) := by
  induction tables generalizing s with
  | nil => rfl
  | cons table tables ih =>
    obtain ⟨hfirst, hfits⟩ := List.forall_mem_cons.1 hfits
    rw [List.map_cons, List.map_cons, samplingLoop, cpuLoop,
      readSample_render procpath hncpus hfirst, Except.ok_bind, ih hfits]
    rfl

end System

section Plugin

variable (cpuValue : CpuShares → Jiff) (perc : Jiff → Jiff → Double) (myThreshold : Thresholds)
variable (verbose perCpuStats : Bool) (total : ℕ) (procpath : String)

end Plugin

/-- One CPU that is online. -/
def oneOnline (user idle : Jiff) : StatTable where
  total := [user, 0, 3, idle, 7]
  cpus := [(0, [user, 0, 3, idle, 7])]
  others := [ascii "intr 5"]
  distinct := List.nodup_singleton 0
  numbered := by simp
  others_label := by decide
  others_text := by decide +kernel

lemma oneOnline_advances {user user' : Jiff} (h : user ≤ user') (idle idle' : Jiff) (i : ℕ) :
    ((oneOnline user idle).entry i).Advances ((oneOnline user' idle').entry i) ∧
      ((oneOnline user idle).entry i).iowait ≤ ((oneOnline user' idle').entry i).iowait := by
  match i with
  | 0 | 1 =>
    exact ⟨⟨h, UInt64.le_refl _, UInt64.le_refl _, UInt64.le_refl _, UInt64.le_refl _,
      UInt64.le_refl _⟩, UInt64.le_refl _⟩
  | i + 2 =>
    exact ⟨⟨UInt64.le_refl _, UInt64.le_refl _, UInt64.le_refl _, UInt64.le_refl _,
      UInt64.le_refl _, UInt64.le_refl _⟩, UInt64.le_refl _⟩

end NagiosPlugins
