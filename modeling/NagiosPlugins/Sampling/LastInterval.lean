import NagiosPlugins.Data.Except
import NagiosPlugins.Libc.Printf
import NagiosPlugins.Sampling.Basic

/-!
# The last interval is reported

Whatever the counters show, the sampling loops return the rate of their last interval, and the
vectors of `check_intr` were read at its two ends.
-/

namespace NagiosPlugins

open Libc

/-! ### The loop -/

lemma divideLong_eq_ok {y : UInt64} (h : y ≠ 0) (x : UInt64) : divideLong x y = .ok (x / y) :=
  if_neg h

lemma toUInt64_ne_zero {delay : UInt32} (h : 1 ≤ delay) : delay.toUInt64 ≠ 0 := by
  intro hzero
  have htoNat := congrArg UInt64.toNat hzero
  rw [UInt32.toNat_toUInt64] at htoNat
  rw [UInt32.le_iff_toNat_le] at h
  exact absurd (htoNat ▸ h) (by decide)

section Loop

variable (slot : UInt64) (s : ℕ → UInt64) (delay : UInt32)

/-- What is returned after the readings `s 0` to `s n`. -/
def lastInterval : ℕ → UInt64
  | 0 => s 0
  | n + 1 => (s (n + 1) - s n) / delay.toUInt64

/-- The state of the loop then. -/
def samplingAfter (n : ℕ) : Sampling := ⟨.after slot s n, lastInterval s delay n⟩

variable {delay}

lemma samplingStep_after (hdelay : 1 ≤ delay) (n : ℕ) :
    samplingStep (.ok (s (n + 1))) delay (samplingAfter slot s delay n)
      = .ok (samplingAfter slot s delay (n + 1)) := by
  simp only [samplingStep, samplingAfter, Except.ok_bind,
    divideLong_eq_ok (toUInt64_ne_zero hdelay), TwoSlots.push_after,
    TwoSlots.latest_after, TwoSlots.other_after_succ]
  rfl

lemma getCtxtdelta_eq (hdelay : 1 ≤ delay) (count : UInt32) :
    getCtxtdelta slot (fun k => .ok (s k)) count delay
      = .ok (lastInterval s delay (count.toNat - 1)) := by
  have hloop : (List.range' 1 (count.toNat - 1)).foldlM
        (fun st i => samplingStep (.ok (s i)) delay st) (samplingAfter slot s delay 0)
      = .ok (samplingAfter slot s delay (count.toNat - 1)) :=
    Except.foldlM_range' _ _ fun n _ => samplingStep_after slot s hdelay n
  have hstart : (⟨.start slot (s 0), s 0⟩ : Sampling) = samplingAfter slot s delay 0 := rfl
  simp only [getCtxtdelta, Except.ok_bind, hstart, hloop]
  rfl

end Loop

/-! ### The vectors -/

/-- The comparisons of the loop, where nothing wraps around. -/
lemma sub_eq_ofNat_iff {count k : UInt32} (hk : k ≤ count) {i : ℕ} (hi : i < 2 ^ 32) :
    count - k = UInt32.ofNat i ↔ i + k.toNat = count.toNat := by
  rw [← UInt32.toNat_inj, UInt32.toNat_sub_of_le _ _ hk, UInt32.toNat_ofNat_of_lt' hi]
  rw [UInt32.le_iff_toNat_le] at hk
  omega

section Interrupts

variable (s : ℕ → UInt64) (files : ℕ → InterruptFile) {count delay : UInt32}

/-- The turns of the loop before the last two ones, the first of these, and the second. -/
lemma intrStep_eq (slot : UInt64) (hdelay : 1 ≤ delay) (hcount : 2 ≤ count) (v : IntrVectors)
    {i : ℕ} (hi : i + 1 < count.toNat) :
    intrStep (fun k => .ok (s k)) files count delay (samplingAfter slot s delay i, v) (i + 1)
      = (if i + 3 = count.toNat then v.set0 (files (i + 1))
          else if i + 2 = count.toNat then v.set1 (files (i + 1)) else .ok v) >>= fun v =>
        .ok (samplingAfter slot s delay (i + 1), v) := by
  have hlt := count.toNat_lt
  have hle := UInt32.le_iff_toNat_le.1 hcount
  have htwo : (2 : UInt32).toNat = 2 := rfl
  have hone : (1 : UInt32).toNat = 1 := rfl
  have hone' : (1 : UInt32) ≤ count := by
    rw [UInt32.le_iff_toNat_le]
    omega
  have hfirst : count - 2 = UInt32.ofNat (i + 1) ↔ i + 3 = count.toNat := by
    rw [sub_eq_ofNat_iff hcount (by omega), htwo]
  have hsecond : count - 1 = UInt32.ofNat (i + 1) ↔ i + 2 = count.toNat := by
    rw [sub_eq_ofNat_iff hone' (by omega), hone]
  simp only [intrStep, samplingStep_after slot s hdelay, Except.ok_bind, hfirst, hsecond]
  split_ifs <;> rfl

/-- Up to one update nothing is compared. -/
lemma getIntrdelta_of_le_one (slot : UInt64) (v : IntrVectors) (hcount : count ≤ 1) :
    getIntrdelta (fun k => .ok (s k)) files slot v count delay
      = v.set0 (files 0) >>= fun v => .ok (s 0, v) := by
  have hone : (1 : UInt32).toNat = 1 := rfl
  have hle := UInt32.le_iff_toNat_le.1 hcount
  have htwo : count ≤ 2 := by
    have htwoNat : (2 : UInt32).toNat = 2 := rfl
    rw [UInt32.le_iff_toNat_le]
    omega
  have hzero : count.toNat - 1 = 0 := by omega
  simp only [getIntrdelta, Except.ok_bind, if_pos htwo, hzero]
  rfl

/-- The turn in which the second vector is read. -/
lemma intrStep_last (slot : UInt64) (hdelay : 1 ≤ delay) (hcount : 2 ≤ count) (v : IntrVectors)
    {i : ℕ} (hi : i + 2 = count.toNat) :
    intrStep (fun k => .ok (s k)) files count delay (samplingAfter slot s delay i, v) (i + 1)
      = v.set1 (files (i + 1)) >>= fun v => .ok (samplingAfter slot s delay (i + 1), v) := by
  rw [intrStep_eq s files slot hdelay hcount v (by omega), if_neg (by omega), if_pos hi]

/-- With two updates the first vector is read before the loop. -/
lemma getIntrdelta_two (slot : UInt64) (v : IntrVectors) (hdelay : 1 ≤ delay)
    (hcount : count.toNat = 2) :
    getIntrdelta (fun k => .ok (s k)) files slot v count delay
      = v.set0 (files 0) >>= fun v => v.set1 (files 1) >>= fun v =>
          .ok (lastInterval s delay 1, v) := by
  have hsmall : count ≤ 2 := UInt32.le_iff_toNat_le.2 hcount.le
  have hlarge : 2 ≤ count := UInt32.le_iff_toNat_le.2 hcount.ge
  have hturns : List.range' 1 (count.toNat - 1) = [1] := by rw [hcount]; rfl
  have hstart : (⟨.start slot (s 0), s 0⟩ : Sampling) = samplingAfter slot s delay 0 := rfl
  have hturn := fun v => intrStep_last s files slot hdelay hlarge v (i := 0) hcount.symm
  simp only [Nat.zero_add] at hturn
  simp only [getIntrdelta, Except.ok_bind, hstart, if_pos hsmall, hturns, List.foldlM_cons,
    List.foldlM_nil, hturn, bind_assoc, pure_bind]
  rfl

/-- With more updates both vectors are read in the loop. -/
lemma getIntrdelta_add_three (slot : UInt64) (v : IntrVectors) (hdelay : 1 ≤ delay) {m : ℕ}
    (hcount : count.toNat = m + 3) :
    getIntrdelta (fun k => .ok (s k)) files slot v count delay
      = v.set0 (files (m + 1)) >>= fun v => v.set1 (files (m + 2)) >>= fun v =>
          .ok (lastInterval s delay (m + 2), v) := by
  have htwo : (2 : UInt32).toNat = 2 := rfl
  have hlarge : 2 ≤ count := by
    rw [UInt32.le_iff_toNat_le, htwo]
    omega
  have hnot : ¬ count ≤ 2 := by
    rw [UInt32.le_iff_toNat_le, htwo]
    omega
  have hstart : (⟨.start slot (s 0), s 0⟩ : Sampling) = samplingAfter slot s delay 0 := rfl
  have hturns : List.range' 1 (count.toNat - 1) = List.range' 1 m ++ [m + 1, m + 1 + 1] := by
    have hcount' : count.toNat - 1 = m + 2 := by omega
    have hlast : 1 + m = m + 1 := Nat.add_comm 1 m
    rw [hcount', ← List.range'_append_1, hlast]
    rfl
  have hearly : (List.range' 1 m).foldlM (intrStep (fun k => .ok (s k)) files count delay)
      (samplingAfter slot s delay 0, v) = .ok (samplingAfter slot s delay m, v) := by
    apply Except.foldlM_range' fun i => (samplingAfter slot s delay i, v)
    intro i hi
    rw [intrStep_eq s files slot hdelay hlarge v (by omega), if_neg (by omega),
      if_neg (by omega)]
    rfl
  have hfirst :
      intrStep (fun k => .ok (s k)) files count delay (samplingAfter slot s delay m, v) (m + 1)
        = v.set0 (files (m + 1)) >>= fun v => .ok (samplingAfter slot s delay (m + 1), v) := by
    rw [intrStep_eq s files slot hdelay hlarge v (by omega), if_pos (by omega)]
  have hturn := fun v => intrStep_last s files slot hdelay hlarge v (i := m + 1) (by omega)
  simp only [getIntrdelta, Except.ok_bind, hstart, if_neg hnot, hturns, List.foldlM_append,
    hearly, List.foldlM_cons, List.foldlM_nil, hfirst, hturn, bind_assoc, pure_bind]
  rfl

/-- From two updates on the vectors are read at the ends of the last interval. -/
lemma getIntrdelta_of_two_le (slot : UInt64) (v : IntrVectors) (hdelay : 1 ≤ delay)
    (hcount : 2 ≤ count) :
    getIntrdelta (fun k => .ok (s k)) files slot v count delay
      = v.set0 (files (count.toNat - 2)) >>= fun v =>
          v.set1 (files (count.toNat - 1)) >>= fun v =>
            .ok (lastInterval s delay (count.toNat - 1), v) := by
  have hle : 2 ≤ count.toNat := UInt32.le_iff_toNat_le.1 hcount
  obtain ⟨m, hm⟩ := Nat.exists_eq_add_of_le' hle
  rw [hm]
  cases m with
  | zero => exact getIntrdelta_two s files slot v hdelay hm
  | succ m => exact getIntrdelta_add_three s files slot v hdelay hm

end Interrupts

/-! ### The output loop -/

lemma length_addColumns {p : Option CString} {vintr vintr' : List UInt64}
    (h : addColumns p vintr = .ok vintr') : vintr'.length = vintr.length := by
  induction vintr generalizing p vintr' with
  | nil =>
    have hnil : addColumns p [] = .ok [] := by rcases p with _ | _ | _ <;> rfl
    rw [hnil] at h
    cases h
    rfl
  | cons v vintr ih =>
    have hcons : ∀ q w, (do return w :: (← addColumns q vintr)) = Except.ok vintr' →
        vintr'.length = (v :: vintr).length := by
      intro q w hrun
      obtain ⟨rest, hrest, heq⟩ := Except.bind_eq_ok.1 hrun
      cases heq
      rw [List.length_cons, List.length_cons, ih hrest]
    rcases p with _ | _ | ⟨c, s⟩
    · cases h
    · exact hcons _ _ h
    · rw [addColumns] at h
      split_ifs at h
      · exact hcons _ _ h
      · exact hcons _ _ h

/-- There is a counter for each CPU. -/
lemma length_procInterrupts {content : Option (List UInt8)} {ncpus : ℕ} {vintr : List UInt64}
    (h : procInterruptsGetNintrPerCpu content ncpus = .ok (some vintr)) :
    vintr.length = ncpus := by
  cases content with
  | none => cases h
  | some content =>
    obtain ⟨vintr', hrun, heq⟩ := Except.bind_eq_ok.1 h
    cases heq
    apply Except.foldlM_invariant (P := fun vintr => vintr.length = ncpus) ?_ _ _ _
      (List.length_replicate ..) hrun
    intro vintr line vintr' hlen hline
    rw [addInterruptLine] at hline
    split at hline
    · cases hline
      exact hlen
    · rw [length_addColumns hline, hlen]

/-- The vector has an entry for every CPU; it can be missing only if there are none. -/
def Backs (vintr : Option (List UInt64)) (ncpus : UInt32) : Prop :=
  ∀ i < ncpus.toNat, ∃ n, readVector vintr i = .ok n

lemma backs_nintrPerCpu {file : InterruptFile} {ncpus : UInt32} {vintr : Option (List UInt64)}
    (h : nintrPerCpu file 0 = .ok (ncpus, vintr)) : Backs vintr ncpus := by
  obtain ⟨vintr', hrun, heq⟩ := Except.bind_eq_ok.1 h
  cases heq
  intro i hi
  cases hcontent : file.content with
  | none =>
    rw [hcontent] at hi
    exact absurd hi (Nat.not_lt_zero i)
  | some content =>
    rw [hcontent] at hi hrun
    obtain ⟨vintr'', -, heq⟩ := Except.bind_eq_ok.1 hrun
    cases heq
    have hlen : vintr''.length = file.online.toNat := length_procInterrupts hrun
    have hindex : i < vintr''.length := hlen ▸ hi
    exact ⟨vintr''[i], by rw [readVector, List.getElem?_eq_getElem hindex]⟩

lemma printIntr_ok {count delay : UInt32} (hdelay : 1 ≤ delay) {v : IntrVectors}
    (h0 : Backs v.vintr0 v.ncpus0) (h1 : Backs v.vintr1 v.ncpus1) :
    ∃ ns, printIntr count delay v = .ok ns := by
  apply Except.exists_mapM
  intro i hi
  have hmin : i < v.ncpus0.toNat ∧ i < v.ncpus1.toNat := by
    have hlt : i < (if v.ncpus0 ≤ v.ncpus1 then v.ncpus0 else v.ncpus1).toNat :=
      List.mem_range.1 hi
    split_ifs at hlt with hle
    · rw [UInt32.le_iff_toNat_le] at hle
      exact ⟨hlt, lt_of_lt_of_le hlt hle⟩
    · rw [UInt32.le_iff_toNat_le, not_le] at hle
      exact ⟨hlt.trans hle, hlt⟩
  obtain ⟨n0, hn0⟩ := h0 i hmin.1
  obtain ⟨n1, hn1⟩ := h1 i hmin.2
  simp only [hn0, hn1, Except.ok_bind, divideLong_eq_ok (toUInt64_ne_zero hdelay)]
  split_ifs
  · exact ⟨_, rfl⟩
  · exact ⟨_, rfl⟩

lemma backs_null : Backs none 0 := fun i hi => absurd hi (Nat.not_lt_zero i)

lemma set0_eq_ok {file : InterruptFile} {v v' : IntrVectors} (h : v.set0 file = .ok v') :
    ∃ ncpus0 vintr0, nintrPerCpu file v.ncpus0 = .ok (ncpus0, vintr0) ∧
      v' = { v with ncpus0, vintr0 } := by
  obtain ⟨⟨ncpus0, vintr0⟩, hrun, heq⟩ := Except.bind_eq_ok.1 h
  cases heq
  exact ⟨ncpus0, vintr0, hrun, rfl⟩

lemma set1_eq_ok {file : InterruptFile} {v v' : IntrVectors} (h : v.set1 file = .ok v') :
    ∃ ncpus1 vintr1, nintrPerCpu file v.ncpus1 = .ok (ncpus1, vintr1) ∧
      v' = { v with ncpus1, vintr1 } := by
  obtain ⟨⟨ncpus1, vintr1⟩, hrun, heq⟩ := Except.bind_eq_ok.1 h
  cases heq
  exact ⟨ncpus1, vintr1, hrun, rfl⟩

/-- The vectors of `main` have entries for the CPUs. -/
lemma backs_getIntrdelta {s : ℕ → UInt64} {files : ℕ → InterruptFile} {slot : UInt64}
    {count delay : UInt32} (hdelay : 1 ≤ delay) {d : UInt64} {v : IntrVectors}
    (h : getIntrdelta (fun k => .ok (s k)) files slot .null count delay = .ok (d, v)) :
    Backs v.vintr0 v.ncpus0 ∧ Backs v.vintr1 v.ncpus1 := by
  have hcount : count ≤ 1 ∨ 2 ≤ count := by
    have hone : (1 : UInt32).toNat = 1 := rfl
    have htwo : (2 : UInt32).toNat = 2 := rfl
    rw [UInt32.le_iff_toNat_le, UInt32.le_iff_toNat_le]
    omega
  rcases hcount with hsmall | hlarge
  · rw [getIntrdelta_of_le_one s files slot .null hsmall] at h
    obtain ⟨v₀, hv₀, heq⟩ := Except.bind_eq_ok.1 h
    obtain ⟨ncpus0, vintr0, hrun, rfl⟩ := set0_eq_ok hv₀
    cases heq
    exact ⟨backs_nintrPerCpu hrun, backs_null⟩
  · rw [getIntrdelta_of_two_le s files slot .null hdelay hlarge] at h
    obtain ⟨v₀, hv₀, h⟩ := Except.bind_eq_ok.1 h
    obtain ⟨v₁, hv₁, heq⟩ := Except.bind_eq_ok.1 h
    obtain ⟨ncpus0, vintr0, hrun₀, rfl⟩ := set0_eq_ok hv₀
    obtain ⟨ncpus1, vintr1, hrun₁, rfl⟩ := set1_eq_ok hv₁
    cases heq
    exact ⟨backs_nintrPerCpu hrun₀, backs_nintrPerCpu hrun₁⟩

/-! ### The slots -/

/-- What a slot and its number of CPUs hold after a file has been read: the counters of the CPUs
that are online or, without the file, NULL and the number that was there before. -/
structure HoldsCounters (file : InterruptFile) (before ncpus : UInt32)
    (vintr : Option (List UInt64)) : Prop where
  present : ∀ content, file.content = some content → ncpus = file.online ∧
    ∃ counters, vintr = some counters ∧ counters.length = ncpus.toNat ∧
      procInterruptsGetNintrPerCpu (some content) ncpus.toNat = .ok (some counters)
  missing : file.content = none → ncpus = before ∧ vintr = none

lemma holdsCounters_nintrPerCpu {file : InterruptFile} {before ncpus : UInt32}
    {vintr : Option (List UInt64)} (h : nintrPerCpu file before = .ok (ncpus, vintr)) :
    HoldsCounters file before ncpus vintr := by
  obtain ⟨vintr', hrun, heq⟩ := Except.bind_eq_ok.1 h
  cases heq
  constructor
  · intro content hcontent
    rw [hcontent] at hrun ⊢
    obtain ⟨counters, -, heq⟩ := Except.bind_eq_ok.1 hrun
    cases heq
    exact ⟨rfl, counters, rfl, length_procInterrupts hrun, hrun⟩
  · intro hcontent
    rw [hcontent] at hrun ⊢
    cases hrun
    exact ⟨rfl, rfl⟩

/-- Both slots after the loop. -/
lemma holdsCounters_getIntrdelta {s : ℕ → UInt64} {files : ℕ → InterruptFile} {slot : UInt64}
    {v v' : IntrVectors} {count delay : UInt32} (hdelay : 1 ≤ delay) (hcount : 2 ≤ count)
    {d : UInt64}
    (h : getIntrdelta (fun k => .ok (s k)) files slot v count delay = .ok (d, v')) :
    HoldsCounters (files (count.toNat - 2)) v.ncpus0 v'.ncpus0 v'.vintr0 ∧
      HoldsCounters (files (count.toNat - 1)) v.ncpus1 v'.ncpus1 v'.vintr1 := by
  rw [getIntrdelta_of_two_le s files slot v hdelay hcount] at h
  obtain ⟨v₀, hv₀, h⟩ := Except.bind_eq_ok.1 h
  obtain ⟨v₁, hv₁, heq⟩ := Except.bind_eq_ok.1 h
  obtain ⟨ncpus0, vintr0, hrun₀, rfl⟩ := set0_eq_ok hv₀
  obtain ⟨ncpus1, vintr1, hrun₁, rfl⟩ := set1_eq_ok hv₁
  cases heq
  exact ⟨holdsCounters_nintrPerCpu hrun₀, holdsCounters_nintrPerCpu hrun₁⟩

/-! ### The report -/

/-- The first reading, or the rate of the last interval. -/
def reportedDelta (s : ℕ → UInt64) (count delay : UInt32) : UInt64 :=
  if count ≤ 1 then s 0 else (s (count.toNat - 1) - s (count.toNat - 2)) / delay.toUInt64

lemma lastInterval_eq (s : ℕ → UInt64) (count delay : UInt32) :
    lastInterval s delay (count.toNat - 1) = reportedDelta s count delay := by
  have hone : (1 : UInt32).toNat = 1 := rfl
  rw [reportedDelta]
  split_ifs with hcount
  · rw [UInt32.le_iff_toNat_le] at hcount
    have hzero : count.toNat - 1 = 0 := by omega
    rw [hzero, lastInterval]
  · rw [UInt32.le_iff_toNat_le] at hcount
    obtain ⟨n, hn⟩ := Nat.exists_eq_add_of_le' (show 2 ≤ count.toNat by omega)
    rw [hn]
    rfl

/-- The last interval is reported, the slots hold the counters at its ends, and the output loop
finds everything it reads. -/
theorem last_interval_reported (slot : UInt64) (s : ℕ → UInt64) (files : ℕ → InterruptFile)
    (v : IntrVectors) (count delay : UInt32) (hdelay : 1 ≤ delay) :
    getCtxtdelta slot (fun k => .ok (s k)) count delay = .ok (reportedDelta s count delay) ∧
    (count ≤ 1 → getIntrdelta (fun k => .ok (s k)) files slot v count delay
      = v.set0 (files 0) >>= fun v => .ok (reportedDelta s count delay, v)) ∧
    (2 ≤ count → getIntrdelta (fun k => .ok (s k)) files slot v count delay
      = v.set0 (files (count.toNat - 2)) >>= fun v =>
          v.set1 (files (count.toNat - 1)) >>= fun v =>
            .ok (reportedDelta s count delay, v)) ∧
    (2 ≤ count → ∀ d v', getIntrdelta (fun k => .ok (s k)) files slot v count delay = .ok (d, v') →
      HoldsCounters (files (count.toNat - 2)) v.ncpus0 v'.ncpus0 v'.vintr0 ∧
      HoldsCounters (files (count.toNat - 1)) v.ncpus1 v'.ncpus1 v'.vintr1) ∧
    ∀ d v, getIntrdelta (fun k => .ok (s k)) files slot .null count delay = .ok (d, v) →
      ∃ ns, printIntr count delay v = .ok ns := by
  refine ⟨?_, ?_, ?_, ?_, ?_⟩
  · rw [getCtxtdelta_eq slot s hdelay, lastInterval_eq]
  · intro hcount
    rw [getIntrdelta_of_le_one s files slot v hcount, reportedDelta, if_pos hcount]
  · intro hcount
    rw [getIntrdelta_of_two_le s files slot v hdelay hcount, lastInterval_eq]
  · intro hcount d v' h
    exact holdsCounters_getIntrdelta hdelay hcount h
  · intro d v h
    obtain ⟨h0, h1⟩ := backs_getIntrdelta hdelay h
    exact printIntr_ok hdelay h0 h1

/-- One CPU, with one more interrupt after each delay. -/
def oneCpuFile (k : ℕ) : InterruptFile where
  content := some (ascii "     CPU0\n 0: " ++ (decimal (7 + k) ++ ascii " timer\n"))
  online := 1

/-- A counter that wraps around in the last interval. -/
def wrappedReading (k : ℕ) : UInt64 := if k = 1 then 18446744073709551615 else 4

theorem wrapped_interval_reported :
    getCtxtdelta 0 (fun k => .ok (wrappedReading k)) 3 1 = .ok 5 ∧
    ∃ v, getIntrdelta (fun k => .ok (wrappedReading k)) oneCpuFile 0 .null 3 1 = .ok (5, v) ∧
      HoldsCounters (oneCpuFile 1) 0 v.ncpus0 v.vintr0 ∧
      HoldsCounters (oneCpuFile 2) 0 v.ncpus1 v.vintr1 ∧
      v.vintr0 = some [8] ∧ v.vintr1 = some [9] ∧ ∃ ns, printIntr 3 1 v = .ok ns := by
  obtain ⟨hctxt, -, -, hslots, hprint⟩ :=
    last_interval_reported 0 wrappedReading oneCpuFile .null 3 1 (by decide)
  have hrun : getIntrdelta (fun k => .ok (wrappedReading k)) oneCpuFile 0 .null 3 1
      = .ok (5, ⟨1, 1, some [8], some [9]⟩) := by
    decide +kernel
  obtain ⟨h0, h1⟩ := hslots (by decide) _ _ hrun
  exact ⟨hctxt, _, hrun, h0, h1, rfl, rfl, hprint _ _ hrun⟩

end NagiosPlugins
