import Mathlib.Algebra.BigOperators.Group.List.Basic
import Mathlib.Data.UInt
import NagiosPlugins.Data.Except
import NagiosPlugins.Data.Lists
import NagiosPlugins.Fc.Basic

/-!
# Totals over the Fibre Channel hosts

The totals are sums over the hosts in any order, unless there is a host without a readable state:
the state is compared without a look at whether there is one.
-/

namespace NagiosPlugins

open Libc

/-- The first reading, or the difference of the two last ones. -/
def fcInterval (f : ℕ → UInt64) : ℕ → UInt64
  | 0 => f 0
  | n + 1 => f (n + 1) - f n

namespace FcHost

variable (host : FcHost)

/-- Every statistic can be read. -/
def Readable : Prop := ∀ which k, (host.statistic which k).isSome

def value (which : FcStatistic) (k : ℕ) : UInt64 := (host.statistic which k).getD 0

/-- What a host adds to a total of frames. -/
def frames (which : FcStatistic) (count : UInt32) : UInt64 :=
  fcInterval (host.value which) (count.toNat - 1)

def online : Bool := host.portState = some (ascii "Online")

variable {host}

lemma Readable.fcHostGetStatistic_eq (h : host.Readable) (which : FcStatistic) (k : ℕ) :
    fcHostGetStatistic host which k = .ok (host.value which k) := by
  obtain ⟨value, hvalue⟩ := Option.isSome_iff_exists.1 (h which k)
  rw [fcHostGetStatistic, FcHost.value, hvalue]
  rfl

end FcHost

/-! ### One host -/

section Host

variable {host : FcHost} (slot : UInt64) (stats : FcHostStatistics)

/-- The state of the sampling loop after `n` turns. -/
def fcSamplingAfter (host : FcHost) (n : ℕ) : FcSampling where
  rxFrames := .after slot (host.value .rxFrames) n
  txFrames := .after slot (host.value .txFrames) n
  stats := { stats with
    rxFrames := fcInterval (host.value .rxFrames) n
    txFrames := fcInterval (host.value .txFrames) n }

lemma fcSamplingStep_after (h : host.Readable) (n : ℕ) :
    fcSamplingStep host (fcSamplingAfter slot stats host n) (n + 1)
      = .ok (fcSamplingAfter slot stats host (n + 1)) := by
  simp only [fcSamplingStep, fcSamplingAfter, h.fcHostGetStatistic_eq, Except.ok_bind,
    TwoSlots.push_after, TwoSlots.latest_after, TwoSlots.other_after_succ]
  rfl

end Host

/-- A host is added to the totals. -/
def FcStatus.add (count : UInt32) (s : FcStatus) (host : FcHost) : FcStatus where
  nPorts := s.nPorts + 1
  nOnline := s.nOnline + if host.online then 1 else 0
  stats :=
    { rxFrames := host.frames .rxFrames count
      txFrames := host.frames .txFrames count
      errorFrames := s.stats.errorFrames + host.value .errorFrames 0
      invalidCrcCount := s.stats.invalidCrcCount + host.value .invalidCrcCount 0
      linkFailureCount := s.stats.linkFailureCount + host.value .linkFailureCount 0
      lossOfSignalCount := s.stats.lossOfSignalCount + host.value .lossOfSignalCount 0
      lossOfSyncCount := s.stats.lossOfSyncCount + host.value .lossOfSyncCount 0 }
  drxFramesTot := s.drxFramesTot + host.frames .rxFrames count
  dtxFramesTot := s.dtxFramesTot + host.frames .txFrames count

lemma increment_eq_ok {n : ℤ} (h : n + 1 < 2 ^ 31) : increment n = .ok (n + 1) := if_pos h

lemma countOnline_eq {host : FcHost} (h : host.portState.isSome) {n : ℤ} (hn : n + 1 < 2 ^ 31) :
    countOnline host.portState n = .ok (n + if host.online then 1 else 0) := by
  obtain ⟨line, hline⟩ := Option.isSome_iff_exists.1 h
  have honline : host.online = true ↔ line = ascii "Online" := by simp [FcHost.online, hline]
  rw [hline, countOnline]
  by_cases hstate : line = ascii "Online"
  · rw [if_pos hstate, if_pos (honline.2 hstate), increment_eq_ok hn]
  · rw [if_neg hstate, if_neg (mt honline.1 hstate), add_zero]

lemma fcHostStep_eq {host : FcHost} (h : host.Readable) (hstate : host.portState.isSome)
    (slot : UInt64) (count : UInt32) {s : FcStatus} (hports : s.nPorts + 1 < 2 ^ 31)
    (honline : s.nOnline ≤ s.nPorts) :
    fcHostStep slot count s host = .ok (s.add count host) := by
  have hstart : (⟨.start slot (host.value .rxFrames 0), .start slot (host.value .txFrames 0),
      { s.stats with
        rxFrames := host.value .rxFrames 0
        txFrames := host.value .txFrames 0 }⟩ : FcSampling)
      = fcSamplingAfter slot s.stats host 0 := rfl
  have hloop := Except.foldlM_range' (fcSamplingAfter slot s.stats host) (count.toNat - 1)
    fun n _ => fcSamplingStep_after slot s.stats h n
  have hfits : s.nOnline + 1 < 2 ^ 31 := lt_of_le_of_lt (add_le_add_left honline 1) hports
  simp only [fcHostStep, increment_eq_ok hports, countOnline_eq hstate hfits,
    h.fcHostGetStatistic_eq, Except.ok_bind, hstart, hloop]
  rfl

/-- What a step that returns tells about the host. -/
lemma fcHostStep_ok {slot : UInt64} {count : UInt32} {s s' : FcStatus} {host : FcHost}
    (h : fcHostStep slot count s host = .ok s') :
    host.portState.isSome ∧ s.nPorts + 1 < 2 ^ 31 ∧ s'.nPorts = s.nPorts + 1 := by
  rw [fcHostStep] at h
  obtain ⟨nPorts, hports, h⟩ := Except.bind_eq_ok.1 h
  obtain ⟨nOnline, honline, h⟩ := Except.bind_eq_ok.1 h
  have hfits : s.nPorts + 1 < 2 ^ 31 ∧ nPorts = s.nPorts + 1 := by
    rw [increment] at hports
    split_ifs at hports with hlt
    cases hports
    exact ⟨hlt, rfl⟩
  have hstate : host.portState.isSome := by
    cases hline : host.portState with
    | none =>
      rw [hline] at honline
      cases honline
    | some line => rfl
  refine ⟨hstate, hfits.1, ?_⟩
  simp only [Except.bind_eq_ok] at h
  obtain ⟨_, -, _, -, _, -, _, -, _, -, _, -, _, -, _, -, heq⟩ := h
  cases heq
  exact hfits.2

/-! ### All hosts -/

section Hosts

variable (slot : UInt64) (count : UInt32)

/-- If each host can be counted, they are added one after the other. -/
lemma foldlM_fcHostStep {hosts : List FcHost} (hread : ∀ host ∈ hosts, host.Readable)
    (hstate : ∀ host ∈ hosts, host.portState.isSome) {s : FcStatus}
    (hports : s.nPorts + hosts.length < 2 ^ 31) (honline : s.nOnline ≤ s.nPorts) :
    hosts.foldlM (fcHostStep slot count) s = .ok (hosts.foldl (FcStatus.add count) s) := by
  induction hosts generalizing s with
  | nil => rfl
  | cons host hosts ih =>
    obtain ⟨hread₁, hread⟩ := List.forall_mem_cons.1 hread
    obtain ⟨hstate₁, hstate⟩ := List.forall_mem_cons.1 hstate
    rw [List.length_cons] at hports
    have hnext : (s.add count host).nPorts = s.nPorts + 1 := rfl
    have honline' : (s.add count host).nOnline ≤ (s.add count host).nPorts := by
      have hone : (if host.online then 1 else 0) ≤ (1 : ℤ) := by split_ifs <;> norm_num
      exact add_le_add honline hone
    rw [List.foldlM_cons, fcHostStep_eq hread₁ hstate₁ slot count (by omega) honline,
      Except.ok_bind, ih hread hstate (by omega) honline', List.foldl_cons]

lemma forall_of_foldlM_fcHostStep {hosts : List FcHost} {s s' : FcStatus}
    (hrun : hosts.foldlM (fcHostStep slot count) s = .ok s') (hs : s.nPorts < 2 ^ 31) :
    (∀ host ∈ hosts, host.portState.isSome) ∧ s.nPorts + hosts.length < 2 ^ 31 := by
  induction hosts generalizing s with
  | nil => simpa using hs
  | cons host hosts ih =>
    rw [List.foldlM_cons] at hrun
    obtain ⟨s₁, hstep, hrun⟩ := Except.bind_eq_ok.1 hrun
    obtain ⟨hstate, hlt, hnext⟩ := fcHostStep_ok hstep
    obtain ⟨hstates, hlen⟩ := ih hrun (by omega)
    refine ⟨List.forall_mem_cons.2 ⟨hstate, hstates⟩, ?_⟩
    rw [List.length_cons]
    omega

end Hosts

/-! ### Totals -/

/-- The sums over the hosts. -/
def fcTotals (count : UInt32) (hosts : List FcHost) : FcHostStatistics where
  rxFrames := (hosts.map (FcHost.frames · .rxFrames count)).sum
  txFrames := (hosts.map (FcHost.frames · .txFrames count)).sum
  errorFrames := (hosts.map (FcHost.value · .errorFrames 0)).sum
  invalidCrcCount := (hosts.map (FcHost.value · .invalidCrcCount 0)).sum
  linkFailureCount := (hosts.map (FcHost.value · .linkFailureCount 0)).sum
  lossOfSignalCount := (hosts.map (FcHost.value · .lossOfSignalCount 0)).sum
  lossOfSyncCount := (hosts.map (FcHost.value · .lossOfSyncCount 0)).sum

lemma fcTotals_perm (count : UInt32) {hosts hosts' : List FcHost} (h : hosts'.Perm hosts) :
    fcTotals count hosts' = fcTotals count hosts := by
  simp only [fcTotals, (h.map _).sum_eq]

lemma sum_online (hosts : List FcHost) :
    (hosts.map fun host => if host.online then (1 : ℤ) else 0).sum
      = hosts.countP FcHost.online := by
  induction hosts with
  | nil => rfl
  | cons host hosts ih =>
    rw [List.map_cons, List.sum_cons, ih, List.countP_cons]
    split_ifs <;> push_cast <;> ring

/-- The counts and the totals, if each host can be counted. -/
lemma fcHostStatus_eq (slot : UInt64) (count : UInt32) {hosts : List FcHost}
    (hread : ∀ host ∈ hosts, host.Readable) (hstate : ∀ host ∈ hosts, host.portState.isSome)
    (hlen : hosts.length < 2 ^ 31) :
    fcHostStatus slot count hosts .zero
      = .ok (hosts.length, hosts.countP FcHost.online, fcTotals count hosts) := by
  have hrun := foldlM_fcHostStep slot count hread hstate (s := ⟨0, 0, .zero, 0, 0⟩)
    (by simpa using hlen) le_rfl
  have hpart {γ : Type} [AddMonoid γ] (part : FcStatus → γ) (f : FcHost → γ)
      (hstep : ∀ s host, part (s.add count host) = part s + f host)
      (hzero : part ⟨0, 0, .zero, 0, 0⟩ = 0) :
      part (hosts.foldl (FcStatus.add count) ⟨0, 0, .zero, 0, 0⟩) = (hosts.map f).sum := by
    rw [List.foldl_add_sum part f hstep, hzero, zero_add]
  have hones : (hosts.map fun _ => (1 : ℤ)).sum = hosts.length := by simp
  have hports := hpart FcStatus.nPorts (fun _ => 1) (fun _ _ => rfl) rfl
  have honline := hpart FcStatus.nOnline (fun host => if host.online then 1 else 0)
    (fun _ _ => rfl) rfl
  have hrx := hpart FcStatus.drxFramesTot (FcHost.frames · .rxFrames count) (fun _ _ => rfl) rfl
  have htx := hpart FcStatus.dtxFramesTot (FcHost.frames · .txFrames count) (fun _ _ => rfl) rfl
  have herror := hpart (·.stats.errorFrames) (FcHost.value · .errorFrames 0) (fun _ _ => rfl) rfl
  have hcrc := hpart (·.stats.invalidCrcCount) (FcHost.value · .invalidCrcCount 0)
    (fun _ _ => rfl) rfl
  have hlink := hpart (·.stats.linkFailureCount) (FcHost.value · .linkFailureCount 0)
    (fun _ _ => rfl) rfl
  have hsignal := hpart (·.stats.lossOfSignalCount) (FcHost.value · .lossOfSignalCount 0)
    (fun _ _ => rfl) rfl
  have hsync := hpart (·.stats.lossOfSyncCount) (FcHost.value · .lossOfSyncCount 0)
    (fun _ _ => rfl) rfl
  rw [hones] at hports
  rw [sum_online] at honline
  rw [fcHostStatus, hrun]
  simp only [Except.ok_bind, fcTotals, ← hports, ← honline, ← hrx, ← htx, ← herror, ← hcrc, ← hlink,
    ← hsignal, ← hsync]
  rfl

/-- The counts are right and the totals are sums, in whatever order the hosts are found. -/
def TotalsAreSums (slot : UInt64) (count : UInt32) (hosts : List FcHost) : Prop :=
  hosts.countP FcHost.online ≤ hosts.length ∧
  ∀ hosts', hosts'.Perm hosts →
    fcHostStatus slot count hosts' .zero
      = .ok (hosts.length, hosts.countP FcHost.online, fcTotals count hosts)

/-- The totals are the sums over the hosts exactly if each of them has a state that can be read and
an `int` can count them. -/
theorem totalsAreSums_iff (slot : UInt64) (count : UInt32) {hosts : List FcHost}
    (hread : ∀ host ∈ hosts, host.Readable) :
    TotalsAreSums slot count hosts ↔
      (∀ host ∈ hosts, host.portState.isSome) ∧ hosts.length < 2 ^ 31 := by
  constructor
  · rintro ⟨-, h⟩
    have hrun := h hosts (List.Perm.refl hosts)
    obtain ⟨s, hfold, -⟩ := Except.bind_eq_ok.1 hrun
    simpa using forall_of_foldlM_fcHostStep slot count hfold (by norm_num)
  · rintro ⟨hstate, hlen⟩
    refine ⟨List.countP_le_length, ?_⟩
    intro hosts' hperm
    rw [fcHostStatus_eq slot count (fun host hhost => hread host (hperm.subset hhost))
      (fun host hhost => hstate host (hperm.subset hhost)) (hperm.length_eq ▸ hlen),
      hperm.length_eq, hperm.countP_eq, fcTotals_perm count hperm]

/-- A host that receives two frames between two readings for each that it sends. -/
def busyFcHost (dName portState : CString) (sent errors : UInt64) : FcHost where
  dName := dName
  portState := some portState
  statistic
    | .rxFrames, k => some (5 + 2 * sent * UInt64.ofNat k)
    | .txFrames, k => some (7 + sent * UInt64.ofNat k)
    | .errorFrames, _ => some errors
    | .lossOfSyncCount, _ => some (errors + 1)
    | _, _ => some 0

lemma busyFcHost_readable (dName portState : CString) (sent errors : UInt64) :
    (busyFcHost dName portState sent errors).Readable := by
  intro which k
  cases which <;> rfl

def busyFcHosts : List FcHost :=
  [busyFcHost (ascii "host0") (ascii "Online") 100 2,
    busyFcHost (ascii "host1") (ascii "Linkdown") 0 9,
    busyFcHost (ascii "host2") (ascii "Online") 30 0]

theorem busyFcHosts_totalsAreSums :
    TotalsAreSums 0 3 busyFcHosts ∧ fcTotals 3 busyFcHosts = ⟨260, 130, 11, 0, 0, 0, 14⟩ := by
  refine ⟨(totalsAreSums_iff 0 3 ?_).2 ⟨?_, by decide⟩, by decide⟩
  · simp [busyFcHosts, busyFcHost_readable]
  · simp [busyFcHosts, busyFcHost]

/-- A host whose statistics are all 1. -/
def fcHostOfState (portState : Option CString) : FcHost where
  dName := ascii "host0"
  portState := portState
  statistic _ _ := some 1

/-- A host without a readable state. -/
theorem stateless_not_totalsAreSums : ¬ TotalsAreSums 0 2 [fcHostOfState none] := by
  rintro ⟨-, h⟩
  have hrun : fcHostStatus 0 2 [fcHostOfState none] .zero = .error .undefined := rfl
  have hok := h [fcHostOfState none] (List.Perm.refl _)
  rw [hrun] at hok
  cases hok

end NagiosPlugins
