import NagiosPlugins.Common
import NagiosPlugins.Data.TwoSlots

/-!
# Fibre Channel ports

`fc_host_status` of `plugins/check_fc.c`.
-/

namespace NagiosPlugins

open Libc

/-- The statistics of a host. -/
inductive FcStatistic where
  | rxFrames
  | txFrames
  | errorFrames
  | invalidCrcCount
  | linkFailureCount
  | lossOfSignalCount
  | lossOfSyncCount
  deriving DecidableEq, Repr

/-- The argument of `fc_get_stat`. -/
def FcStatistic.name : FcStatistic → String
  | .rxFrames => "rx_frames"
  | .txFrames => "tx_frames"
  | .errorFrames => "error_frames"
  | .invalidCrcCount => "invalid_crc_count"
  | .linkFailureCount => "link_failure_count"
  | .lossOfSignalCount => "loss_of_signal_count"
  | .lossOfSyncCount => "loss_of_sync_count"

/-- An entry of the directory of the hosts: the line of its `port_state`, where `none` is NULL, and
for each statistic what is read the first time, the second time and so on, where `none` is an
error. -/
structure FcHost where
  dName : CString
  portState : Option CString
  statistic : FcStatistic → ℕ → Option UInt64

/-- `PATH_SYS_FC_HOST`. -/
def pathSysFcHost : String := "/sys/class/fc_host"

/-- `fc_host_get_statistic`. -/
def fcHostGetStatistic (host : FcHost) (which : FcStatistic) (k : ℕ) : Except Stop UInt64 :=
  match host.statistic which k with
  | none => .error (.pluginError .unknown ("an error has occurred while reading " ++ pathSysFcHost
      ++ "/" ++ text host.dName ++ "/statistics/" ++ which.name))
  | some value => .ok value

/-- `fc_host_statistics`. -/
structure FcHostStatistics where
  rxFrames : UInt64
  txFrames : UInt64
  errorFrames : UInt64
  invalidCrcCount : UInt64
  linkFailureCount : UInt64
  lossOfSignalCount : UInt64
  lossOfSyncCount : UInt64
  deriving DecidableEq, Repr

/-- `n++` for an `int`. -/
def increment (n : ℤ) : Except Stop ℤ := if n + 1 < 2 ^ 31 then .ok (n + 1) else .error .undefined

/-- `if (STREQ (line, "Online")) (*n_online)++;` -/
def countOnline (line : Option CString) (nOnline : ℤ) : Except Stop ℤ :=
  match line with
  | none => .error .undefined
  | some line => if line = ascii "Online" then increment nOnline else .ok nOnline

/-- The variables of the loop that samples one host. -/
structure FcSampling where
  rxFrames : TwoSlots UInt64
  txFrames : TwoSlots UInt64
  stats : FcHostStatistics

/-- Turn `i` of that loop, in front of which the plugin sleeps. -/
def fcSamplingStep (host : FcHost) (s : FcSampling) (i : ℕ) : Except Stop FcSampling := do
  let rxFrames := s.rxFrames.push (← fcHostGetStatistic host .rxFrames i)
  let stats := { s.stats with rxFrames := rxFrames.latest - rxFrames.other }
  let txFrames := s.txFrames.push (← fcHostGetStatistic host .txFrames i)
  return ⟨rxFrames, txFrames, { stats with txFrames := txFrames.latest - txFrames.other }⟩

/-- The variables of the loop over the hosts. -/
structure FcStatus where
  nPorts : ℤ
  nOnline : ℤ
  stats : FcHostStatistics
  drxFramesTot : UInt64
  dtxFramesTot : UInt64
  deriving DecidableEq, Repr

/-- The body of the loop over the hosts; `slot` is what `rx_frames[1]` and `tx_frames[1]` hold at
first. -/
def fcHostStep (slot : UInt64) (count : UInt32) (s : FcStatus) (host : FcHost) :
    Except Stop FcStatus := do
  let nPorts ← increment s.nPorts
  let nOnline ← countOnline host.portState s.nOnline
  let rxFrames ← fcHostGetStatistic host .rxFrames 0
  let txFrames ← fcHostGetStatistic host .txFrames 0
  let sampling ← (List.range' 1 (count.toNat - 1)).foldlM (fcSamplingStep host)
    ⟨.start slot rxFrames, .start slot txFrames, { s.stats with rxFrames, txFrames }⟩
  let stats := sampling.stats
  let stats := { stats with
    errorFrames := stats.errorFrames + (← fcHostGetStatistic host .errorFrames 0)
    invalidCrcCount := stats.invalidCrcCount + (← fcHostGetStatistic host .invalidCrcCount 0)
    linkFailureCount := stats.linkFailureCount + (← fcHostGetStatistic host .linkFailureCount 0)
    lossOfSignalCount := stats.lossOfSignalCount + (← fcHostGetStatistic host .lossOfSignalCount 0)
    lossOfSyncCount := stats.lossOfSyncCount + (← fcHostGetStatistic host .lossOfSyncCount 0) }
  return { nPorts, nOnline, stats
           drxFramesTot := s.drxFramesTot + stats.rxFrames
           dtxFramesTot := s.dtxFramesTot + stats.txFrames }

/-- `fc_host_status` with the entries that it finds: `*n_ports`, `*n_online` and `*stats`. -/
def fcHostStatus (slot : UInt64) (count : UInt32) (hosts : List FcHost) (stats : FcHostStatistics) :
    Except Stop (ℤ × ℤ × FcHostStatistics) := do
  let s ← hosts.foldlM (fcHostStep slot count) ⟨0, 0, stats, 0, 0⟩
  return (s.nPorts, s.nOnline,
    { s.stats with rxFrames := s.drxFramesTot, txFrames := s.dtxFramesTot })

/-- How `main` initialises the statistics. -/
def FcHostStatistics.zero : FcHostStatistics := ⟨0, 0, 0, 0, 0, 0, 0⟩

end NagiosPlugins
