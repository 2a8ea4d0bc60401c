import Mathlib.Order.Basic
import NagiosPlugins.Network.Basic
import NagiosPlugins.Thresholds.Basic

/-!
# The status of the network plugin

The loop of `main` in `plugins/check_network.c`: the counter of each interface that is compared
with the thresholds, and the worst status over all interfaces.
-/

namespace NagiosPlugins

open Libc

/-! ### Exit states -/

/-- The value of the enumeration. -/
def Nagstatus.code : Nagstatus → ℕ
  | .ok => 0
  | .warning => 1
  | .critical => 2
  | .unknown => 3
  | .dependent => 4

lemma Nagstatus.code_injective : Function.Injective Nagstatus.code := by
  intro x y h
  cases x <;> cases y <;> first | rfl | cases h

instance : LinearOrder Nagstatus := LinearOrder.lift' Nagstatus.code Nagstatus.code_injective

/-! ### The counter -/

/-- `network_check`; the default are the bytes. -/
inductive NetworkCheck where
  | bytes
  | collisions
  | dropped
  | errors
  | multicast
  deriving DecidableEq, Repr

/-- `get_threshold_metric`; the sum is one of 32 bits. -/
def getThresholdMetric (tx rx : UInt32) (txOnly rxOnly : Bool) : UInt32 :=
  (if txOnly then 0 else rx) + if rxOnly then 0 else tx

/-- The counter that `get_status` is called with. -/
def thresholdCounter (ratio : UInt32 → UInt64 → ℚ) (s : NetworkSettings) (check : NetworkCheck)
    (speed : UInt64) (ifl : Iflist) : ℚ :=
  match check with
  | .bytes =>
    let counter :=
      getThresholdMetric (iflistGetTxBytes ifl) (iflistGetRxBytes ifl) s.txOnly s.rxOnly
    if s.reportPerc && speed > 0 then ratio counter speed else counter.toNat
  | .collisions => (iflistGetCollisions ifl).toNat
  | .dropped =>
    (getThresholdMetric (iflistGetTxDropped ifl) (iflistGetRxDropped ifl) s.txOnly s.rxOnly).toNat
  | .errors =>
    (getThresholdMetric (iflistGetTxErrors ifl) (iflistGetRxErrors ifl) s.txOnly s.rxOnly).toNat
  | .multicast => (iflistGetMulticast ifl).toNat

/-! ### The loop over the interfaces -/

/-- The `speed` that an iteration works with. -/
def iterationSpeed (ifl : Iflist) : UInt64 :=
  if ifl.duplex = .half then linkSpeed ifl / 2 else linkSpeed ifl

/-- An iteration: the status of the interface, and what it adds to the performance data. -/
def networkIteration (s : NetworkSettings) (check : NetworkCheck) (myThreshold : Thresholds)
    (ifl : Iflist) : Except Stop (Nagstatus × List NetworkEntry) := do
  -- the test of the speed, which comes first, is all that can stop an iteration
  let entries ← interfacePerfdata ratioOverSpeedRounded s ifl
  let counter := thresholdCounter ratioOverSpeedRounded s check (iterationSpeed ifl) ifl
  return (getStatus (.fin counter) myThreshold, entries)

def networkLoop (s : NetworkSettings) (check : NetworkCheck) (myThreshold : Thresholds) :
    List Iflist → Nagstatus → Except Stop (Nagstatus × List NetworkEntry)
  | [], status => .ok (status, [])
  | ifl :: iflhead, status => do
    let (ifaceStatus, entries) ← networkIteration s check myThreshold ifl
    let status := if ifaceStatus > status then ifaceStatus else status
    let (status, perfdata) ← networkLoop s check myThreshold iflhead status
    return (status, entries ++ perfdata)

/-- `main` from the thresholds on: the exit status and the performance data. -/
def checkNetwork (s : NetworkSettings) (check : NetworkCheck) (myThreshold : Thresholds)
    (iflhead : List Iflist) (ninterfaces : ℕ) : Except Stop (Nagstatus × List NetworkEntry) := do
  let (status, perfdata) ← networkLoop s check myThreshold iflhead .ok
  return (if ninterfaces < 1 then .unknown else status, perfdata)

end NagiosPlugins
