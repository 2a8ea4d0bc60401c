import NagiosPlugins.Libc.Binary64
import NagiosPlugins.Netinfo.Basic

/-!
# The network plugin

The command line of `plugins/check_network.c` and the performance data it prints for an
interface.
-/

namespace NagiosPlugins

open Libc

/-- The options of the command line. -/
inductive NetworkOption where
  | ifnameDebug
  | noBytes
  | noCollisions
  | critical (optarg : CString)
  | noDrops
  | noErrors
  | ifname (optarg : CString)
  | checkLink
  | noLoopback
  | noMulticast
  | noPackets
  | rxOnly
  | txOnly
  | noWireless
  | warning (optarg : CString)
  | perc
  deriving DecidableEq, Repr

/-- The variables that the options set. -/
structure NetworkSettings where
  ifnameDebug : Bool := false
  pdBytes : Bool := true
  pdCollisions : Bool := true
  pdDrops : Bool := true
  pdErrors : Bool := true
  pdMulticast : Bool := true
  pdPackets : Bool := true
  reportPerc : Bool := false
  rxOnly : Bool := false
  txOnly : Bool := false
  critical : Option CString := none
  warning : Option CString := none
  ifnameRegex : Option CString := none
  options : UInt32 := 0
  deriving DecidableEq, Repr

/-- The `switch` of the `getopt_long` loop. -/
def NetworkSettings.set (s : NetworkSettings) : NetworkOption → NetworkSettings
  | .ifnameDebug => { s with ifnameDebug := true }
  | .noBytes => { s with options := s.options ||| noBytes, pdBytes := false }
  | .noCollisions => { s with options := s.options ||| noCollisions, pdCollisions := false }
  | .critical optarg => { s with critical := some optarg }
  | .noDrops => { s with options := s.options ||| noDrops, pdDrops := false }
  | .noErrors => { s with options := s.options ||| noErrors, pdErrors := false }
  | .ifname optarg => { s with ifnameRegex := some optarg }
  | .checkLink => { s with options := s.options ||| checkLink }
  | .noLoopback => { s with options := s.options ||| noLoopback }
  | .noMulticast => { s with options := s.options ||| noMulticast, pdMulticast := false }
  | .noPackets => { s with options := s.options ||| noPackets, pdPackets := false }
  | .rxOnly => { s with options := s.options ||| NagiosPlugins.rxOnly, rxOnly := true }
  | .txOnly => { s with options := s.options ||| NagiosPlugins.txOnly, txOnly := true }
  | .noWireless => { s with options := s.options ||| noWireless }
  | .warning optarg => { s with warning := some optarg }
  | .perc => { s with reportPerc := true }

/-- The settings after all options. -/
def networkSettings (opts : List NetworkOption) : NetworkSettings :=
  opts.foldl NetworkSettings.set {}

/-! ### Performance data -/

/-- The value of an entry, a percentage with the maximum 100 or a counter. -/
inductive NetworkValue where
  | percent (value : ℚ)
  | counter (value : UInt32) (max : Option UInt64)
  deriving DecidableEq

/-- One `label=value` of the performance data. -/
structure NetworkEntry where
  label : CString
  value : NetworkValue
  deriving DecidableEq

/-- `ratio_over_speed`, in exact arithmetic. -/
def ratioOverSpeed (counter : UInt32) (speed : UInt64) : ℚ :=
  100 / speed.toNat * counter.toNat

/-- `ratio_over_speed`, where the quotient and the product are doubles. The speed of a link has 32
bits, and so has the counter. -/
def ratioOverSpeedRounded (counter : UInt32) (speed : UInt64) : ℚ :=
  Double.toPlace (Double.toPlace (100 / speed.toNat) * counter.toNat)

-- a quarter of a link of 10 Mbit/s
example : 25 < ratioOverSpeedRounded 312500 1250000 := by decide +kernel

section Perfdata

-- one of the two
variable (ratio : UInt32 → UInt64 → ℚ)

def fmtPerfdataBytes (ifname label : CString) (counter : UInt32) (speed : UInt64) (perc : Bool) :
    NetworkEntry where
  label := ifname ++ ascii "_" ++ label ++ ascii "/s"
  value :=
    if perc && speed > 0 then .percent (ratio counter speed)
    else if !perc && speed > 0 then .counter counter (some speed)
    else .counter counter none

/-- `%s_txerr/s=%u` and the like. -/
def counterEntry (ifname label : CString) (counter : UInt32) : NetworkEntry where
  label := ifname ++ label
  value := .counter counter none

/-- The speed of the link in bytes per second; the product is one of 32 bits. -/
def linkSpeed (ifl : Iflist) : UInt64 :=
  if ifl.speed > 0 then (ifl.speed * 1000 * 1000 / 8).toUInt64 else 0

/-- The entries of an interface, in the order of the counters. -/
def interfaceEntries (s : NetworkSettings) (ifl : Iflist) (speed : UInt64) : List NetworkEntry :=
  let ifname := ifl.ifname
  (if s.pdBytes then
      [fmtPerfdataBytes ratio ifname (ascii "txbyte") (iflistGetTxBytes ifl) speed s.reportPerc,
        fmtPerfdataBytes ratio ifname (ascii "rxbyte") (iflistGetRxBytes ifl) speed s.reportPerc]
    else [])
    ++ (if s.pdErrors then
      [counterEntry ifname (ascii "_txerr/s") (iflistGetTxErrors ifl),
        counterEntry ifname (ascii "_rxerr/s") (iflistGetRxErrors ifl)]
    else [])
    ++ (if s.pdDrops then
      [counterEntry ifname (ascii "_txdrop/s") (iflistGetTxDropped ifl),
        counterEntry ifname (ascii "_rxdrop/s") (iflistGetRxDropped ifl)]
    else [])
    ++ (if s.pdPackets then
      [counterEntry ifname (ascii "_txpck/s") (iflistGetTxPackets ifl),
        counterEntry ifname (ascii "_rxpck/s") (iflistGetRxPackets ifl)]
    else [])
    ++ (if s.pdCollisions then
      [counterEntry ifname (ascii "_coll/s") (iflistGetCollisions ifl)]
    else [])
    ++ (if s.pdMulticast then
      [counterEntry ifname (ascii "_mcast/s") (iflistGetMulticast ifl)]
    else [])

/-- What the loop of `main` writes to the performance data for an interface. -/
def interfacePerfdata (s : NetworkSettings) (ifl : Iflist) : Except Stop (List NetworkEntry) :=
  let speed := linkSpeed ifl
  if s.reportPerc && (s.warning.isSome || s.critical.isSome) && !(speed > 0) then
    .error (.pluginError .unknown ("metrics of " ++ text ifl.ifname
      ++ " cannot be converted into percentages"
      ++ if ifFlagsUp ifl.flags && ifFlagsRunning ifl.flags then
          ": physical speed is not available"
        else ": link is not UP/RUNNING"))
  else
    let speed := if ifl.duplex = .half then speed / 2 else speed
    .ok (interfaceEntries ratio s ifl speed)

end Perfdata

end NagiosPlugins
