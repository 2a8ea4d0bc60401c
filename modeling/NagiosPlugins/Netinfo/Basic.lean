import NagiosPlugins.Common

/-!
# Network interfaces

The interface statistics of `lib/netinfo.c`. A list of interfaces is the list of its entries; the
two snapshots that `netinfo` takes are parameters.
-/

namespace NagiosPlugins

open Libc

/-- `struct ifstats`. -/
structure Ifstats where
  txPackets : UInt32
  rxPackets : UInt32
  txBytes : UInt32
  rxBytes : UInt32
  txErrors : UInt32
  rxErrors : UInt32
  txDropped : UInt32
  rxDropped : UInt32
  collisions : UInt32
  multicast : UInt32
  deriving DecidableEq, Repr

/-- The duplex as defined in `linux/ethtool.h`. -/
inductive Duplex where
  | half
  | full
  | unknown
  deriving DecidableEq, Repr

/-- An entry of `struct iflist`. -/
structure Iflist where
  ifname : CString
  duplex : Duplex
  speed : UInt32
  flags : UInt32
  stats : Option Ifstats
  deriving DecidableEq, Repr

/-! ### Options and flags -/

def checkLink : UInt32 := (1 : UInt32) <<< 0
def noLoopback : UInt32 := (1 : UInt32) <<< 1
def noWireless : UInt32 := (1 : UInt32) <<< 2
def noBytes : UInt32 := (1 : UInt32) <<< 3
def noCollisions : UInt32 := (1 : UInt32) <<< 4
def noDrops : UInt32 := (1 : UInt32) <<< 4
def noErrors : UInt32 := (1 : UInt32) <<< 5
def noMulticast : UInt32 := (1 : UInt32) <<< 6
def noPackets : UInt32 := (1 : UInt32) <<< 7
def rxOnly : UInt32 := (1 : UInt32) <<< 8
def txOnly : UInt32 := (1 : UInt32) <<< 9

def iffUp : UInt32 := 0x1
def iffRunning : UInt32 := 0x40

def ifFlagsUp (flags : UInt32) : Bool := flags &&& iffUp ≠ 0

def ifFlagsRunning (flags : UInt32) : Bool := flags &&& iffRunning ≠ 0

/-! ### Rates -/

/-- `DIV (a, b)`, in exact arithmetic. -/
def divCeil (seconds a b : UInt32) : UInt32 :=
  UInt32.ofNat ⌈((b - a).toNat : ℚ) / seconds.toNat⌉₊

/-- The counters per second between two snapshots. -/
def Ifstats.rates (seconds : UInt32) (stats stats2 : Ifstats) : Ifstats where
  txPackets := divCeil seconds stats.txPackets stats2.txPackets
  rxPackets := divCeil seconds stats.rxPackets stats2.rxPackets
  txBytes := divCeil seconds stats.txBytes stats2.txBytes
  rxBytes := divCeil seconds stats.rxBytes stats2.rxBytes
  txErrors := divCeil seconds stats.txErrors stats2.txErrors
  rxErrors := divCeil seconds stats.rxErrors stats2.rxErrors
  txDropped := divCeil seconds stats.txDropped stats2.txDropped
  rxDropped := divCeil seconds stats.rxDropped stats2.rxDropped
  collisions := divCeil seconds stats.collisions stats2.collisions
  multicast := divCeil seconds stats.multicast stats2.multicast

/-- A link that `CHECK_LINK` reports. -/
def linkFails (options flags : UInt32) : Bool :=
  options &&& checkLink ≠ 0 && !(ifFlagsUp flags && ifFlagsRunning flags)

/-- The entry with its counters per second, if it has any. -/
def convertStats (seconds : UInt32) (ifl ifl2 : Iflist) : Except Stop Iflist :=
  match ifl.stats, ifl2.stats with
  | none, _ => .ok ifl
  | some stats, some stats2 => .ok { ifl with stats := some (stats.rates seconds stats2) }
  | some _, none => .error .undefined

/-- The body of the loop over both snapshots. -/
def netinfoEntry (options seconds : UInt32) (ifl ifl2 : Iflist) : Except Stop Iflist :=
  if ifl.ifname ≠ ifl2.ifname then
    .error (.pluginError .unknown "bug in netinfo(), please contact the developers")
  else do
    let ifl ← convertStats seconds ifl ifl2
    if linkFails options ifl.flags then
      .error (.pluginError .critical (text ifl.ifname ++
        " matches the given regular expression but is not UP and RUNNING!"))
    else .ok ifl

/-- The loop stops at the end of the shorter list. The result is the first list, and the number
of iterations. -/
def netinfoLoop (options seconds : UInt32) :
    List Iflist → List Iflist → Except Stop (List Iflist × ℕ)
  | ifl :: iflhead, ifl2 :: iflhead2 => do
    let ifl ← netinfoEntry options seconds ifl ifl2
    let (iflhead, n) ← netinfoLoop options seconds iflhead iflhead2
    return (ifl :: iflhead, n + 1)
  | iflhead, _ => .ok (iflhead, 0)

/-- `netinfo`: the list of interfaces and `*ninterfaces`, which is only set if `seconds` is
positive. `regerror` is the message if the regular expression cannot be compiled. -/
def netinfo (options : UInt32) (regerror : Option String) (seconds : UInt32)
    (snapshot snapshot2 : List Iflist) (ninterfaces : ℕ) : Except Stop (List Iflist × ℕ) :=
  match regerror with
  | some msgbuf =>
    .error (.pluginError .unknown ("could not compile regex: " ++ msgbuf))
  | none =>
    if seconds > 0 then netinfoLoop options seconds snapshot snapshot2
    else .ok (snapshot, ninterfaces)

/-! ### Accessors -/

/-- `__iflist_get__`. -/
def iflistGet (arg : Ifstats → UInt32) (ifentry : Iflist) : UInt32 :=
  (ifentry.stats.map arg).getD 0

def iflistGetCollisions : Iflist → UInt32 := iflistGet Ifstats.collisions
def iflistGetMulticast : Iflist → UInt32 := iflistGet Ifstats.multicast
def iflistGetTxPackets : Iflist → UInt32 := iflistGet Ifstats.txPackets
def iflistGetRxPackets : Iflist → UInt32 := iflistGet Ifstats.rxPackets
def iflistGetTxBytes : Iflist → UInt32 := iflistGet Ifstats.txBytes
def iflistGetRxBytes : Iflist → UInt32 := iflistGet Ifstats.rxBytes
def iflistGetTxErrors : Iflist → UInt32 := iflistGet Ifstats.txErrors
def iflistGetRxErrors : Iflist → UInt32 := iflistGet Ifstats.rxErrors
def iflistGetTxDropped : Iflist → UInt32 := iflistGet Ifstats.txDropped
def iflistGetRxDropped : Iflist → UInt32 := iflistGet Ifstats.rxDropped

/-! ### `--ifname-debug` -/

/-- What `print_ifname_debug` prints for an interface: the title, and the keys of each line. -/
structure IfnameDebug where
  title : CString
  lines : List (List CString)

/-- `__printf_tx_rx__`: the keys of a line. -/
def printfTxRx (ifname metric : CString) (txOnly rxOnly : Bool) : List CString :=
  (if rxOnly then [] else [ifname ++ ascii "_tx" ++ metric])
    ++ if txOnly then [] else [ifname ++ ascii "_rx" ++ metric]

def ifnameDebugTitle (ifl : Iflist) : CString :=
  let ifUp := ifFlagsUp ifl.flags
  let ifRunning := ifFlagsRunning ifl.flags
  ifl.ifname
    ++ (if ifUp && !ifRunning then ascii " (NO-CARRIER)" else if ifUp then [] else ascii " (DOWN)")
    ++ (if ifl.speed > 0 then ascii (" link-speed:" ++ toString ifl.speed ++ "Mbps") else [])
    ++ match ifl.duplex with
      | .half => ascii " half-duplex"
      | .full => ascii " full-duplex"
      | .unknown => []

def ifnameDebugLines (options : UInt32) (ifl : Iflist) : List (List CString) :=
  let pdBytes := options &&& noBytes ≠ noBytes
  let pdCollisions := options &&& noCollisions ≠ noCollisions
  let pdDrops := options &&& noDrops ≠ noDrops
  let pdErrors := options &&& noErrors ≠ noErrors
  let pdMulticast := options &&& noMulticast ≠ noMulticast
  let pdPackets := options &&& noPackets ≠ noPackets
  let rxOnly := options &&& rxOnly ≠ 0
  let txOnly := options &&& txOnly ≠ 0
  if ifl.stats.isSome then
    (if pdBytes then [printfTxRx ifl.ifname (ascii "byte/s") txOnly rxOnly] else [])
      ++ (if pdErrors then [printfTxRx ifl.ifname (ascii "err/s") txOnly rxOnly] else [])
      ++ (if pdDrops then [printfTxRx ifl.ifname (ascii "drop/s") txOnly rxOnly] else [])
      ++ (if pdPackets then [printfTxRx ifl.ifname (ascii "pck/s") txOnly rxOnly] else [])
      ++ (if pdCollisions then [[ifl.ifname ++ ascii "_coll/s"]] else [])
      ++ (if pdMulticast then [[ifl.ifname ++ ascii "_mcast/s"]] else [])
  else []

def printIfnameDebug (iflhead : List Iflist) (options : UInt32) : List IfnameDebug :=
  iflhead.map fun ifl => ⟨ifnameDebugTitle ifl, ifnameDebugLines options ifl⟩

end NagiosPlugins
