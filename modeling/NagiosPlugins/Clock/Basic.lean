import NagiosPlugins.Libc.Printf
import NagiosPlugins.Thresholds.Basic

/-!
# The clock plugin

`get_timedelta` and `main` of `plugins/check_clock.c`, and `strtol_or_err` of `lib/xstrton.c`.
-/

namespace NagiosPlugins

open Libc

/-- `strtol_or_err`. -/
def strtolOrErr (str : CString) (errmesg : String) : Except Stop ℤ :=
  let num := strtolEnd str
  if str ≠ [] ∧ num.erange = false ∧ num.endptr ≠ str ∧ num.endptr = [] then .ok num.value
  else .error (.pluginError .unknown (errmesg ++ ": '" ++ text str ++ "'"))

/-- `strftime (s, max, "%s", ...)` for the local time at `rawtime`: the seconds since the Epoch, if
there is room for them. -/
def strftimeSeconds (max : ℕ) (rawtime : Int64) : Option CString :=
  let out := signedDecimal rawtime.toInt
  if out.length < max then some out else none

/-- What `get_timedelta` prints and returns. -/
structure Timedelta where
  printed : CString
  /-- The `int` that is returned. -/
  value : ℤ
  deriving DecidableEq, Repr

/-- `get_timedelta`, at the time `rawtime`. -/
def getTimedelta (rawtime : Int64) (refclock : UInt64) (verbose : Bool) :
    Except Stop Timedelta :=
  match strftimeSeconds 32 rawtime with
  | none => .error (.pluginError .unknown "strftime() failed")
  | some outstr =>
    -- a `long` and an `unsigned long` are subtracted as `unsigned long`
    let timedelta := (toUnsigned (strtol outstr) - refclock).toInt64.toInt
    let printed :=
      if verbose then
        ascii "Seconds since the Epoch: " ++ outstr ++ ascii "\n" ++ ascii "Refclock: "
          ++ decimal refclock.toNat ++ ascii "  -->  Delta: " ++ signedDecimal timedelta
          ++ ascii "\n"
      else []
    .ok { printed, value := toInt (toUnsigned timedelta) }

/-- The options of the command line. -/
structure ClockOptions where
  refclock : Option CString
  critical : Option CString
  warning : Option CString
  verbose : Bool
  deriving DecidableEq, Repr

/-- What the plugin reports. -/
structure ClockReport where
  timedelta : Timedelta
  /-- The value that is handed to `get_status`. -/
  value : ℤ
  status : Nagstatus
  deriving DecidableEq, Repr

/-- The reference clock of the option, or the mark that there is none. -/
def optionRefclock : Option CString → Except Stop UInt64
  | none => .ok (-1)
  | some optarg => do return toUnsigned (← strtolOrErr optarg "the option '-s' requires an integer")

/-- `main`, at the time `rawtime`; there is no report if the usage is printed instead. -/
def checkClock (rawtime : Int64) (options : ClockOptions) : Except Stop (Option ClockReport) := do
  let refclock ← optionRefclock options.refclock
  if refclock = -1 then return none
  let (status, myThreshold) := setThresholds none options.warning options.critical
  if status = npRangeUnparseable then return none
  match myThreshold with
  | none => throw .undefined
  | some myThreshold =>
    let timedelta ← getTimedelta rawtime refclock options.verbose
    let value := |timedelta.value|
    return some { timedelta, value, status := getStatus (.fin value) myThreshold }

end NagiosPlugins
