import NagiosPlugins.Common
import NagiosPlugins.Libc.Strtod

/-!
# Thresholds

The range parser and the status decision of `lib/thresholds.c`.
-/

namespace NagiosPlugins

open Libc

/-- `NP_RANGE_OUTSIDE` (the default) or `NP_RANGE_INSIDE`. -/
inductive AlertOn where
  | outside
  | inside
  deriving DecidableEq, Repr

/-- `struct range_struct`. -/
structure Range where
  start : Double
  end_ : Double
  startInfinity : Bool
  endInfinity : Bool
  alertOn : AlertOn
  deriving DecidableEq, Repr

/-- `struct thresholds_struct`; `none` is a NULL pointer. -/
structure Thresholds where
  warning : Option Range
  critical : Option Range
  deriving DecidableEq, Repr

/-- Whether an alert should be raised based on the range. -/
def checkRange (value : Double) (myRange : Range) : Bool :=
  let (no, yes) :=
    match myRange.alertOn with
    | .inside  => (true, false)
    | .outside => (false, true)
  if myRange.endInfinity = false ∧ myRange.startInfinity = false then
    if myRange.start.le value ∧ value.le myRange.end_ then no else yes
  else if myRange.startInfinity = false ∧ myRange.endInfinity = true then
    if myRange.start.le value then no else yes
  else if myRange.startInfinity = true ∧ myRange.endInfinity = false then
    if value.le myRange.end_ then no else yes
  else no

def getStatus (value : Double) (myThresholds : Thresholds) : Nagstatus :=
  if myThresholds.critical.any (checkRange value) then .critical
  else if myThresholds.warning.any (checkRange value) then .warning
  else .ok

def setRangeStart (this : Range) (value : Double) : Range :=
  { this with start := value, startInfinity := false }

def setRangeEnd (this : Range) (value : Double) : Range :=
  { this with end_ := value, endInfinity := false }

/-- The range `parse_range_string` starts from. -/
def Range.defaults : Range where
  start := .fin 0
  startInfinity := false
  end_ := .fin 0
  endInfinity := true
  alertOn := .outside

/-- First part of `parse_range_string`: the `@`. -/
def parseAlertOn (tempRange : Range) (str : CString) : Range × CString :=
  if str.head? = some ('@' : UInt8) then ({ tempRange with alertOn := .inside }, str.tail)
  else (tempRange, str)

/-- Second part of `parse_range_string`: what stands before the colon, and `end_str`. -/
def parseStart (tempRange : Range) (str : CString) : Range × CString :=
  match strchr str ':' with
  | some endStr =>
    if str.head? = some ('~' : UInt8) then
      ({ tempRange with startInfinity := true }, endStr.tail)
    -- the scan stops at the ':' at the latest
    else (setRangeStart tempRange (strtod str).1, endStr.tail)
  | none => (tempRange, str)

/-- Third part of `parse_range_string`: the end of the range. -/
def parseEnd (tempRange : Range) (endStr : CString) : Range :=
  if endStr ≠ [] then setRangeEnd tempRange (strtod endStr).1 else tempRange

/-- The range that `parse_range_string` has filled in before it looks at the order of bounds. -/
def readRange (str : CString) : Range :=
  let (tempRange, str) := parseAlertOn Range.defaults str
  let (tempRange, endStr) := parseStart tempRange str
  parseEnd tempRange endStr

/-- The last test of `parse_range_string`. -/
def Range.Ordered (r : Range) : Prop :=
  r.startInfinity = true ∨ r.endInfinity = true ∨ r.start.le r.end_ = true

instance (r : Range) : Decidable r.Ordered :=
  inferInstanceAs (Decidable (_ ∨ _ ∨ _))

def parseRangeString (str : CString) : Option Range :=
  if (readRange str).Ordered then some (readRange str) else none

/-- The return code for a range that cannot be parsed. -/
def npRangeUnparseable : ℕ := 1

/-- The return code, and what `*my_thresholds` holds afterwards. -/
def setThresholds (myThresholds : Option Thresholds) (warnString criticalString : Option CString) :
    ℕ × Option Thresholds :=
  let warning := warnString.map parseRangeString
  if warning = some none then (npRangeUnparseable, myThresholds)
  else
    let critical := criticalString.map parseRangeString
    if critical = some none then (npRangeUnparseable, myThresholds)
    else (0, some { warning := warning.join, critical := critical.join })

end NagiosPlugins
