import NagiosPlugins.Libc.Truncate
import NagiosPlugins.Thresholds.Basic

/-!
# Limits in the performance data

The limits that `lib/perfdata.c` computes from a threshold, the conversion between units of
`include/units.h`, and how `plugins/check_memory.c` uses them.
-/

namespace NagiosPlugins

open Libc

/-- `unit_shift`. -/
inductive UnitShift where
  | bShift
  | kShift
  | mShift
  | gShift
  deriving DecidableEq, Repr

def UnitShift.bits : UnitShift → UInt64
  | .bShift => 0
  | .kShift => 10
  | .mShift => 20
  | .gShift => 30

/-- `UNIT_CONVERT`: a number of kilobytes in another unit. -/
def unitConvert (x : UInt64) (shift : UnitShift) : UInt64 :=
  (x <<< UnitShift.kShift.bits) >>> shift.bits

/-- The cast to `unsigned long long`. -/
def toUnsignedLongLong (x : Double) : Except Stop UInt64 :=
  match x.toUInt64? with
  | some n => .ok n
  | none => .error .undefined

/-- The return code, and what `*limit` holds afterwards. -/
def getPerfdataLimit (threshold : Option Range) (base limit : UInt64) (percent : Bool) :
    Except Stop (ℤ × UInt64) :=
  match threshold with
  | none => .ok (-1, limit)
  | some threshold =>
    -- @10:20
    if threshold.alertOn = .inside then .ok (-1, limit)
    -- ~:10
    else if threshold.startInfinity then .ok (-1, limit)
    else do
      let thresholdLimit := if threshold.endInfinity then threshold.start else threshold.end_
      let limit ← toUnsignedLongLong (thresholdLimit.natMul base.toNat)
      if percent then
        let limit ← toUnsignedLongLong (.fin (limit.toNat / 100))
        return (0, limit)
      else return (0, limit)

def getPerfdataLimitConverted (threshold : Option Range) (base : UInt64) (shift : UnitShift)
    (limit : UInt64) (percent : Bool) : Except Stop (ℤ × UInt64) := do
  let (error, limit) ← getPerfdataLimit threshold base limit percent
  if 0 ≠ error then return (error, limit)
  else return (0, unitConvert limit shift)

/-! ### check_memory -/

/-- `mem_percent`, which the status is decided on. -/
def memPercent (kbMemMonitored kbMemMainTotal : UInt64) : Double :=
  if kbMemMainTotal ≠ 0 then .fin (kbMemMonitored.toNat * 100 / kbMemMainTotal.toNat) else .fin 0

/-- The limit that is printed for a threshold, if there is one; `limit` is what the variable for it
holds at first. -/
def memMonitoredLimit (threshold : Option Range) (kbMemMainTotal : UInt64) (shift : UnitShift)
    (limit : UInt64) : Except Stop (Option UInt64) := do
  let (error, limit) ← getPerfdataLimitConverted threshold kbMemMainTotal shift limit true
  return if 0 = error then some limit else none

end NagiosPlugins
