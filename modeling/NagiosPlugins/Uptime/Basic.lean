import NagiosPlugins.Common
import NagiosPlugins.Libc.Printf
import NagiosPlugins.Libc.Snprintf
import NagiosPlugins.Libc.Truncate

/-!
# The uptime plugin

`sprint_uptime` of `plugins/check_uptime.c`. The buffer is static: it holds whatever a call before
has left there.
-/

namespace NagiosPlugins

open Libc

/-- `BUFSIZE`; the buffer has one byte more. -/
def bufsize : ℕ := 0x80

/-- `snprintf` into the buffer. -/
def printInto (buf : List UInt8) (pos size : ℕ) (text : CString) :
    Except Stop (List UInt8 × ℕ) :=
  match snprintf buf pos size text with
  | none => .error .outOfBounds
  | some printed => .ok printed

/-- `BUFSIZE - pos` as a `size_t`. -/
def sizeLeft (pos : ℕ) : ℕ := (toUnsigned (bufsize - pos)).toNat

/-- A number and a unit, which is in the plural unless the number is 1. -/
def countText (n : ℤ) (unit : CString) : CString :=
  signedDecimal n ++ ascii " " ++ unit ++ if n ≠ 1 then ascii "s" else []

/-- `"%d day%s "`, if there are days, and what is added to `pos`. -/
def printDays (buf : List UInt8) (updays : ℤ) : Except Stop (List UInt8 × ℕ) :=
  if updays ≠ 0 then printInto buf 0 bufsize (countText updays (ascii "day") ++ ascii " ")
  else .ok (buf, 0)

/-- `"%d hour%s %d min"` or `"%d min"`. -/
def hoursText (uphours upminutes : ℤ) : CString :=
  if uphours ≠ 0 then
    countText uphours (ascii "hour") ++ ascii " " ++ signedDecimal upminutes ++ ascii " min"
  else signedDecimal upminutes ++ ascii " min"

/-- `sprint_uptime`: the buffer afterwards. -/
def sprintUptime (buf : List UInt8) (uptimeSecs : Double) : Except Stop (List UInt8) :=
  match uptimeSecs.toInt32? with
  | none => .error .undefined
  | some secs => do
    let updays := secs.tdiv (60 * 60 * 24)
    let (buf, pos) ← printDays buf updays
    let upminutes := secs.tdiv 60
    let uphours := upminutes.tdiv 60
    let uphours := uphours.tmod 24
    let upminutes := upminutes.tmod 60
    let (buf, _) ← printInto buf pos (sizeLeft pos) (hoursText uphours upminutes)
    return buf

end NagiosPlugins
