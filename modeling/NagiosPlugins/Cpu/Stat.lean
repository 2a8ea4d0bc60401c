import NagiosPlugins.Cpu.Basic
import NagiosPlugins.Libc.Printf
import NagiosPlugins.Libc.Scanf

/-!
# The times of the CPUs

`cpu_stats_get_time` of `lib/cpustats.c`. The number of a CPU goes through an `unsigned int`, where
one that is too large or negative wraps around, and so does the sum with which it is compared.
-/

namespace NagiosPlugins

open Libc

/-- The entries after `memset`. -/
def CpuTime.zero : CpuTime := ⟨none, 0, 0, 0, 0, 0, 0, 0, 0, 0, 0⟩

/-- What `sscanf` leaves behind the pointers to the fields. -/
def CpuTime.assign (t : CpuTime) (values : List Jiff) : CpuTime where
  cpuname := t.cpuname
  user := values[0]?.getD t.user
  nice := values[1]?.getD t.nice
  system := values[2]?.getD t.system
  idle := values[3]?.getD t.idle
  iowait := values[4]?.getD t.iowait
  irq := values[5]?.getD t.irq
  softirq := values[6]?.getD t.softirq
  steal := values[7]?.getD t.steal
  guest := values[8]?.getD t.guest
  guestn := values[9]?.getD t.guestn

/-- Ten times `%llu`, with blanks between. -/
def jiffFormat : List Directive :=
  .integer 10 true :: (List.replicate 9 [Directive.white, .integer 10 true]).flatten

/-- The numbers that are assigned. -/
def sscanfJiffs (format : List Directive) (s : CString) : List Jiff :=
  (sscanf format s).2.filterMap fun arg =>
    match arg with
    | .unsignedLong n => some n
    | _ => none

/-- `cputime[i].cpuname = name`, and the numbers. -/
def fillEntry (cputime : List CpuTime) (i : ℕ) (name : CString) (values : List Jiff) :
    Except Stop (List CpuTime) :=
  if i < cputime.length then
    .ok (cputime.modify i fun t => { t.assign values with cpuname := some name })
  else .error .outOfBounds

/-- Is it the line of all CPUs together? -/
def isTotalLine (line : CString) : Bool := hasPrefix line (ascii "cpu ")

/-- `strtol (line + 3, &endptr, 10)` as an `unsigned int`. -/
def lineCpunum (line : CString) : UInt32 := (toUnsigned (strtol (line.drop 3))).toUInt32

/-- `endptr`, which is the same for `strtoul`. -/
def lineEndptr (line : CString) : CString := (strtoulEnd (line.drop 3)).2

/-- The body of the loop over the lines, without its `break`. -/
def statStep (lines : UInt32) (cputime : List CpuTime) (line : CString) :
    Except Stop (List CpuTime) :=
  if isTotalLine line then
    fillEntry cputime 0 (ascii "cpu")
      (sscanfJiffs ([.literal 'c', .literal 'p', .literal 'u', .white] ++ jiffFormat) line)
  else if hasPrefix line (ascii "cpu") then
    let cpunum := lineCpunum line
    if lines ≤ cpunum + 1 then
      .error (.pluginError .unknown ("BUG: cpu_stats_get_time(): lines(" ++ toString lines
        ++ ") <= cpunum(" ++ toString cpunum ++ ") + 1"))
    else
      fillEntry cputime (cpunum + 1).toNat (ascii "cpu" ++ decimal cpunum.toNat)
        (sscanfJiffs jiffFormat (lineEndptr line))
  else .ok cputime

/-- The loop: the entries, and `found`. -/
def cpuStatLoop (lines : UInt32) : List CString → List CpuTime → Bool →
    Except Stop (List CpuTime × Bool)
  | [], cputime, found => .ok (cputime, found)
  | line :: rest, cputime, found => do
    let cputime ← statStep lines cputime line
    let found := found || isTotalLine line
    if isTotalLine line ∧ lines = 1 then return (cputime, found)
    else cpuStatLoop lines rest cputime found

/-- `cpu_stats_get_time`; `content` is what the file holds, unless it cannot be opened. -/
def cpuStatsGetTime (procpath : String) (content : Option (List UInt8)) (lines : UInt32) :
    Except Stop (List CpuTime) :=
  match content with
  | none => .error (.pluginError .unknown ("error opening " ++ procpath))
  | some content => do
    let (cputime, found) ←
      cpuStatLoop lines (getlines content) (List.replicate lines.toNat CpuTime.zero) false
    if found then return cputime
    else throw (.pluginError .unknown (procpath ++ ": pattern not found: 'cpu '"))

end NagiosPlugins
