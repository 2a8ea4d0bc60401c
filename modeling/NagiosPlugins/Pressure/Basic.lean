import NagiosPlugins.Perfdata.Representable
import NagiosPlugins.Strton.Delay

/-!
# Pressure stalls

`lib/pressure.c` and `plugins/check_pressure.c`. The file is opened again for every line that is
read from it.
-/

namespace NagiosPlugins

open Libc

/-! ### Reading a line -/

/-- `struct proc_psi_oneline`. -/
structure ProcPsiOneline where
  total : UInt64
  avg10 : Double
  avg60 : Double
  avg300 : Double
  deriving DecidableEq

/-- `%*lf` of `sscanf` with a width: what is stored, and what follows. -/
def scanDouble (width : ℕ) (s : CString) : Option (Double × CString) :=
  let s := s.dropWhile isspace
  let input := s.take width
  let (x, rest) := strtod input
  if rest = input then none else some (x.rounded, s.drop (input.length - rest.length))

/-- A word in the format of `sscanf`. -/
def scanWord (word s : CString) : Option CString :=
  if hasPrefix s word then some (s.drop word.length) else none

def avg10Word : CString := ascii "avg10="
def avg60Word : CString := ascii "avg60="
def avg300Word : CString := ascii "avg300="
def totalWord : CString := ascii "total="

/-- `sscanf` with the format `avg10=%32lf avg60=%32lf avg300=%32lf total=%llu`, unless it returns
less than 4. -/
def scanPsi (s : CString) : Option ProcPsiOneline := do
  let s ← scanWord avg10Word s
  let (avg10, s) ← scanDouble 32 s
  let s ← scanWord avg60Word (s.dropWhile isspace)
  let (avg60, s) ← scanDouble 32 s
  let s ← scanWord avg300Word (s.dropWhile isspace)
  let (avg300, s) ← scanDouble 32 s
  let s ← scanWord totalWord (s.dropWhile isspace)
  let (total, _) ← scanUnsigned s
  return { total, avg10, avg60, avg300 }

/-- `proc_psi_parser`, for the content of the file. -/
def procPsiParser (procpath : String) (content : Option (List UInt8)) (label : CString) :
    Except Stop ProcPsiOneline :=
  match content with
  | none => .error (.pluginError .unknown ("error opening " ++ procpath))
  | some content =>
    match (getlines content).find? fun line => hasPrefix line label with
    | none => .error (.pluginError .unknown ("error reading " ++ procpath))
    | some line =>
      -- the numbers are looked for behind the byte that follows the label
      if line.length < label.length + 1 then .error .outOfBounds
      else
        match scanPsi (line.drop (label.length + 1)) with
        | none => .error (.pluginError .unknown ("error reading " ++ procpath))
        | some psi => .ok psi

/-! ### Reading the pressure -/

def someLabel : CString := ascii "some"
def fullLabel : CString := ascii "full"

/-- `LINUX_PSI_CPU`, `LINUX_PSI_IO` and `LINUX_PSI_MEMORY`. -/
inductive LinuxPsiId where
  | cpu
  | io
  | memory
  deriving DecidableEq, Repr

/-- `PATH_PSI_PROC_CPU`, `PATH_PSI_PROC_IO` and `PATH_PSI_PROC_MEMORY`. -/
def pathPsiProc : LinuxPsiId → String
  | .cpu => "/proc/pressure/cpu"
  | .io => "/proc/pressure/io"
  | .memory => "/proc/pressure/memory"

/-- `struct proc_psi_twolines`. -/
structure ProcPsiTwolines where
  some_ : ProcPsiOneline
  full : ProcPsiOneline
  deriving DecidableEq

section Read

-- what the file holds when it is opened for the first time, the second time, and so on
variable (file : ℕ → Option (List UInt8))

/-- `proc_psi_read_cpu`: `*psi_cpu` and `*starvation`. -/
def procPsiReadCpu (delay : UInt64) : Except Stop (ProcPsiOneline × UInt64) := do
  let stats ← procPsiParser (pathPsiProc .cpu) (file 0) someLabel
  let psi ← procPsiParser (pathPsiProc .cpu) (file 1) someLabel
  return (stats, (psi.total - stats.total) / delay)

/-- `proc_psi_read`: `*psi_io`, `starvation[0]` and `starvation[1]`. -/
def procPsiRead (procfile : String) (delay : UInt64) :
    Except Stop (ProcPsiTwolines × UInt64 × UInt64) := do
  let some_ ← procPsiParser procfile (file 0) someLabel
  let full ← procPsiParser procfile (file 1) fullLabel
  let psi ← procPsiParser procfile (file 2) someLabel
  let starvation := (psi.total - some_.total) / delay
  let psi ← procPsiParser procfile (file 3) fullLabel
  return (⟨some_, full⟩, starvation, (psi.total - full.total) / delay)

end Read

/-! ### The plugin -/

/-- The options of the command line; `delay` is its argument. -/
structure PressureOptions where
  pressureMode : Option LinuxPsiId
  thresholdFull : Bool
  warning : Option CString
  critical : Option CString
  delay : Option CString

def pressureDelay (arg : Option CString) : Except Stop UInt64 :=
  match arg with
  | none => .ok delayDefault
  | some arg => delayArgument arg

/-- What the plugin reports. -/
inductive PressureReport where
  | cpu (status : Nagstatus) (psi : ProcPsiOneline) (starvation : UInt64)
  | twolines (status : Nagstatus) (prefix_ : CString) (psi : ProcPsiTwolines) (some_ full : UInt64)
  deriving DecidableEq

/-- `main`, where `file` is the one of the mode; there is no report if the usage is printed
instead. -/
def checkPressure (options : PressureOptions) (file : ℕ → Option (List UInt8)) :
    Except Stop (Option PressureReport) :=
  match options.pressureMode with
  | none => .ok none
  | some mode =>
    if mode = .cpu ∧ options.thresholdFull then .ok none
    else
      let (status, myThreshold) := setThresholdsRounded none options.warning options.critical
      if status = npRangeUnparseable then .ok none
      else
        match myThreshold with
        | none => .error .undefined
        | some myThreshold => do
          let delay ← pressureDelay options.delay
          match mode with
          | .cpu =>
            let (psi, starvation) ← procPsiReadCpu file delay
            return some (.cpu (getStatus (.ofUInt64 starvation) myThreshold) psi starvation)
          | .io | .memory =>
            let (psi, some_, full) ← procPsiRead file (pathPsiProc mode) delay
            let checked := if options.thresholdFull then full else some_
            let prefix_ := if mode = .io then ascii "io" else ascii "mem"
            return some (.twolines (getStatus (.ofUInt64 checked) myThreshold) prefix_ psi some_
              full)

end NagiosPlugins
