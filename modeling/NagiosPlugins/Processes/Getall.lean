import NagiosPlugins.Libc.Arith
import NagiosPlugins.Libc.Stdlib
import NagiosPlugins.Processes.Basic

/-!
# Reading the processes

`procs_list_getall` of `lib/processes.c`. The entries of `/proc` are parameters, each with the
status file that `fopen` finds for it, and so are the password database and the limits.
-/

namespace NagiosPlugins

open Libc

/-- An entry of `/proc`. -/
structure ProcDirent where
  isDir : Bool
  dName : CString
  status : Option (List UInt8)

/-- What `getpwuid` and `getrlimit` answer. -/
structure ProcSystem where
  getpwuid : UInt32 → Option CString
  getrlimit : Option (UInt64 × UInt64)

def nbprocsVerbose : UInt32 := 0x01
def nbprocsThreads : UInt32 := 0x02

/-- `MAX_LINE`, the size of the variable `cmd`. -/
def maxLine : ℕ := 128

/-- The variables of the loop over the lines of a status file. -/
structure StatusVars where
  gotname : Bool
  gotuid : Bool
  gotthreads : Bool
  uid : UInt32
  threadsNbr : UInt64
  cmd : CString

def StatusVars.gotAll (v : StatusVars) : Bool := v.gotname && v.gotuid && v.gotthreads

/-- What the loop reads from a line. -/
def statusLine (v : StatusVars) (line : CString) : StatusVars :=
  let v :=
    if hasPrefix line (ascii "Name:") then
      { v with cmd := ((line.drop 5).dropWhile isspace).take (maxLine - 1), gotname := true }
    else v
  let v :=
    if hasPrefix line (ascii "Threads:") then
      { v with threadsNbr := toUnsigned (strtol (line.drop 8)), gotthreads := true }
    else v
  if hasPrefix line (ascii "Uid:") then
    { v with uid := UInt32.ofInt (strtol (line.drop 4)), gotuid := true }
  else v

/-- The call of `procs_list_node_add` for a process. -/
def addCall (sys : ProcSystem) (flags : UInt32) (v : StatusVars) : ProcsAddCall where
  uid := v.uid
  inc := if flags &&& nbprocsThreads ≠ 0 then v.threadsNbr else 1
  pwName := sys.getpwuid v.uid
  rlim := sys.getrlimit

/-- The loop over the lines, up to the one with which all values are there. -/
def statusLoop (sys : ProcSystem) (flags : UInt32) :
    List CString → StatusVars → ProcsHeap → Option (StatusVars × ProcsHeap)
  | [], v, heap => some (v, heap)
  | line :: lines, v, heap =>
    let v := statusLine v line
    if v.gotAll then do
      let (_, heap) ← procsListNodeAdd (addCall sys flags v) heap
      return (v, heap)
    else statusLoop sys flags lines v heap

/-- What `printf` is called with. -/
structure VerboseLine where
  username : CString
  pid : CString
  threadsNbr : UInt64
  cmd : CString

/-- The variables of the loop over the entries, and what has been printed. -/
structure GetallState where
  heap : ProcsHeap
  uid : UInt32
  cmd : CString
  output : List VerboseLine

/-- An iteration; `uid` and `cmd` hold what earlier ones have left there. -/
def getallEntry (sys : ProcSystem) (flags : UInt32) (s : GetallState) (dp : ProcDirent) :
    Option GetallState :=
  if !dp.isDir || !dp.dName.head?.any isdigit then some s
  else
    match dp.status with
    | none => some s
    | some content => do
      let (v, heap) ← statusLoop sys flags (getlines content)
        { gotname := false, gotuid := false, gotthreads := false, uid := s.uid, threadsNbr := 0,
          cmd := s.cmd } s.heap
      let printed :=
        if v.gotAll && flags &&& nbprocsVerbose ≠ 0 then
          [⟨uidToUsername (sys.getpwuid v.uid), dp.dName, v.threadsNbr, v.cmd⟩]
        else []
      return { heap, uid := v.uid, cmd := v.cmd, output := s.output ++ printed }

/-- `procs_list_getall`: the list at index 0, and what has been printed. -/
def procsListGetall (sys : ProcSystem) (flags : UInt32) (dirp : List ProcDirent) :
    Option (ProcsHeap × List VerboseLine) := do
  let s ← dirp.foldlM (getallEntry sys flags)
    { heap := procsListNodeInit, uid := -1, cmd := [], output := [] }
  return (s.heap, s.output)

end NagiosPlugins
