import NagiosPlugins.Common
import NagiosPlugins.Libc.Scanf

/-!
# The tables of TCP sockets

`procparser_tcp` and `proc_tcptable_read` of `lib/tcpinfo.c`, without what `TCP_VERBOSE` prints.
-/

namespace NagiosPlugins

open Libc

/-- `tcp_status`. -/
inductive TcpStatus where
  | established
  | synSent
  | synRecv
  | finWait1
  | finWait2
  | timeWait
  | close
  | closeWait
  | lastAck
  | listen
  | closing
  deriving DecidableEq, Repr

def TcpStatus.value : TcpStatus → UInt32
  | .established => 1
  | .synSent => 2
  | .synRecv => 3
  | .finWait1 => 4
  | .finWait2 => 5
  | .timeWait => 6
  | .close => 7
  | .closeWait => 8
  | .lastAck => 9
  | .listen => 10
  | .closing => 11

/-- `struct proc_tcptable_data`. -/
structure ProcTcptableData where
  tcpEstablished : ℕ := 0
  tcpSynSent : ℕ := 0
  tcpSynRecv : ℕ := 0
  tcpFinWait1 : ℕ := 0
  tcpFinWait2 : ℕ := 0
  tcpTimeWait : ℕ := 0
  tcpClose : ℕ := 0
  tcpCloseWait : ℕ := 0
  tcpLastAck : ℕ := 0
  tcpListen : ℕ := 0
  tcpClosing : ℕ := 0
  deriving DecidableEq, Repr

/-- `proc_tcp_get`. -/
def procTcpGet (data : ProcTcptableData) : TcpStatus → ℕ
  | .established => data.tcpEstablished
  | .synSent => data.tcpSynSent
  | .synRecv => data.tcpSynRecv
  | .finWait1 => data.tcpFinWait1
  | .finWait2 => data.tcpFinWait2
  | .timeWait => data.tcpTimeWait
  | .close => data.tcpClose
  | .closeWait => data.tcpCloseWait
  | .lastAck => data.tcpLastAck
  | .listen => data.tcpListen
  | .closing => data.tcpClosing

/-- The `switch` of `procparser_tcp`. -/
def countState (data : ProcTcptableData) (state : UInt32) : ProcTcptableData :=
  if state = TcpStatus.established.value then
    { data with tcpEstablished := data.tcpEstablished + 1 }
  else if state = TcpStatus.synSent.value then { data with tcpSynSent := data.tcpSynSent + 1 }
  else if state = TcpStatus.synRecv.value then { data with tcpSynRecv := data.tcpSynRecv + 1 }
  else if state = TcpStatus.finWait1.value then { data with tcpFinWait1 := data.tcpFinWait1 + 1 }
  else if state = TcpStatus.finWait2.value then { data with tcpFinWait2 := data.tcpFinWait2 + 1 }
  else if state = TcpStatus.timeWait.value then { data with tcpTimeWait := data.tcpTimeWait + 1 }
  else if state = TcpStatus.close.value then { data with tcpClose := data.tcpClose + 1 }
  else if state = TcpStatus.closeWait.value then
    { data with tcpCloseWait := data.tcpCloseWait + 1 }
  else if state = TcpStatus.lastAck.value then { data with tcpLastAck := data.tcpLastAck + 1 }
  else if state = TcpStatus.listen.value then { data with tcpListen := data.tcpListen + 1 }
  else if state = TcpStatus.closing.value then { data with tcpClosing := data.tcpClosing + 1 }
  else data

/-- `"%u: %64[0-9A-Fa-f]:%X %64[0-9A-Fa-f]:%X %X %lX:%lX %X:%lX %lX %u %u %lu %*s\n"`. -/
def tcpFormat : List Directive :=
  [.integer 10 false, .literal ':',                     -- slot
    .white, .set 64 isxdigit, .literal ':',             -- local_addr_buf
    .integer 16 false,                                  -- local_port
    .white, .set 64 isxdigit, .literal ':',             -- rem_addr_buf
    .integer 16 false,                                  -- rem_port
    .white, .integer 16 false,                          -- state
    .white, .integer 16 true, .literal ':',             -- txq
    .integer 16 true,                                   -- rxq
    .white, .integer 16 false, .literal ':',            -- timer_run
    .integer 16 true,                                   -- time_len
    .white, .integer 16 true,                           -- retr
    .white, .integer 10 false,                          -- uid
    .white, .integer 10 false,                          -- timeout
    .white, .integer 10 true,                           -- inode
    .white, .skipWord, .white]

/-- The state field of a line, if `sscanf` gets that far. -/
def stateField (line : CString) : Option UInt32 :=
  let (_, args) := sscanf tcpFormat line
  match args[5]? with
  | some (Arg.unsignedInt state) => some state
  | _ => none

/-- The loop of `procparser_tcp` behind the heading line: the counters and what goes to the
standard error. `state` is the variable of the function, which keeps its value where `sscanf` does
not assign it. -/
def procparserTcpLoop : List CString → UInt32 → ProcTcptableData → List CString →
    ProcTcptableData × List CString
  | [], _, data, stderr => (data, stderr)
  | line :: lines, state, data, stderr =>
    -- a variable of type `unsigned int`, for which `EOF` is a large number
    let num := UInt32.ofInt (sscanf tcpFormat line).1
    let state := (stateField line).getD state
    let stderr :=
      if num < 11 then stderr ++ [ascii "warning, got bogus tcp line.\n" ++ line] else stderr
    procparserTcpLoop lines state (countState data state) stderr

/-- `procparser_tcp` on what the file holds, unless it cannot be opened; `state` is what the
variable holds at first. -/
def procparserTcp (procfile : String) (content : Option (List UInt8)) (state : UInt32)
    (data : ProcTcptableData) : Except Stop (ProcTcptableData × List CString) :=
  match content with
  | none => .error (.pluginError .unknown ("error opening " ++ procfile))
  | some content => .ok (procparserTcpLoop (getlines content).tail state data [])

def tcpV4 : UInt32 := (1 : UInt32) <<< 2
def tcpV6 : UInt32 := (1 : UInt32) <<< 3

/-- `proc_tcptable_read` with the contents of both files; `state4` and `state6` are what the
variable holds at first in each call. -/
def procTcptableRead (tcp tcp6 : Option (List UInt8)) (state4 state6 : UInt32)
    (tcptable : Option ProcTcptableData) (flags : UInt32) :
    Except Stop (Option ProcTcptableData) :=
  match tcptable with
  | none => .ok none
  | some data => do
    let data ←
      if flags &&& tcpV4 ≠ 0 then do
        let (data, _) ← procparserTcp "/proc/net/tcp" tcp state4 data
        pure data
      else pure data
    let data ←
      if flags &&& tcpV6 ≠ 0 then do
        let (data, _) ← procparserTcp "/proc/net/tcp6" tcp6 state6 data
        pure data
      else pure data
    return some data

end NagiosPlugins
