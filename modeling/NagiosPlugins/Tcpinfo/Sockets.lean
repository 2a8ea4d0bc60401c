import NagiosPlugins.Libc.Hex
import NagiosPlugins.Perfdata.Representable
import NagiosPlugins.Tcpinfo.Properties

/-!
# The sockets of the kernel

The lines that the kernel prints for its sockets are all well-formed, so `check_tcpcount` counts the
sockets by their states.
-/

namespace NagiosPlugins

open Libc

/-! ### The plugin -/

/-- The options of the command line; `--verbose` prints the sockets besides. -/
structure TcpcountOptions where
  tcp : Bool
  tcp6 : Bool
  warning : Option CString
  critical : Option CString

/-- `tcp_flags`, without `TCP_VERBOSE`. -/
def TcpcountOptions.tcpFlags (options : TcpcountOptions) : UInt32 :=
  let flags := (if options.tcp then tcpV4 else 0) ||| if options.tcp6 then tcpV6 else 0
  if flags = 0 then tcpV4 else flags

/-- What the plugin reports: the counters are the performance data. -/
structure TcpcountReport where
  status : Nagstatus
  tcptable : ProcTcptableData

/-- `main`, where the two files have these contents, unless they cannot be opened; `state4` and
`state6` are what `state` holds at first in each call of the parser. There is no report if the usage
is printed instead. -/
def checkTcpcount (options : TcpcountOptions) (tcp tcp6 : Option (List UInt8))
    (state4 state6 : UInt32) : Except Stop (Option TcpcountReport) := do
  let (status, myThreshold) := setThresholdsRounded none options.warning options.critical
  if status = npRangeUnparseable then return none
  match myThreshold with
  | none => throw .undefined
  | some myThreshold =>
    let tcptable ← procTcptableRead tcp tcp6 state4 state6 (some {}) options.tcpFlags
    match tcptable with
    | none => throw .undefined
    | some tcptable =>
      let established := procTcpGet tcptable .established
      return some { status := getStatus (.nearest established) myThreshold, tcptable }

/-! ### What the kernel prints -/

/-- A socket in `/proc/net/tcp` or `/proc/net/tcp6`, and what its line holds behind the inode. -/
structure TcpSocket where
  slot : ℕ
  localAddr : List UInt32
  localPort : ℕ
  remAddr : List UInt32
  remPort : ℕ
  state : TcpStatus
  txq : ℕ
  rxq : ℕ
  timerRun : ℕ
  timeLen : ℕ
  retr : ℕ
  uid : ℕ
  timeout : ℕ
  inode : ℕ
  more : CString
  localAddr_words : localAddr.length = 1 ∨ localAddr.length = 4
  remAddr_words : remAddr.length = 1 ∨ remAddr.length = 4
  more_head : ∀ c ∈ more.head?, isspace c = true
  more_text : ∀ c ∈ more, c ≠ '\n' ∧ c ≠ 0

/-- An address, word by word. -/
def addrText (addr : List UInt32) : CString := addr.flatMap fun word => zeroPaddedHex 8 word.toNat

namespace TcpSocket

def colon : UInt8 := ':'
def blank : UInt8 := ' '

/-- `"%4d: %08X:%04X %08X:%04X %02X %08X:%08X %02X:%08lX %08X %5u %8d %lu"` and more. -/
def render (s : TcpSocket) : CString :=
  blankPadded 4 s.slot ++ colon
    :: blank :: addrText s.localAddr ++ colon :: zeroPaddedHex 4 s.localPort
    ++ blank :: addrText s.remAddr ++ colon :: zeroPaddedHex 4 s.remPort
    ++ blank :: zeroPaddedHex 2 s.state.value.toNat
    ++ blank :: zeroPaddedHex 8 s.txq ++ colon :: zeroPaddedHex 8 s.rxq
    ++ blank :: zeroPaddedHex 2 s.timerRun ++ colon :: zeroPaddedHex 8 s.timeLen
    ++ blank :: zeroPaddedHex 8 s.retr ++ blank :: blankPadded 5 s.uid
    ++ blank :: blankPadded 8 s.timeout ++ blank :: decimal s.inode ++ s.more

end TcpSocket

/-- A table of sockets below its heading. -/
structure TcpTable where
  heading : CString
  sockets : List TcpSocket
  heading_text : ∀ c ∈ heading, c ≠ '\n' ∧ c ≠ 0

def TcpTable.render (table : TcpTable) : List UInt8 :=
  (table.heading :: table.sockets.map TcpSocket.render).flatMap (· ++ [('\n' : UInt8)])

/-! ### Reading it back -/

lemma isxdigit_of_mem_addrText (addr : List UInt32) : ∀ c ∈ addrText addr, isxdigit c = true := by
  intro c hc
  obtain ⟨word, -, hc⟩ := List.mem_flatMap.1 hc
  exact isxdigit_of_mem_zeroPaddedHex 8 word.toNat c hc

lemma length_addrText (addr : List UInt32) : (addrText addr).length = 8 * addr.length := by
  have hword : ∀ word : UInt32, (zeroPaddedHex 8 word.toNat).length = 8 :=
    fun word => length_zeroPaddedHex word.toNat_lt
  induction addr with
  | nil => rfl
  | cons word addr ih =>
    rw [addrText, List.flatMap_cons, List.length_append, hword, ← addrText, ih, List.length_cons]
    omega

/-- The two addresses behind their blanks. -/
lemma scan_addr {addr : List UInt32} (hwords : addr.length = 1 ∨ addr.length = 4)
    (format : List Directive) (rest : CString) :
    scan (.white :: .set 64 isxdigit :: .literal ':' :: format)
        ((' ' : UInt8) :: (addrText addr ++ (':' : UInt8) :: rest))
      = ⟨.chars (addrText addr) :: (scan format rest).args, false⟩ := by
  have hlength := length_addrText addr
  have hne : addrText addr ≠ [] := by
    intro hnil
    rw [hnil, List.length_nil] at hlength
    omega
  have hhead : ∀ c ∈ (addrText addr ++ (':' : UInt8) :: rest).head?, isspace c = false := by
    intro c hc
    rw [List.head?_append_of_ne_nil _ hne] at hc
    exact (isxdigit_spec c (isxdigit_of_mem_addrText addr c (List.mem_of_mem_head? hc))).2.2.1
  have hcolon : ∀ c ∈ ((':' : UInt8) :: rest).head?, isxdigit c = false := by
    intro c hc
    obtain rfl : (':' : UInt8) = c := Option.some.inj hc
    decide
  have hblank : ∀ c ∈ [(' ' : UInt8)], isspace c = true := by decide +kernel
  rw [← List.singleton_append (l := addrText addr ++ _), scan_white hblank hhead,
    scan_set (isxdigit_of_mem_addrText addr) hne (by omega) hcolon, scan_literal]

section Numbers

variable {format : List Directive} {c : UInt8} {rest : CString} (long : Bool) (width n : ℕ)

lemma isspace_of_mem_blanks (k : ℕ) : ∀ c ∈ List.replicate k (' ' : UInt8), isspace c = true := by
  intro c hc
  rw [List.eq_of_mem_replicate hc]
  decide

lemma scan_port (hc : Delimits c) :
    scan (.integer 16 long :: format) (zeroPaddedHex width n ++ c :: rest)
      = ⟨integerArg long n :: (scan format (c :: rest)).args, false⟩ :=
  scan_zeroPaddedHex long (isspace_of_mem_blanks 0) width n hc

lemma scan_blank_hex (hc : Delimits c) :
    scan (.white :: .integer 16 long :: format)
        ((' ' : UInt8) :: (zeroPaddedHex width n ++ c :: rest))
      = ⟨integerArg long n :: (scan format (c :: rest)).args, false⟩ := by
  rw [scan_white_integer]
  exact scan_zeroPaddedHex long (isspace_of_mem_blanks 1) width n hc

lemma scan_blankPadded (hc : Delimits c) :
    scan (.integer 10 long :: format) (blankPadded width n ++ c :: rest)
      = ⟨integerArg long n :: (scan format (c :: rest)).args, false⟩ := by
  rw [blankPadded, List.append_assoc]
  exact scan_decimal long (isspace_of_mem_blanks _) n hc

lemma scan_blank_blankPadded (hc : Delimits c) :
    scan (.white :: .integer 10 long :: format)
        ((' ' : UInt8) :: (blankPadded width n ++ c :: rest))
      = ⟨integerArg long n :: (scan format (c :: rest)).args, false⟩ := by
  rw [scan_white_integer, blankPadded, List.append_assoc]
  exact scan_decimal long (isspace_of_mem_blanks (_ + 1)) n hc

end Numbers

/-- The fields of a line are all converted, and the sixth is the state. -/
lemma scan_render (s : TcpSocket) :
    (scan tcpFormat (s.render ++ [('\n' : UInt8)])).args
      = [integerArg false s.slot, .chars (addrText s.localAddr), integerArg false s.localPort,
          .chars (addrText s.remAddr), integerArg false s.remPort,
          integerArg false s.state.value.toNat, integerArg true s.txq, integerArg true s.rxq,
          integerArg false s.timerRun, integerArg true s.timeLen, integerArg true s.retr,
          integerArg false s.uid, integerArg false s.timeout, integerArg true s.inode] := by
  obtain ⟨c, rest, hmore, hc⟩ : ∃ c rest, s.more ++ [('\n' : UInt8)] = c :: rest ∧ Delimits c := by
    cases hmore : s.more with
    | nil => exact ⟨_, _, rfl, delimits_of_isspace _ (by decide)⟩
    | cons c more => exact ⟨c, _, rfl, delimits_of_isspace c (s.more_head c (by simp [hmore]))⟩
  have hinode : decimal s.inode = blankPadded 0 s.inode := by simp [blankPadded]
  have hcolon' : Delimits ':' := ⟨by decide, by decide⟩
  have hblank' : Delimits ' ' := ⟨by decide, by decide⟩
  -- what stands behind the inode is not converted
  have hbehind : (scan [.white, .skipWord, .white] (c :: rest)).args = [] := by
    rw [scan, scan]
    split <;> rfl
  simp only [TcpSocket.render, TcpSocket.colon, TcpSocket.blank, hinode, List.append_assoc,
    List.cons_append, hmore, tcpFormat]
  rw [scan_blankPadded _ _ _ hcolon', scan_literal, scan_addr s.localAddr_words,
    scan_port _ _ _ hblank', scan_addr s.remAddr_words, scan_port _ _ _ hblank',
    scan_blank_hex _ _ _ hblank', scan_blank_hex _ _ _ hcolon', scan_literal,
    scan_port _ _ _ hblank', scan_blank_hex _ _ _ hcolon', scan_literal, scan_port _ _ _ hblank',
    scan_blank_hex _ _ _ hblank', scan_blank_blankPadded _ _ _ hblank',
    scan_blank_blankPadded _ _ _ hblank', scan_blank_blankPadded _ _ _ hc, hbehind]

lemma not_malformed_render (s : TcpSocket) : ¬ Malformed (s.render ++ [('\n' : UInt8)]) := by
  rw [malformed_iff, sscanf]
  simp only [scan_render]
  simp

lemma stateField_render (s : TcpSocket) :
    stateField (s.render ++ [('\n' : UInt8)]) = some s.state.value := by
  have hvalue : (scannedValue s.state.value.toNat).toUInt32 = s.state.value := by
    cases s.state <;> rfl
  rw [stateField, sscanf]
  simp only [scan_render, List.getElem?_cons_succ, List.getElem?_cons_zero, integerArg, hvalue,
    Bool.false_eq_true, if_false]

/-- A line consists of digits, colons, blanks and what is behind the inode. -/
lemma forall_mem_render {P : UInt8 → Prop} (hxdigit : ∀ c, isxdigit c = true → P c)
    (hcolon : P TcpSocket.colon) (hblank : P TcpSocket.blank) {s : TcpSocket}
    (hmore : ∀ c ∈ s.more, P c) : ∀ c ∈ s.render, P c := by
  have hhex : ∀ width n, (∀ c ∈ zeroPaddedHex width n, P c) ↔ True := fun width n =>
    iff_true_intro fun c hc => hxdigit c (isxdigit_of_mem_zeroPaddedHex width n c hc)
  have haddr : ∀ addr, (∀ c ∈ addrText addr, P c) ↔ True := fun addr =>
    iff_true_intro fun c hc => hxdigit c (isxdigit_of_mem_addrText addr c hc)
  have hdecimal : ∀ n, ∀ c ∈ decimal n, P c := by
    intro n c hc
    have hdigit := isBaseDigit_of_isdigit (isdigit_of_mem_decimal n c hc)
    exact hxdigit c (Bool.and_eq_true_iff.1 hdigit).1
  have hpadded : ∀ width n, (∀ c ∈ blankPadded width n, P c) ↔ True := by
    intro width n
    refine iff_true_intro fun c hc => ?_
    rcases List.mem_append.1 hc with hc | hc
    · rwa [List.eq_of_mem_replicate hc]
    · exact hdecimal n c hc
  simp only [TcpSocket.render, List.forall_mem_append, List.forall_mem_cons, hcolon, hblank, hhex,
    haddr, hpadded, true_and]
  exact ⟨hdecimal s.inode, hmore⟩

lemma render_ne (s : TcpSocket) : ∀ c ∈ s.render, c ≠ '\n' ∧ c ≠ 0 :=
  forall_mem_render (by decide +kernel) (by decide) (by decide) s.more_text

/-! ### Counting the sockets -/

lemma tcpLines_render (table : TcpTable) :
    tcpLines table.render = table.sockets.map fun s => s.render ++ [('\n' : UInt8)] := by
  rw [tcpLines, TcpTable.render, getlines_flatMap]
  · simp
  · intro line hline
    rcases List.mem_cons.1 hline with rfl | hline
    · exact table.heading_text
    · obtain ⟨s, -, rfl⟩ := List.mem_map.1 hline
      exact render_ne s

/-- The well-formed lines are those of the sockets. -/
lemma wellFormedCount_render (table : TcpTable) (k : TcpStatus) :
    wellFormedCount (tcpLines table.render) k = table.sockets.countP (·.state = k) := by
  rw [wellFormedCount, tcpLines_render, List.countP_map]
  refine List.countP_congr fun s _ => ?_
  simp only [Function.comp_apply, decide_eq_true_eq, not_malformed_render, not_false_eq_true,
    true_and, stateField_render, Option.some.injEq]
  exact TcpStatus.value_injective.eq_iff

/-- No line is malformed. -/
lemma malformedUncounted_render (table : TcpTable) : MalformedUncounted table.render := by
  intro A line B heq hmalformed
  have hmem : line ∈ tcpLines table.render := by
    rw [heq]
    simp
  rw [tcpLines_render] at hmem
  obtain ⟨s, -, rfl⟩ := List.mem_map.1 hmem
  exact absurd hmalformed (not_malformed_render s)

/-- The counters for these sockets. -/
def socketCounters (sockets : List TcpSocket) : ProcTcptableData where
  tcpEstablished := sockets.countP (·.state = .established)
  tcpSynSent := sockets.countP (·.state = .synSent)
  tcpSynRecv := sockets.countP (·.state = .synRecv)
  tcpFinWait1 := sockets.countP (·.state = .finWait1)
  tcpFinWait2 := sockets.countP (·.state = .finWait2)
  tcpTimeWait := sockets.countP (·.state = .timeWait)
  tcpClose := sockets.countP (·.state = .close)
  tcpCloseWait := sockets.countP (·.state = .closeWait)
  tcpLastAck := sockets.countP (·.state = .lastAck)
  tcpListen := sockets.countP (·.state = .listen)
  tcpClosing := sockets.countP (·.state = .closing)

lemma procTcpGet_socketCounters (sockets : List TcpSocket) (k : TcpStatus) :
    procTcpGet (socketCounters sockets) k = sockets.countP (·.state = k) := by
  cases k <;> rfl

lemma procTcpGet_ext {data data' : ProcTcptableData}
    (h : ∀ k, procTcpGet data k = procTcpGet data' k) : data = data' := by
  cases data
  cases data'
  rw [ProcTcptableData.mk.injEq]
  exact ⟨h .established, h .synSent, h .synRecv, h .finWait1, h .finWait2, h .timeWait, h .close,
    h .closeWait, h .lastAck, h .listen, h .closing⟩

/-- Reading a table adds its sockets. -/
lemma procparserTcp_render (procfile : String) (table : TcpTable) (state : UInt32)
    (sockets : List TcpSocket) : ∃ stderr,
      procparserTcp procfile (some table.render) state (socketCounters sockets)
        = .ok (socketCounters (sockets ++ table.sockets), stderr) := by
  obtain ⟨data, stderr, hok, hget⟩ := (malformedUncounted_render table).procparserTcp_ok procfile
    state (socketCounters sockets)
  have hdata : data = socketCounters (sockets ++ table.sockets) := by
    apply procTcpGet_ext
    intro k
    rw [hget, procTcpGet_socketCounters, procTcpGet_socketCounters, wellFormedCount_render,
      List.countP_append]
  exact ⟨stderr, hdata ▸ hok⟩

namespace TcpcountOptions

variable (options : TcpcountOptions)

/-- The sockets for IPv4 are counted if this is asked for, or nothing else. -/
def ReadsTcp : Prop := options.tcp ∨ ¬ options.tcp6

instance : Decidable options.ReadsTcp := inferInstanceAs (Decidable (_ ∨ _))

/-- The sockets that are counted. -/
def selected (tcp tcp6 : TcpTable) : List TcpSocket :=
  (if options.ReadsTcp then tcp.sockets else []) ++ if options.tcp6 then tcp6.sockets else []

lemma tcpFlags_spec : (options.tcpFlags &&& tcpV4 ≠ 0 ↔ options.ReadsTcp) ∧
    (options.tcpFlags &&& tcpV6 ≠ 0 ↔ options.tcp6) := by
  obtain ⟨tcp, tcp6, warning, critical⟩ := options
  cases tcp <;> cases tcp6 <;> simp [tcpFlags, ReadsTcp] <;> decide

end TcpcountOptions

/-- The plugin counts the sockets of the tables that it is asked for, and compares the number of
established connections with the thresholds. The other table need not be there. -/
theorem checkTcpcount_sockets {options : TcpcountOptions} {tcp tcp6 : TcpTable}
    {content4 content6 : Option (List UInt8)}
    (hcontent4 : options.ReadsTcp → content4 = some tcp.render)
    (hcontent6 : options.tcp6 → content6 = some tcp6.render) (state4 state6 : UInt32)
    {status : ℕ} {myThreshold : Thresholds}
    (hthreshold : setThresholdsRounded none options.warning options.critical
      = (status, some myThreshold))
    (hstatus : status ≠ npRangeUnparseable) :
    checkTcpcount options content4 content6 state4 state6
      = .ok (some ⟨getStatus
          (.nearest ((options.selected tcp tcp6).countP (·.state = .established))) myThreshold,
        socketCounters (options.selected tcp tcp6)⟩) := by
  obtain ⟨hflags4, hflags6⟩ := options.tcpFlags_spec
  have hread : procTcptableRead content4 content6 state4 state6 (some {}) options.tcpFlags
      = .ok (some (socketCounters (options.selected tcp tcp6))) := by
    obtain ⟨stderr4, hok4⟩ := procparserTcp_render "/proc/net/tcp" tcp state4 []
    have hempty : socketCounters [] = {} := rfl
    rw [hempty, List.nil_append] at hok4
    by_cases h4 : options.ReadsTcp
    · by_cases h6 : options.tcp6
      · obtain ⟨stderr6, hok6⟩ := procparserTcp_render "/proc/net/tcp6" tcp6 state6 tcp.sockets
        simp only [procTcptableRead, TcpcountOptions.selected, hflags4.2 h4, hflags6.2 h6, h4,
          h6, hcontent4 h4, hcontent6 h6, hok4, hok6, Except.ok_bind, ne_eq, not_false_eq_true,
          if_true, pure, Except.pure]
      · simp only [procTcptableRead, TcpcountOptions.selected, hflags4.2 h4, mt hflags6.1 h6, h4,
          h6, hcontent4 h4, hok4, Except.ok_bind, ne_eq, not_false_eq_true, if_true, if_false,
          List.append_nil, Bool.false_eq_true, pure, Except.pure]
    · by_cases h6 : options.tcp6
      · obtain ⟨stderr6, hok6⟩ := procparserTcp_render "/proc/net/tcp6" tcp6 state6 []
        rw [hempty] at hok6
        simp only [procTcptableRead, TcpcountOptions.selected, mt hflags4.1 h4, hflags6.2 h6, h4,
          h6, hcontent6 h6, hok6, Except.ok_bind, ne_eq, not_false_eq_true, if_true, if_false, pure,
          Except.pure]
      · exact absurd (.inr (by simpa using h6)) h4
  rw [checkTcpcount, hthreshold]
  simp only [hstatus, if_false, hread, Except.ok_bind, procTcpGet_socketCounters]
  rfl

/-- A socket between two ports of the machine. -/
def loopbackSocket (addr : List UInt32) (h : addr.length = 1 ∨ addr.length = 4)
    (slot localPort remPort : ℕ) (state : TcpStatus) : TcpSocket where
  slot := slot
  localAddr := addr
  localPort := localPort
  remAddr := addr
  remPort := remPort
  state := state
  txq := 0
  rxq := 0
  timerRun := 0
  timeLen := 0
  retr := 0
  uid := 100
  timeout := 0
  inode := 21163
  more := ascii " 1 0000000000000000 100 0 0 10 0   "
  localAddr_words := h
  remAddr_words := h
  more_head := by decide +kernel
  more_text := by decide +kernel

/-- Both ends of a connection, and the socket that listens for it. -/
def loopbackTable : TcpTable :=
  let socket := loopbackSocket [0x0100007F] (.inl rfl)
  ⟨ascii "  sl  local_address",
    [socket 0 3306 0 .listen, socket 1 3306 40000 .established, socket 2 40000 3306 .established],
    by decide +kernel⟩

/-- One end, the other having closed the connection. -/
def loopbackTable6 : TcpTable :=
  let socket := loopbackSocket [0, 0, 0, 0x01000000] (.inr rfl)
  ⟨ascii "  sl  local_address", [socket 0 80 50000 .established, socket 1 50000 80 .closeWait],
    by decide +kernel⟩

def bothTablesOptions : TcpcountOptions := ⟨true, true, none, some (ascii "2")⟩

/-- Three established sockets, where two are allowed. -/
theorem checkTcpcount_sockets_loopback :
    checkTcpcount bothTablesOptions (some loopbackTable.render)
        (some loopbackTable6.render) 0 0
      = .ok (some ⟨.critical,
          socketCounters (loopbackTable.sockets ++ loopbackTable6.sockets)⟩) := by
  have hthreshold : setThresholdsRounded none none (some (ascii "2"))
      = (0, some ⟨none, some ⟨.fin 0, .fin 2, false, false, .outside⟩⟩) := by decide +kernel
  have hstatus : getStatus (.nearest (3 : ℕ))
      ⟨none, some ⟨.fin 0, .fin 2, false, false, .outside⟩⟩ = .critical := by decide +kernel
  have htcp : bothTablesOptions.ReadsTcp →
      some loopbackTable.render = some loopbackTable.render := fun _ => rfl
  have htcp6 : bothTablesOptions.tcp6 →
      some loopbackTable6.render = some loopbackTable6.render := fun _ => rfl
  have hcheck := checkTcpcount_sockets htcp htcp6 0 0 hthreshold (by decide)
  exact hcheck.trans (by rw [← hstatus]; rfl)

end NagiosPlugins
