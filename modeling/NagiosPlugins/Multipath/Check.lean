import NagiosPlugins.Data.Except
import NagiosPlugins.Libc.Printf
import NagiosPlugins.Messages
import NagiosPlugins.Multipath.Faulty
import NagiosPlugins.Multipath.Query

/-!
# The check

`main` of `plugins/check_multipath.c`, behind the options. Whatever parts the socket cuts the
messages into, a reply that arrives is judged by its rows, and without the whole reply there is no
OK.
-/

namespace NagiosPlugins

open Libc Transfer

/-- The end of `main`: the exit state and what is printed. -/
def multipathReport (programNameShort : CString) (faultyPaths : ℕ) : Nagstatus × CString :=
  if faultyPaths > 0 then
    (.critical, programNameShort ++ (ascii " " ++ (stateText .critical ++ (ascii ": found "
      ++ (decimal faultyPaths ++ ascii " faulty path(s)\n")))))
  else (.ok, programNameShort ++ (ascii " " ++ (stateText .ok ++ ascii "\n")))

/-- `main`: what it ends with, or `none` as long as it waits for the socket. -/
def checkMultipath (programNameShort : CString) (root : Bool) (multipathdSocket : String)
    (connected : Bool) (regcompError : Option String) (writes : List (CallResult ℕ ℕ))
    (reads : List (CallResult ℕ (List UInt8))) : Except Stop (Option (Nagstatus × CString)) :=
  if ¬ root then .error (.pluginError .unknown "need to be root")
  else do
    match ← multipathdQuery multipathdSocket connected showPaths (zeroBuffer bufferSize) bufferSize
        writes reads with
    | none => .ok none
    | some buffer =>
      let faultyPaths ← checkForFaultyPaths regcompError buffer
      .ok (some (multipathReport programNameShort faultyPaths))

/-- The report is CRITICAL with the number of faulty paths, or OK if there are none. -/
structure Judges (programNameShort : CString) (faultyPaths : ℕ) (report : Nagstatus × CString) :
    Prop where
  ok : faultyPaths = 0 → report = (.ok, programNameShort ++ ascii " OK\n")
  critical : faultyPaths ≠ 0 → report = (.critical, programNameShort
    ++ (ascii " CRITICAL: found " ++ (decimal faultyPaths ++ ascii " faulty path(s)\n")))

lemma judges_multipathReport (programNameShort : CString) (faultyPaths : ℕ) :
    Judges programNameShort faultyPaths (multipathReport programNameShort faultyPaths) where
  ok h := if_neg h.not_gt
  critical h := if_pos (Nat.pos_of_ne_zero h)

/-! ### Transfers that go on -/

section Delivery

variable {α σ : Type*} {size : α → ℕ} {move : σ → ℕ → α → σ} {len : ℕ}
  {stateOf : List (CallResult ℕ α) → σ} {replies : List (CallResult ℕ α)}

/-- Where no call ends a transfer early and enough is moved, it is complete. -/
lemma Loop.run_delivers (heffect : Effect size move len stateOf)
    (hwithin : Within size callAgain len replies) (hgo : ∀ r ∈ replies, r.GoesOn size callAgain)
    (hlen : len ≤ amount size replies) :
    ∃ used rest, replies = used ++ rest ∧ amount size used = len ∧
      Loop.run size move ⟨stateOf [], 0, len, 0⟩ replies = .returned len (stateOf used) rest := by
  obtain ⟨used, rest, rfl, -, hends⟩ := Loop.run_ends heffect hwithin
  generalize hrun : Loop.run size move ⟨stateOf [], 0, len, 0⟩ (used ++ rest) = outcome at hends
  cases hends with
  | complete h => exact ⟨used, rest, rfl, h, rfl⟩
  | @stopped r rest h hstop => exact absurd (hgo r (by simp)) hstop
  | waiting h =>
    rw [List.append_nil] at hlen
    omega

lemma writeAll_delivers (buf : List UInt8) {writes : List (CallResult ℕ ℕ)}
    (hwithin : Within id callAgain len writes) (hgo : ∀ r ∈ writes, r.GoesOn id callAgain)
    (hlen : len ≤ amount id writes) :
    ∃ used rest, writes = used ++ rest ∧ amount id used = len ∧
      writeAll buf len writes = .returned len (buf.take len) rest := by
  obtain ⟨used, rest, rfl, hused, hrun⟩ := Loop.run_delivers (effect_send buf len) hwithin hgo hlen
  exact ⟨used, rest, rfl, hused, by rw [← hused]; simpa [writeAll, hused] using hrun⟩

lemma readAll_delivers (buf : List UInt8) {reads : List (CallResult ℕ (List UInt8))}
    (hwithin : Within List.length callAgain len reads)
    (hgo : ∀ r ∈ reads, r.GoesOn List.length callAgain) (hlen : len ≤ (received reads).length) :
    ∃ used rest, reads = used ++ rest ∧
      readAll buf len reads = .returned len ((received reads).take len ++ buf.drop len) rest ∧
      received rest = (received reads).drop len := by
  rw [length_received] at hlen
  obtain ⟨used, rest, rfl, hused, hrun⟩ := Loop.run_delivers (effect_store buf len) hwithin hgo hlen
  have hlength : (received used).length = len := by rw [length_received, hused]
  refine ⟨used, rest, rfl, ?_, ?_⟩
  · rw [received_append, List.take_left' hlength]
    simp only [memoryWith, hlength] at hrun
    exact hrun
  · rw [received_append, List.drop_left' hlength]

end Delivery

/-! ### Queries that are answered -/

/-- A call of `write` never returns more than it is asked for, in either of the two transfers. -/
structure WritesWithin (query : CString) (writes : List (CallResult ℕ ℕ)) : Prop where
  length : Within id callAgain sizeofLen writes
  bytes : ∀ total sent rest,
    writeAll (LittleEndian.encode sizeofLen (query.length + 1)) sizeofLen writes
      = .returned total sent rest → Within id callAgain (query.length + 1) rest

/-- The query is sent and `bytes` come back behind their number. The parts may be of any sizes, and
the calls may be interrupted. -/
structure Answered (query : CString) (bytes : List UInt8) (writes : List (CallResult ℕ ℕ))
    (reads : List (CallResult ℕ (List UInt8))) : Prop where
  writes_within : WritesWithin query writes
  writes_go : ∀ r ∈ writes, r.GoesOn id callAgain
  writes_enough : sizeofLen + (query.length + 1) ≤ amount id writes
  reads_within : ReadsWithin query reads
  reads_go : ∀ r ∈ reads, r.GoesOn List.length callAgain
  received_eq : received reads = LittleEndian.encode sizeofLen bytes.length ++ bytes

section Answered

variable {multipathdSocket : String} {query : CString} {bytes buf : List UInt8} {bufsize : ℕ}
  {writes : List (CallResult ℕ ℕ)} {reads : List (CallResult ℕ (List UInt8))}

lemma Answered.multipathdQuery_eq (h : Answered query bytes writes reads)
    (hlt : bytes.length < 256 ^ sizeofLen) (hle : bytes.length ≤ bufsize) :
    multipathdQuery multipathdSocket true query buf bufsize writes reads
      = .ok (some (bytes ++ buf.drop bytes.length)) := by
  have hencode := LittleEndian.length_encode sizeofLen (query.length + 1)
  have hnumber := LittleEndian.length_encode sizeofLen bytes.length
  have henough := h.writes_enough
  obtain ⟨used₁, writes', rfl, hused₁, hwrite₁⟩ :=
    writeAll_delivers (LittleEndian.encode sizeofLen (query.length + 1))
      h.writes_within.length h.writes_go (by omega)
  rw [amount_append, hused₁] at henough
  obtain ⟨used₂, writes'', -, -, hwrite₂⟩ :=
    writeAll_delivers (query ++ [0]) (h.writes_within.bytes _ _ _ hwrite₁)
      (fun r hr => h.writes_go r (List.mem_append_right _ hr)) (by omega)
  have hlength : (received reads).length = sizeofLen + bytes.length := by
    rw [h.received_eq, List.length_append, hnumber]
  obtain ⟨used₃, reads', rfl, hread₁, hrest⟩ :=
    readAll_delivers (LittleEndian.encode sizeofLen (query.length + 1))
      h.reads_within.length h.reads_go (by omega)
  have hword : (received (used₃ ++ reads')).take sizeofLen
      = LittleEndian.encode sizeofLen bytes.length := by
    rw [h.received_eq, List.take_left' hnumber]
  have hbytes : received reads' = bytes := by
    rw [hrest, h.received_eq, List.drop_left' hnumber]
  rw [hword, List.drop_of_length_le hencode.le, List.append_nil] at hread₁
  have hwithin := h.reads_within.bytes _ _ _ hread₁
  rw [LittleEndian.decode_encode _ _ hlt] at hwithin
  obtain ⟨used₄, reads'', -, hread₂, -⟩ := readAll_delivers buf hwithin
    (fun r hr => h.reads_go r (List.mem_append_right _ hr)) (by rw [hbytes])
  rw [hbytes, List.take_length] at hread₂
  have hlong : ¬ bytes.length > bufsize := not_lt.2 hle
  simp only [multipathdQuery, not_true_eq_false, if_false, ne_eq, hwrite₁, hwrite₂, hread₁,
    LittleEndian.decode_encode _ _ hlt, hlong, hread₂]

end Answered

/-! ### What the check reports -/

section Report

variable {programNameShort : CString} {root connected : Bool} {multipathdSocket : String}
  {regcompError : Option String} {writes : List (CallResult ℕ ℕ)}
  {reads : List (CallResult ℕ (List UInt8))}

/-- Zeros behind the bytes do not change the string. -/
lemma stringAt_append_zeros (bytes : List UInt8) (k : ℕ) :
    stringAt (bytes ++ List.replicate k 0) = stringAt bytes := by
  have hzeros : (List.replicate k (0 : UInt8)).takeWhile (· ≠ 0) = [] := by
    cases k <;> rfl
  rw [stringAt, stringAt, List.takeWhile_append, hzeros]
  split_ifs with h
  · rw [List.append_nil]
    exact (List.takeWhile_prefix _).eq_of_length h |>.symm
  · rfl

lemma checkMultipath_string {str : CString} {terminator : List UInt8}
    (hzero : ∀ c ∈ str, c ≠ 0) (hterminator : terminator = [] ∨ terminator = [0])
    (hfits : str.length < bufferSize)
    (hanswered : Answered showPaths (str ++ terminator) writes reads) :
    checkMultipath programNameShort true multipathdSocket true none writes reads
      = .ok (some (multipathReport programNameShort
          ((tokens '\n' str).tail.countP fun row => dmStOkPattern.search row = false))) := by
  have hlength : (str ++ terminator).length ≤ bufferSize := by
    rw [List.length_append]
    rcases hterminator with rfl | rfl
    · exact hfits.le
    · exact hfits
  have hlt : (str ++ terminator).length < 256 ^ sizeofLen := hlength.trans_lt (by decide)
  have hquery : multipathdQuery multipathdSocket true showPaths (zeroBuffer bufferSize) bufferSize
      writes reads = _ := hanswered.multipathdQuery_eq hlt hlength
  obtain ⟨behind, hbehind⟩ : ∃ behind, (str ++ terminator) ++
      (zeroBuffer bufferSize).drop (str ++ terminator).length = str ++ 0 :: behind := by
    rcases hterminator with rfl | rfl
    · obtain ⟨k, hk⟩ : ∃ k, bufferSize - str.length = k + 1 :=
        ⟨bufferSize - str.length - 1, by omega⟩
      refine ⟨List.replicate k 0, ?_⟩
      rw [List.append_nil, zeroBuffer, List.drop_replicate, hk, List.replicate_succ]
    · exact ⟨_, by rw [List.append_assoc]; rfl⟩
  rw [hbehind] at hquery
  rw [checkMultipath, if_neg (by simp), hquery]
  simp only [Except.ok_bind, checkForFaultyPaths_eq hzero]

/-- However the messages are cut into parts, the exit state and the count are those of the rows. -/
theorem checkMultipath_reply {reply : PathReply} {terminator : List UInt8}
    (hterminator : terminator = [] ∨ terminator = [0])
    (hfits : reply.render.length < bufferSize)
    (hanswered : Answered showPaths (reply.render ++ terminator) writes reads) :
    ∃ report, checkMultipath programNameShort true multipathdSocket true none writes reads
        = .ok (some report) ∧
      Judges programNameShort (reply.rows.countP fun row => row.2.Faulty ∧ ¬ row.2.Tolerated)
        report := by
  have hcount : (reply.rows.countP fun row => decide (row.2.Faulty ∧ ¬ row.2.Tolerated))
      = (tokens '\n' reply.render).tail.countP fun row => dmStOkPattern.search row = false := by
    rw [reply.tokens_render, List.tail_cons, List.countP_map]
    refine List.countP_congr fun row _ => ?_
    simp only [Function.comp_apply, decide_eq_true_eq]
    exact PathRow.search_eq_false_iff.symm
  refine ⟨_, checkMultipath_string reply.render_ne_zero hterminator hfits hanswered, ?_⟩
  rw [hcount]
  exact judges_multipathReport _ _

/-- `7:0:0:0 sdg 8:96 1 [failed][faulty] running`. -/
def failedRow : PathRow :=
  { activereadyRow with
    front := ascii "7:0:0:0 sdg 8:96 1"
    dmSt := ⟨ascii "failed", by decide +kernel, by decide +kernel⟩
    between := none
    between_blank := by decide +kernel
    plain := by decide +kernel
    other := by decide +kernel }

/-- A row that is tolerated and one that is not. -/
def twoPathsReply : PathReply :=
  { activereadyReply with rows := [(0, activereadyRow), (0, failedRow)] }

def twoPathsMessage : List UInt8 := twoPathsReply.render ++ [0]

/-- The messages in parts, with interruptions. -/
def cutWrites : List (CallResult ℕ ℕ) :=
  [.moved 2, .failed eintr, .moved 6, .failed eagain, .moved 4, .moved 7]

def cutReads : List (CallResult ℕ (List UInt8)) :=
  let number := LittleEndian.encode sizeofLen twoPathsMessage.length
  [.failed eintr, .moved (number.take 3), .moved (number.drop 3), .failed eagain,
    .moved (twoPathsMessage.take 10), .failed eintr, .moved (twoPathsMessage.drop 10)]

lemma readsWithin_cutReads : ReadsWithin showPaths cutReads where
  length := by
    iterate 3 apply Within.cons _ (by decide +kernel)
    intro used part rest _ _ hzero
    exact absurd hzero (Nat.not_lt_zero _)
  bytes := by
    intro total word rest hread
    have hrun : readAll (LittleEndian.encode sizeofLen (showPaths.length + 1)) sizeofLen cutReads
        = .returned sizeofLen (LittleEndian.encode sizeofLen twoPathsMessage.length)
            (cutReads.drop 3) := by
      decide +kernel
    rw [hrun] at hread
    cases hread
    rw [LittleEndian.decode_encode _ _ (by decide +kernel)]
    iterate 4 apply Within.cons _ (by decide +kernel)
    exact within_nil _

lemma answered_cut : Answered showPaths twoPathsMessage cutWrites cutReads where
  writes_within :=
    { length := by
        iterate 3 apply Within.cons _ (by decide)
        intro used part rest _ _ hzero
        exact absurd hzero (Nat.not_lt_zero _)
      bytes := by
        intro total sent rest hwrite
        have hrun : writeAll (LittleEndian.encode sizeofLen (showPaths.length + 1)) sizeofLen
            cutWrites = .returned sizeofLen
              (LittleEndian.encode sizeofLen (showPaths.length + 1)) (cutWrites.drop 3) := by
          decide +kernel
        rw [hrun] at hwrite
        cases hwrite
        iterate 3 apply Within.cons _ (by decide)
        exact within_nil _ }
  writes_go := by simp [cutWrites, CallResult.GoesOn, callAgain]
  writes_enough := by decide
  reads_within := readsWithin_cutReads
  reads_go := by
    simp only [cutReads, List.forall_mem_cons, List.not_mem_nil, false_imp_iff, implies_true,
      and_true, CallResult.GoesOn]
    decide +kernel
  received_eq := by
    simp only [cutReads, received, List.append_nil, List.take_append_drop]
    rw [← List.append_assoc, List.take_append_drop]

theorem checkMultipath_twoPaths :
    ∃ report, checkMultipath (ascii "multipath") true "multipathd" true none cutWrites cutReads
        = .ok (some report) ∧
      Judges (ascii "multipath")
        (twoPathsReply.rows.countP fun row => row.2.Faulty ∧ ¬ row.2.Tolerated) report ∧
      report = (.critical, ascii "multipath CRITICAL: found 1 faulty path(s)\n") := by
  have hcount : (twoPathsReply.rows.countP
      fun row => decide (row.2.Faulty ∧ ¬ row.2.Tolerated)) = 1 := by decide +kernel
  have hone : decimal 1 = ascii "1" := by decide
  have hreply : ∃ report, checkMultipath (ascii "multipath") true "multipathd" true none cutWrites
      cutReads = .ok (some report) ∧ Judges _ _ report :=
    checkMultipath_reply (.inr rfl) (by decide +kernel) answered_cut
  obtain ⟨report, hrun, hjudges⟩ := hreply
  refine ⟨report, hrun, hjudges, ?_⟩
  rw [hcount] at hjudges
  rw [hjudges.critical one_ne_zero, hone]
  rfl

/-- Whatever is received, an exit state is reported only for a whole reply, and it is OK only if
every line behind the first has the pattern. -/
theorem checkMultipath_report {report : Nagstatus × CString}
    (hwithin : ReadsWithin showPaths reads)
    (hreport : checkMultipath programNameShort root multipathdSocket connected regcompError writes
      reads = .ok (some report)) :
    (replyBytes reads).length = replyLength reads ∧ replyLength reads ≤ bufferSize ∧
      Judges programNameShort ((tokens '\n' (stringAt (replyBytes reads))).tail.countP
        fun row => dmStOkPattern.search row = false) report := by
  rw [checkMultipath] at hreport
  split_ifs at hreport
  obtain ⟨buffer, hquery, hreport⟩ := Except.bind_eq_ok.1 hreport
  cases buffer with
  | none => cases hreport
  | some buffer =>
    obtain ⟨faultyPaths, hfaulty, hreport⟩ := Except.bind_eq_ok.1 hreport
    obtain ⟨hbuffer, hlength, hle⟩ := multipathdQuery_returned hwithin hquery
    refine ⟨hlength, hle, ?_⟩
    cases hreport
    cases regcompError with
    | some message => cases hfaulty
    | none =>
      rw [checkForFaultyPaths] at hfaulty
      split_ifs at hfaulty with hzero
      cases hfaulty
      rw [faultyPathsLoop_eq le_rfl Nat.one_pos, Nat.zero_add, if_neg (lt_irrefl 1), hbuffer,
        zeroBuffer, List.drop_replicate, stringAt_append_zeros]
      exact judges_multipathReport _ _

theorem checkMultipath_report_twoPaths :
    ∃ report, checkMultipath (ascii "multipath") true "multipathd" true none cutWrites cutReads
        = .ok (some report) ∧
      (replyBytes cutReads).length = replyLength cutReads ∧
      replyLength cutReads ≤ bufferSize ∧
      Judges (ascii "multipath") ((tokens '\n' (stringAt (replyBytes cutReads))).tail.countP
        fun row => dmStOkPattern.search row = false) report := by
  have hrun : checkMultipath (ascii "multipath") true "multipathd" true none cutWrites cutReads
      = _ :=
    checkMultipath_string twoPathsReply.render_ne_zero (.inr rfl) (by decide +kernel) answered_cut
  exact ⟨_, hrun, checkMultipath_report readsWithin_cutReads hrun⟩

end Report

end NagiosPlugins
