import NagiosPlugins.Common
import NagiosPlugins.Data.LittleEndian
import NagiosPlugins.Libc.Snprintf
import NagiosPlugins.Multipath.Lossless

/-!
# The query

`multipathd_query` of `plugins/check_multipath.c`. A message is its length, a `size_t`, and as many
bytes. A reply may fill the whole buffer, and nothing is written behind it.
-/

namespace NagiosPlugins

open Libc Transfer

/-- `sizeof (len)`. -/
def sizeofLen : ℕ := 8

/-- `multipathd_query`: what `buf` holds when it returns, or `none` as long as it waits. The replies
are those to the calls of `write` and of `read`. -/
def multipathdQuery (multipathdSocket : String) (connected : Bool) (query : CString)
    (buf : List UInt8) (bufsize : ℕ) (writes : List (CallResult ℕ ℕ))
    (reads : List (CallResult ℕ (List UInt8))) : Except Stop (Option (List UInt8)) :=
  let len := query.length + 1
  if ¬ connected then .error (.pluginError .unknown ("cannot connect to " ++ multipathdSocket))
  else
    match writeAll (LittleEndian.encode sizeofLen len) sizeofLen writes with
    | .waiting _ _ => .ok none
    | .returned total _ writes =>
      if total ≠ sizeofLen then
        .error (.pluginError .unknown "failed to send message to multipathd")
      else
        match writeAll (query ++ [0]) len writes with
        | .waiting _ _ => .ok none
        | .returned total _ _ =>
          if total ≠ len then
            .error (.pluginError .unknown "failed to send message to multipathd")
          else
            match readAll (LittleEndian.encode sizeofLen len) sizeofLen reads with
            | .waiting _ _ => .ok none
            | .returned total word reads =>
              if total ≠ sizeofLen then
                .error (.pluginError .unknown "failed to receive message from multipathd")
              else
                let len := LittleEndian.decode word
                if len > bufsize then
                  .error (.pluginError .unknown "reply from multipathd too long")
                else
                  match readAll buf len reads with
                  | .waiting _ _ => .ok none
                  | .returned total buf _ =>
                    if total ≠ len then
                      .error (.pluginError .unknown "failed to receive message from multipathd")
                    else .ok (some buf)

/-- The size of `buffer` in `main`. -/
def bufferSize : ℕ := 10240

/-- What `main` asks for. -/
def showPaths : CString := ascii "show paths"

/-- `buffer`, which is zero at first. -/
def zeroBuffer (bufsize : ℕ) : List UInt8 := List.replicate bufsize 0

/-! ### The reply -/

/-- The length in front of a reply. -/
def replyLength (reads : List (CallResult ℕ (List UInt8))) : ℕ :=
  LittleEndian.decode ((received reads).take sizeofLen)

/-- The bytes of a reply. -/
def replyBytes (reads : List (CallResult ℕ (List UInt8))) : List UInt8 :=
  ((received reads).drop sizeofLen).take (replyLength reads)

/-- A call of `read` never returns more than it is asked for, in either of the two transfers. -/
structure ReadsWithin (query : CString) (reads : List (CallResult ℕ (List UInt8))) : Prop where
  length : Within List.length callAgain sizeofLen reads
  bytes : ∀ total word rest,
    readAll (LittleEndian.encode sizeofLen (query.length + 1)) sizeofLen reads
      = .returned total word rest → Within List.length callAgain (LittleEndian.decode word) rest

/-- A transfer that is complete has stored the first bytes that are received. -/
lemma readAll_complete {buf mem : List UInt8} {len : ℕ}
    {reads rest : List (CallResult ℕ (List UInt8))}
    (hwithin : Within List.length callAgain len reads)
    (hreturned : readAll buf len reads = .returned len mem rest) :
    mem = (received reads).take len ++ buf.drop len ∧ len ≤ (received reads).length ∧
      received rest = (received reads).drop len := by
  obtain ⟨used, left, rfl, -, hends⟩ := Loop.run_ends (effect_store buf len) hwithin
  have hlen : (received used).length = len := by
    rw [length_received]
    exact (hends.returned_eq hreturned).symm
  obtain ⟨rfl, rfl⟩ := hends.of_complete hreturned
  rw [received_append, List.take_left' hlen, List.drop_left' hlen, memoryWith, hlen]
  refine ⟨rfl, ?_, rfl⟩
  rw [List.length_append]
  omega

section Returned

variable {multipathdSocket : String} {connected : Bool} {query : CString} {buf buf' : List UInt8}
  {bufsize : ℕ} {writes : List (CallResult ℕ ℕ)} {reads : List (CallResult ℕ (List UInt8))}

/-- A query that returns has read a length and as many bytes. -/
lemma multipathdQuery_inv (hreturned : multipathdQuery multipathdSocket connected query buf bufsize
      writes reads = .ok (some buf')) :
    ∃ word rest left,
      readAll (LittleEndian.encode sizeofLen (query.length + 1)) sizeofLen reads
        = .returned sizeofLen word rest ∧ LittleEndian.decode word ≤ bufsize ∧
      readAll buf (LittleEndian.decode word) rest
        = .returned (LittleEndian.decode word) buf' left := by
  rw [multipathdQuery] at hreturned
  dsimp only at hreturned
  split_ifs at hreturned
  split at hreturned
  · cases hreturned
  split_ifs at hreturned
  split at hreturned
  · cases hreturned
  split_ifs at hreturned
  split at hreturned
  · cases hreturned
  next total word rest hlength =>
    split_ifs at hreturned with htotal hlong
    split at hreturned
    · cases hreturned
    next total' mem left hbytes =>
      split_ifs at hreturned with htotal'
      cases hreturned
      rw [not_not.1 htotal] at hlength
      rw [not_not.1 htotal'] at hbytes
      exact ⟨word, rest, left, hlength, not_lt.1 hlong, hbytes⟩

/-- What is in the buffer when the query returns: the bytes of the reply, and what has been behind
them before. -/
lemma multipathdQuery_returned (hwithin : ReadsWithin query reads)
    (hreturned : multipathdQuery multipathdSocket connected query buf bufsize writes reads
      = .ok (some buf')) :
    buf' = replyBytes reads ++ buf.drop (replyLength reads) ∧
      (replyBytes reads).length = replyLength reads ∧ replyLength reads ≤ bufsize := by
  obtain ⟨word, rest, left, hlength, hle, hbytes⟩ := multipathdQuery_inv hreturned
  obtain ⟨hword, -, hrest⟩ := readAll_complete hwithin.length hlength
  have hdrop : (LittleEndian.encode sizeofLen (query.length + 1)).drop sizeofLen = [] :=
    List.drop_of_length_le (LittleEndian.length_encode _ _).le
  have hreply : LittleEndian.decode word = replyLength reads := by
    rw [hword, hdrop, List.append_nil, replyLength]
  obtain ⟨hmem, hlong, -⟩ := readAll_complete (hwithin.bytes _ _ _ hlength) hbytes
  rw [hreply, hrest] at hmem hlong
  refine ⟨hmem, ?_, by rwa [← hreply]⟩
  rw [replyBytes, List.length_take]
  omega

/-- A reply that is accepted is a string in the buffer if and only if it does not fill the buffer,
or has a NUL itself. -/
theorem replyTerminated_iff (hwithin : ReadsWithin query reads)
    (hreturned : multipathdQuery multipathdSocket connected query (zeroBuffer bufsize) bufsize
      writes reads = .ok (some buf')) :
    (∃ i < bufsize, buf'[i]? = some 0) ↔
      replyLength reads < bufsize ∨ (0 : UInt8) ∈ replyBytes reads := by
  obtain ⟨hbuf, hlength, hle⟩ := multipathdQuery_returned hwithin hreturned
  have hrest : (zeroBuffer bufsize).drop (replyLength reads)
      = List.replicate (bufsize - replyLength reads) 0 := by
    rw [zeroBuffer, List.drop_replicate]
  have hsize : buf'.length = bufsize := by
    rw [hbuf, hrest, List.length_append, hlength, List.length_replicate]
    omega
  have hmem : (∃ i < bufsize, buf'[i]? = some 0) ↔ (0 : UInt8) ∈ buf' := by
    rw [List.mem_iff_getElem?]
    constructor
    · rintro ⟨i, -, hi⟩
      exact ⟨i, hi⟩
    · rintro ⟨i, hi⟩
      obtain ⟨hlt, -⟩ := List.getElem?_eq_some_iff.1 hi
      exact ⟨i, hsize ▸ hlt, hi⟩
  rw [hmem, hbuf, hrest, List.mem_append, List.mem_replicate, or_comm]
  apply or_congr_left
  rw [Nat.sub_ne_zero_iff_lt]
  exact and_iff_left rfl

end Returned

/-! ### A peer that sends everything at once -/

/-- One call that moves everything. -/
lemma Loop.run_whole {α σ : Type*} {size : α → ℕ} {move : σ → ℕ → α → σ} {n : α} (hn : size n ≠ 0)
    (state : σ) (replies : List (CallResult ℕ α)) :
    Loop.run size move ⟨state, 0, size n, 0⟩ (.moved n :: replies)
      = .returned (size n) (move state 0 n) replies := by
  rw [Loop.run, if_neg hn]
  simp only [if_neg hn]
  rw [Loop.run_complete (by simp [Loop.advance])]
  simp [Loop.advance]

lemma readAll_whole {bytes : List UInt8} (hne : bytes ≠ []) (buf : List UInt8)
    (reads : List (CallResult ℕ (List UInt8))) :
    readAll buf bytes.length (.moved bytes :: reads)
      = .returned bytes.length (bytes ++ buf.drop bytes.length) reads := by
  have hlength : bytes.length ≠ 0 := mt List.length_eq_zero_iff.1 hne
  rw [readAll, Loop.run_whole hlength, store, List.take_zero, List.nil_append, Nat.zero_add]

lemma writeAll_whole {len : ℕ} (hlen : len ≠ 0) (buf : List UInt8)
    (writes : List (CallResult ℕ ℕ)) :
    writeAll buf len (.moved len :: writes) = .returned len (buf.take len) writes :=
  @Loop.run_whole ℕ _ id _ len hlen [] writes

section Whole

variable (query : CString) (bytes : List UInt8)

/-- The calls of `write` send the query. -/
def wholeWrites : List (CallResult ℕ ℕ) := [.moved sizeofLen, .moved (query.length + 1)]

/-- The calls of `read` receive the bytes behind their number. -/
def wholeReads : List (CallResult ℕ (List UInt8)) :=
  [.moved (LittleEndian.encode sizeofLen bytes.length), .moved bytes]

variable {bytes} (hne : bytes ≠ []) (hlt : bytes.length < 256 ^ sizeofLen)

lemma readAll_wholeReads (buf : List UInt8) (hbuf : buf.length = sizeofLen) :
    readAll buf sizeofLen (wholeReads bytes)
      = .returned sizeofLen (LittleEndian.encode sizeofLen bytes.length) [.moved bytes] := by
  have hlength := LittleEndian.length_encode sizeofLen bytes.length
  have hencode : LittleEndian.encode sizeofLen bytes.length ≠ [] := by
    rw [← List.length_pos_iff, hlength]
    decide
  have hrun := readAll_whole hencode buf [.moved bytes]
  rwa [hlength, List.drop_of_length_le hbuf.le, List.append_nil] at hrun

include hlt

lemma readsWithin_wholeReads : ReadsWithin query (wholeReads bytes) where
  length := by
    apply Within.cons _ (LittleEndian.length_encode _ _).le
    rw [CallResult.amount, LittleEndian.length_encode, Nat.sub_self]
    intro used part rest _ _ hzero
    exact absurd hzero (Nat.not_lt_zero _)
  bytes := by
    intro total word rest hread
    rw [readAll_wholeReads _ (LittleEndian.length_encode _ _)] at hread
    cases hread
    rw [LittleEndian.decode_encode _ _ hlt]
    exact Within.cons (within_nil _) (le_refl _)

include hne

lemma multipathdQuery_whole (multipathdSocket : String) {bufsize : ℕ}
    (hle : bytes.length ≤ bufsize) (buf : List UInt8) :
    multipathdQuery multipathdSocket true query buf bufsize (wholeWrites query) (wholeReads bytes)
      = .ok (some (bytes ++ buf.drop bytes.length)) := by
  have hlong : ¬ bytes.length > bufsize := not_lt.2 hle
  simp only [multipathdQuery, wholeWrites, not_true_eq_false, if_false, ne_eq,
    writeAll_whole (show sizeofLen ≠ 0 by decide), writeAll_whole (Nat.succ_ne_zero query.length),
    readAll_wholeReads _ (LittleEndian.length_encode _ _), LittleEndian.decode_encode _ _ hlt,
    hlong, readAll_whole hne]

end Whole

/-- A short reply. -/
theorem replyTerminated_iff_short :
    (∃ i < bufferSize, (ascii "hcil" ++ (zeroBuffer bufferSize).drop 4)[i]? = some 0) ↔
      replyLength (wholeReads (ascii "hcil")) < bufferSize ∨
        (0 : UInt8) ∈ replyBytes (wholeReads (ascii "hcil")) :=
  replyTerminated_iff (readsWithin_wholeReads showPaths (by decide))
    (multipathdQuery_whole showPaths (by decide) (by decide) "multipathd" (by decide) _)

/-- As many bytes as there is room for, none of them a NUL. -/
def fullReply : List UInt8 := List.replicate bufferSize 'x'

/-- They are accepted, and the buffer has no NUL. -/
theorem fullReply_not_terminated :
    ∃ buf, ReadsWithin showPaths (wholeReads fullReply) ∧
      multipathdQuery "multipathd" true showPaths (zeroBuffer bufferSize) bufferSize
        (wholeWrites showPaths) (wholeReads fullReply) = .ok (some buf) ∧
      ¬ ∃ i < bufferSize, buf[i]? = some 0 := by
  have hlength : fullReply.length = bufferSize := List.length_replicate
  have hne : fullReply ≠ [] := by
    rw [← List.length_pos_iff, hlength]
    decide
  have hlt : fullReply.length < 256 ^ sizeofLen := by
    rw [hlength]
    decide
  refine ⟨_, readsWithin_wholeReads showPaths hlt,
    multipathdQuery_whole showPaths hne hlt "multipathd" hlength.le _, ?_⟩
  rintro ⟨i, hi, hzero⟩
  rw [List.getElem?_append_left (hlength.symm ▸ hi), fullReply, List.getElem?_replicate_of_lt hi]
    at hzero
  exact absurd (Option.some.inj hzero) (by decide)

end NagiosPlugins
