import NagiosPlugins.Libc.Printf
import NagiosPlugins.Processes.Getall
import NagiosPlugins.Processes.Properties

/-!
# Counting the processes by user

What the list of users looks like after any sequence of calls, and that reading the status files
makes one call for each process.
-/

namespace NagiosPlugins

open Libc

/-! ### The list -/

/-- The node that is reached from the head in `k` steps. -/
def nodeAfter (heap : ProcsHeap) : ℕ → Option ℕ
  | 0 => some 0
  | k + 1 => nodeAfter heap k >>= procsListNodeGetNext heap

/-- The list after some additions of a number to a user. The numbers are of the type `long`. -/
structure ListsUsers (heap : ProcsHeap) (puts : List (UInt32 × ℕ)) : Prop where
  nodeAfter_eq : ∀ k < heap.length, nodeAfter heap k = some k
  getNext_self_iff : ∀ k < heap.length,
    procsListNodeGetNext heap k = some k ↔ k + 1 = heap.length
  uids : heap.tail.map (·.uid) = (puts.map Prod.fst).eraseDups
  nodup : (heap.tail.map (·.uid)).Nodup
  nbr : ∀ node ∈ heap.tail, node.nbr = Int64.ofNat (Tally.total puts node.uid)
  total : procsListNodeGetTotalProcsNbr heap 0 = some (Int64.ofNat (puts.map Prod.snd).sum)

/-- The number that a call adds to a user. -/
def ProcsAddCall.put (call : ProcsAddCall) : UInt32 × ℕ := (call.uid, call.inc.toNat)

lemma toInt64_eq_ofNat (x : UInt64) : x.toInt64 = Int64.ofNat x.toNat := by
  rw [← UInt64.toInt64_ofNat', UInt64.ofNat_toNat]

lemma sum_map_ofNat (l : List ℕ) : (l.map Int64.ofNat).sum = Int64.ofNat l.sum := by
  induction l with
  | nil => rfl
  | cons n l ih => rw [List.map_cons, List.sum_cons, List.sum_cons, ih, Int64.ofNat_add]

lemma increments_eq (calls : List ProcsAddCall) :
    increments calls = (calls.map ProcsAddCall.put).map (Prod.map id Int64.ofNat) := by
  rw [increments, List.map_map]
  apply List.map_congr_left
  intro call _
  rw [toInt64_eq_ofNat]
  rfl

lemma total_increments (calls : List ProcsAddCall) (uid : UInt32) :
    Tally.total (increments calls) uid
      = Int64.ofNat (Tally.total (calls.map ProcsAddCall.put) uid) := by
  rw [increments_eq, Tally.total, Tally.total, List.filter_map, List.map_map, ← sum_map_ofNat,
    List.map_map]
  rfl

lemma HoldsUsers.nodeAfter_eq {heap : ProcsHeap} {t : List (UInt32 × Int64)}
    (h : HoldsUsers heap t) {k : ℕ} (hk : k < heap.length) : nodeAfter heap k = some k := by
  induction k with
  | zero => rfl
  | succ k ih =>
    have hmin : min (k + 1) (heap.length - 1) = k + 1 := by omega
    rw [nodeAfter, ih (Nat.lt_of_succ_lt hk), Option.bind_eq_bind, Option.bind_some,
      h.getNext (Nat.lt_of_succ_lt hk), hmin]

lemma HoldsUsers.tail_entries {heap : ProcsHeap} {t : List (UInt32 × Int64)}
    (h : HoldsUsers heap t) : heap.tail.map ProcsListNode.entry = Tally.totals t := by
  rw [List.map_tail, h.entries, List.tail_cons]

lemma HoldsUsers.tail_uids {heap : ProcsHeap} {t : List (UInt32 × Int64)}
    (h : HoldsUsers heap t) : heap.tail.map (·.uid) = Tally.keys t := by
  have huids := congrArg (List.map Prod.fst) h.tail_entries
  rw [Tally.totals, List.map_map, List.map_map] at huids
  exact huids.trans (List.map_id _)

lemma HoldsUsers.listsUsers {heap : ProcsHeap} {calls : List ProcsAddCall}
    (h : HoldsUsers heap (increments calls)) : ListsUsers heap (calls.map ProcsAddCall.put) where
  nodeAfter_eq _ hk := h.nodeAfter_eq hk
  getNext_self_iff k hk := by
    rw [h.getNext hk, Option.some_inj]
    omega
  uids := by
    rw [h.tail_uids, Tally.keys, increments_eq, List.map_map]
    rfl
  nodup := by
    rw [h.tail_uids]
    exact Tally.nodup_keys _
  nbr node hnode := by
    have hentry : node.entry ∈ Tally.totals (increments calls) := by
      rw [← h.tail_entries]
      exact List.mem_map_of_mem hnode
    obtain ⟨uid, -, heq⟩ := List.mem_map.1 hentry
    obtain ⟨rfl, hnbr⟩ := Prod.mk.inj heq
    rw [← hnbr]
    exact total_increments calls node.uid
  total := by
    obtain ⟨head, users, rfl, hhead, -⟩ := List.map_eq_cons_iff.1 h.entries
    have htotal : head.nbr = ((increments calls).map Prod.snd).sum := congrArg Prod.snd hhead
    have hsum : ((increments calls).map Prod.snd).sum
        = Int64.ofNat ((calls.map ProcsAddCall.put).map Prod.snd).sum := by
      simp only [← sum_map_ofNat, increments_eq, List.map_map]
      rfl
    rw [← hsum, ← htotal]
    rfl

/-! ### Status files -/

/-- A line of a status file, without its newline. -/
inductive StatusLine where
  | name (rest : CString)
  | uid (blanks : CString) (uid : UInt32) (rest : CString)
  | threads (blanks : CString) (threads : ℕ) (rest : CString)
  | other (line : CString)

namespace StatusLine

def text : StatusLine → CString
  | .name rest => ascii "Name:" ++ rest
  | .uid blanks user rest => ascii "Uid:" ++ (blanks ++ (decimal user.toNat ++ rest))
  | .threads blanks n rest => ascii "Threads:" ++ (blanks ++ (decimal n ++ rest))
  | .other line => line

/-- A number stands between blanks and something that does not go on with digits. -/
def Delimited (blanks rest : CString) : Prop :=
  (∀ c ∈ blanks, isspace c) ∧ ∀ c ∈ rest.head?, isdigit c = false

def Valid (line : StatusLine) : Prop :=
  (∀ c ∈ line.text, c ≠ '\n' ∧ c ≠ 0) ∧
    match line with
    | .name _ => True
    | .uid blanks _ rest => Delimited blanks rest
    | .threads blanks n rest => Delimited blanks rest ∧ n < 2 ^ 63
    | .other line => ∀ word ∈ [ascii "Name:", ascii "Threads:", ascii "Uid:"], ¬ word <+: line

end StatusLine

/-- A status file in which the lines of the name, the user and the threads stand in any order. -/
structure StatusFile where
  lines : List StatusLine
  uid : UInt32
  threads : ℕ
  valid : ∀ line ∈ lines, line.Valid
  name_mem : ∃ rest, .name rest ∈ lines
  uid_mem : ∃ blanks rest, .uid blanks uid rest ∈ lines
  uid_unique : ∀ blanks uid' rest, .uid blanks uid' rest ∈ lines → uid' = uid
  threads_mem : ∃ blanks rest, .threads blanks threads rest ∈ lines
  threads_unique : ∀ blanks threads' rest, .threads blanks threads' rest ∈ lines →
    threads' = threads

def StatusFile.content (file : StatusFile) : List UInt8 :=
  (file.lines.map StatusLine.text).flatMap (· ++ [('\n' : UInt8)])

lemma StatusFile.getlines_content (file : StatusFile) :
    getlines file.content
      = file.lines.map fun line => line.text ++ [('\n' : UInt8)] := by
  have hchars : ∀ l ∈ file.lines.map StatusLine.text, ∀ c ∈ l, c ≠ '\n' ∧ c ≠ 0 := by
    intro l hl
    obtain ⟨line, hline, rfl⟩ := List.mem_map.1 hl
    exact (file.valid line hline).1
  rw [content, getlines_flatMap hchars, List.map_map]
  rfl

/-! ### One line -/

section Line

variable (v : StatusVars)

lemma statusLine_name (rest : CString) :
    statusLine v (ascii "Name:" ++ rest)
      = { v with cmd := (rest.dropWhile isspace).take (maxLine - 1), gotname := true } := by
  have hthreads : hasPrefix (ascii "Name:" ++ rest) (ascii "Threads:") = false :=
    hasPrefix_cons_of_ne (by decide) _ _
  have huid : hasPrefix (ascii "Name:" ++ rest) (ascii "Uid:") = false :=
    hasPrefix_cons_of_ne (by decide) _ _
  rw [statusLine, hasPrefix_append, hthreads, huid]
  rfl

lemma statusLine_uid (rest : CString) :
    statusLine v (ascii "Uid:" ++ rest)
      = { v with uid := UInt32.ofInt (strtol rest), gotuid := true } := by
  have hname : hasPrefix (ascii "Uid:" ++ rest) (ascii "Name:") = false :=
    hasPrefix_cons_of_ne (by decide) _ _
  have hthreads : hasPrefix (ascii "Uid:" ++ rest) (ascii "Threads:") = false :=
    hasPrefix_cons_of_ne (by decide) _ _
  rw [statusLine, hasPrefix_append, hname, hthreads]
  rfl

lemma statusLine_threads (rest : CString) :
    statusLine v (ascii "Threads:" ++ rest)
      = { v with threadsNbr := toUnsigned (strtol rest), gotthreads := true } := by
  have hname : hasPrefix (ascii "Threads:" ++ rest) (ascii "Name:") = false :=
    hasPrefix_cons_of_ne (by decide) _ _
  have huid : hasPrefix (ascii "Threads:" ++ rest) (ascii "Uid:") = false :=
    hasPrefix_cons_of_ne (by decide) _ _
  rw [statusLine, hasPrefix_append, hname, huid]
  rfl

lemma statusLine_other {line : CString}
    (h : ∀ word ∈ [ascii "Name:", ascii "Threads:", ascii "Uid:"], ¬ word <+: line) :
    statusLine v (line ++ [('\n' : UInt8)]) = v := by
  have hword : ∀ word ∈ [ascii "Name:", ascii "Threads:", ascii "Uid:"],
      hasPrefix (line ++ [('\n' : UInt8)]) word = false := by
    have hnewline : ∀ word ∈ [ascii "Name:", ascii "Threads:", ascii "Uid:"],
        ('\n' : UInt8) ∉ word := by decide
    intro word hword
    exact hasPrefix_newline (hnewline word hword) (h word hword)
  simp only [List.mem_cons, List.not_mem_nil, or_false, forall_eq_or_imp, forall_eq] at hword
  obtain ⟨hname, hthreads, huid⟩ := hword
  rw [statusLine, hname, hthreads, huid]
  rfl

/-- The number of a line is read up to what stands behind it. -/
lemma strtol_delimited {blanks rest : CString} (h : StatusLine.Delimited blanks rest) {n : ℕ}
    (hn : n < 2 ^ 63) :
    strtol (blanks ++ (decimal n ++ rest) ++ [('\n' : UInt8)]) = n := by
  have hrest : ∀ c ∈ (rest ++ [('\n' : UInt8)]).head?, isdigit c = false := by
    cases rest with
    | nil =>
      intro c hc
      cases hc
      decide
    | cons d rest => exact h.2
  have hvalue : natOfDigits 10 (decimal n) < 2 ^ 63 := by rwa [natOfDigits_decimal]
  rw [List.append_assoc, List.append_assoc,
    strtol_digits h.1 (isdigit_of_mem_decimal n) (decimal_ne_nil n) hrest hvalue,
    natOfDigits_decimal]

end Line

/-! ### One file -/

/-- In front of some lines of a file, what was got is that of the process, and what was not got is
in these lines. -/
structure Pending (file : StatusFile) (lines : List StatusLine) (v : StatusVars) : Prop where
  subset : lines ⊆ file.lines
  name : v.gotname = true ∨ ∃ rest, .name rest ∈ lines
  uid : v.gotuid = true ∨ ∃ blanks rest, .uid blanks file.uid rest ∈ lines
  uid_eq : v.gotuid = true → v.uid = file.uid
  threads : v.gotthreads = true ∨ ∃ blanks rest, .threads blanks file.threads rest ∈ lines
  threads_eq : v.gotthreads = true → v.threadsNbr = UInt64.ofNat file.threads

lemma Pending.line {file : StatusFile} {line : StatusLine} {lines : List StatusLine}
    {v : StatusVars} (h : Pending file (line :: lines) v) :
    Pending file lines (statusLine v (line.text ++ [('\n' : UInt8)])) := by
  obtain ⟨hmem, hsubset⟩ := List.cons_subset.1 h.subset
  obtain ⟨-, hvalid⟩ := file.valid line hmem
  cases line with
  | name rest =>
    rw [StatusLine.text, List.append_assoc, statusLine_name]
    refine ⟨hsubset, .inl rfl, ?_, h.uid_eq, ?_, h.threads_eq⟩
    · simpa using h.uid
    · simpa using h.threads
  | uid blanks user rest =>
    have huser : user = file.uid := file.uid_unique _ _ _ hmem
    have hvalue := strtol_delimited hvalid (user.toNat_lt.trans (by decide))
    rw [StatusLine.text, List.append_assoc, statusLine_uid, hvalue]
    refine ⟨hsubset, ?_, .inl rfl, ?_, ?_, h.threads_eq⟩
    · simpa using h.name
    · intro _
      rw [← huser]
      exact ofInt_toNat user
    · simpa using h.threads
  | threads blanks n rest =>
    have hn : n = file.threads := file.threads_unique _ _ _ hmem
    have hvalue := strtol_delimited hvalid.1 hvalid.2
    rw [StatusLine.text, List.append_assoc, statusLine_threads, hvalue]
    refine ⟨hsubset, ?_, ?_, h.uid_eq, .inl rfl, ?_⟩
    · simpa using h.name
    · simpa using h.uid
    · intro _
      rw [← hn]
      exact toUnsigned_natCast n
  | other line =>
    rw [StatusLine.text, statusLine_other v hvalid]
    refine ⟨hsubset, ?_, ?_, h.uid_eq, ?_, h.threads_eq⟩
    · simpa using h.name
    · simpa using h.uid
    · simpa using h.threads

/-- The call for the process of a status file. -/
def StatusFile.call (file : StatusFile) (sys : ProcSystem) (flags : UInt32) : ProcsAddCall where
  uid := file.uid
  inc := if flags &&& nbprocsThreads ≠ 0 then UInt64.ofNat file.threads else 1
  pwName := sys.getpwuid file.uid
  rlim := sys.getrlimit

/-- The loop makes the call for the process, by induction on the lines that are left. -/
lemma statusLoop_of_pending (sys : ProcSystem) (flags : UInt32) {file : StatusFile}
    {lines : List StatusLine} {v : StatusVars} (h : Pending file lines v)
    (hv : v.gotAll = false) (heap : ProcsHeap) :
    ∃ v', v'.gotAll = true ∧
      statusLoop sys flags (lines.map fun line => line.text ++ [('\n' : UInt8)]) v heap
        = (procsListNodeAdd (file.call sys flags) heap).map fun r => (v', r.2) := by
  induction lines generalizing v with
  | nil =>
    have hname := h.name
    have huid := h.uid
    have hthreads := h.threads
    simp only [List.not_mem_nil, exists_const, or_false] at hname huid hthreads
    rw [StatusVars.gotAll, hname, huid, hthreads] at hv
    cases hv
  | cons line lines ih =>
    have hline := h.line
    rw [List.map_cons, statusLoop]
    by_cases hall : (statusLine v (line.text ++ [('\n' : UInt8)])).gotAll = true
    · have hgot := hall
      rw [StatusVars.gotAll, Bool.and_eq_true, Bool.and_eq_true] at hgot
      obtain ⟨⟨-, huid⟩, hthreads⟩ := hgot
      have hcall : addCall sys flags (statusLine v (line.text ++ [('\n' : UInt8)]))
          = file.call sys flags := by
        rw [addCall, StatusFile.call, hline.uid_eq huid, hline.threads_eq hthreads]
      refine ⟨_, hall, ?_⟩
      rw [if_pos hall, hcall]
      cases procsListNodeAdd (file.call sys flags) heap <;> rfl
    · rw [if_neg hall]
      exact ih hline (Bool.eq_false_iff.2 hall)

lemma StatusFile.pending (file : StatusFile) (uid : UInt32) (threadsNbr : UInt64)
    (cmd : CString) : Pending file file.lines ⟨false, false, false, uid, threadsNbr, cmd⟩ where
  subset := List.Subset.refl _
  name := .inr file.name_mem
  uid := .inr file.uid_mem
  uid_eq h := absurd h Bool.false_ne_true
  threads := .inr file.threads_mem
  threads_eq h := absurd h Bool.false_ne_true

/-! ### All files -/

/-- An entry of `/proc`: one that is passed over, or a process with its status file. -/
inductive ProcEntry where
  | skipped (dp : ProcDirent)
    (h : dp.isDir = false ∨ dp.dName.head?.any isdigit = false ∨ dp.status = none)
  | process (dName : CString) (h : dName.head?.any isdigit = true) (file : StatusFile)

def ProcEntry.dirent : ProcEntry → ProcDirent
  | .skipped dp _ => dp
  | .process dName _ file => ⟨true, dName, some file.content⟩

def ProcEntry.file? : ProcEntry → Option StatusFile
  | .skipped _ _ => none
  | .process _ _ file => some file

lemma getallEntry_skipped (sys : ProcSystem) (flags : UInt32) (s : GetallState) {dp : ProcDirent}
    (h : dp.isDir = false ∨ dp.dName.head?.any isdigit = false ∨ dp.status = none) :
    getallEntry sys flags s dp = some s := by
  rw [getallEntry]
  rcases h with h | h | h
  · rw [h]
    rfl
  · rw [h, Bool.not_false, Bool.or_true]
    rfl
  · rw [h, ite_self]

/-- An iteration for a process makes its call. -/
lemma getallEntry_process (sys : ProcSystem) (flags : UInt32) {s : GetallState}
    {t : List (UInt32 × Int64)} (hs : HoldsUsers s.heap t) {dName : CString}
    (hdigit : dName.head?.any isdigit = true) (file : StatusFile) :
    ∃ s', getallEntry sys flags s ⟨true, dName, some file.content⟩ = some s' ∧
      HoldsUsers s'.heap (t ++ increments [file.call sys flags]) := by
  obtain ⟨v, -, hloop⟩ := statusLoop_of_pending sys flags (file.pending s.uid 0 s.cmd) rfl s.heap
  obtain ⟨node, heap', hadd, hheap'⟩ := hs.add (file.call sys flags)
  rw [hadd, Option.map_some] at hloop
  rw [getallEntry, hdigit]
  simp only [Bool.not_true, Bool.or_false, Bool.false_eq_true, if_false, file.getlines_content,
    hloop]
  exact ⟨_, rfl, hheap'⟩

lemma foldlM_getallEntry (sys : ProcSystem) (flags : UInt32) {s : GetallState}
    {t : List (UInt32 × Int64)} (hs : HoldsUsers s.heap t) (dirp : List ProcEntry) :
    ∃ s', (dirp.map ProcEntry.dirent).foldlM (getallEntry sys flags) s = some s' ∧
      HoldsUsers s'.heap
        (t ++ increments ((dirp.filterMap ProcEntry.file?).map (·.call sys flags))) := by
  induction dirp generalizing s t with
  | nil => exact ⟨s, rfl, by rwa [← List.append_nil t] at hs⟩
  | cons entry dirp ih =>
    rw [List.map_cons, List.foldlM_cons]
    cases entry with
    | skipped dp h =>
      rw [ProcEntry.dirent, getallEntry_skipped sys flags s h]
      exact ih hs
    | process dName h file =>
      obtain ⟨s₁, hentry, hs₁⟩ := getallEntry_process sys flags hs h file
      obtain ⟨s', hrest, hs'⟩ := ih hs₁
      refine ⟨s', ?_, ?_⟩
      · rw [ProcEntry.dirent, hentry]
        exact hrest
      · rw [List.append_assoc] at hs'
        exact hs'

/-- The user of a process, and what it counts for. -/
def StatusFile.put (file : StatusFile) (flags : UInt32) : UInt32 × ℕ :=
  (file.uid, if flags &&& nbprocsThreads ≠ 0 then file.threads else 1)

lemma StatusFile.put_call (file : StatusFile) (sys : ProcSystem) (flags : UInt32) :
    (file.call sys flags).put = file.put flags := by
  obtain ⟨blanks, rest, hmem⟩ := file.threads_mem
  have hlt : file.threads < 2 ^ 64 := (file.valid _ hmem).2.2.trans (by decide)
  rw [ProcsAddCall.put, StatusFile.call, StatusFile.put]
  split_ifs
  · rw [UInt64.toNat_ofNat_of_lt' hlt]
  · rfl

/-- The list keeps the users in the order of their first addition with their numbers, and reading
the status files adds each process once. -/
theorem procsList_listsUsers :
    (∀ calls, ∃ heap, procsListAddAll calls = some heap ∧
      ListsUsers heap (calls.map ProcsAddCall.put)) ∧
    ∀ sys flags (dirp : List ProcEntry), ∃ heap output,
      procsListGetall sys flags (dirp.map ProcEntry.dirent) = some (heap, output) ∧
      ListsUsers heap ((dirp.filterMap ProcEntry.file?).map (·.put flags)) := by
  constructor
  · intro calls
    obtain ⟨heap, hheap, h⟩ := procsListAddAll_holdsUsers calls
    exact ⟨heap, hheap, h.listsUsers⟩
  · intro sys flags dirp
    obtain ⟨s, hloop, hs⟩ := foldlM_getallEntry sys flags
      (s := ⟨procsListNodeInit, -1, [], []⟩) .init dirp
    have hlists := hs.listsUsers
    rw [List.map_map] at hlists
    have hputs : ProcsAddCall.put ∘ (fun file : StatusFile => file.call sys flags)
        = fun file => file.put flags := by
      funext file
      exact file.put_call sys flags
    rw [hputs] at hlists
    refine ⟨s.heap, s.output, ?_, hlists⟩
    rw [procsListGetall, hloop]
    rfl

/-- What the status file of a daemon of user 33 with four threads starts with. -/
def daemonLines : List StatusLine :=
  [.name (ascii "\thttpd"), .other (ascii "Umask:\t0022"),
    .uid (ascii "\t") 33 (ascii "\t33\t33\t33"), .threads (ascii "\t") 4 []]

lemma daemonLines_valid : ∀ line ∈ daemonLines, line.Valid := by
  have huid : decimal (33 : UInt32).toNat = ascii "33" := by decide
  have hthreads : decimal 4 = ascii "4" := by decide
  simp only [daemonLines, List.forall_mem_cons, StatusLine.Valid, StatusLine.text,
    StatusLine.Delimited, huid, hthreads]
  refine ⟨?_, ?_, ?_, ?_, List.forall_mem_nil _⟩ <;> decide +kernel

def daemonStatus : StatusFile where
  lines := daemonLines
  uid := 33
  threads := 4
  valid := daemonLines_valid
  name_mem := ⟨_, .head _⟩
  uid_mem := ⟨_, _, .tail _ (.tail _ (.head _))⟩
  uid_unique _ _ _ h := by simp_all [daemonLines]
  threads_mem := ⟨_, _, .tail _ (.tail _ (.tail _ (.head _)))⟩
  threads_unique _ _ _ h := by simp_all [daemonLines]

/-- The directory itself, the daemon twice and a file. -/
def daemonEntries : List ProcEntry :=
  [.skipped ⟨true, ascii ".", none⟩ (by decide), .process (ascii "71") rfl daemonStatus,
    .process (ascii "72") rfl daemonStatus, .skipped ⟨false, ascii "uptime", none⟩ (by decide)]

theorem procsList_daemon : ∃ heap output,
    procsListGetall ⟨fun _ => some (ascii "www"), none⟩ nbprocsThreads
      (daemonEntries.map ProcEntry.dirent) = some (heap, output) ∧
    ListsUsers heap [(33, 4), (33, 4)] :=
  procsList_listsUsers.2 _ nbprocsThreads daemonEntries

end NagiosPlugins
