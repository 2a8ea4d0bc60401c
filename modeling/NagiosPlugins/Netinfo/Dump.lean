import NagiosPlugins.Data.Except
import NagiosPlugins.Data.Lists
import NagiosPlugins.Netinfo.Snapshot

/-!
# Dumps of the links

The kernel answers with a message for each link, and with a last one of its own type. Wherever the
dump is cut into replies, the snapshot has the entries of the messages that are not skipped.
-/

namespace NagiosPlugins

open Libc LittleEndian

/-! ### Messages -/

/-- The counters in the order of `struct rtnl_link_stats`. -/
def linkStats (stats : Ifstats) : List UInt32 :=
  [stats.rxPackets, stats.txPackets, stats.rxBytes, stats.txBytes, stats.rxErrors, stats.txErrors,
    stats.rxDropped, stats.txDropped, stats.multicast, stats.collisions]

def linkStatsBytes (stats : Ifstats) : List UInt8 :=
  ((linkStats stats).map UInt32.toNat).flatMap (encode 4)

/-- A message of a link. Its attributes stand in any order; one of them is the name, and one holds
the statistics. -/
structure LinkMessage where
  record : Tlv.Record nlmsg
  /-- The members of `struct ifinfomsg` around the flags. -/
  before : List UInt8
  flags : UInt32
  after : List UInt8
  attrs : List (Tlv.Record rta)
  ifname : Tlv.Record rta
  name : CString
  afterName : List UInt8
  statsAttr : Tlv.Record rta
  stats : Ifstats
  afterStats : List UInt8
  type_eq : record.type = rtmNewlink
  payload_eq : record.payload
    = before ++ (encode 4 flags.toNat ++ after) ++ attrs.flatMap Tlv.Record.bytes
  length_before : before.length = 8
  length_after : after.length = 4
  ifname_attrs : attrs.filter (·.type = iflaIfname) = [ifname]
  ifname_payload : ifname.payload = name ++ 0 :: afterName
  name_length : name.length < ifnamsiz
  nul_notMem : 0 ∉ name
  stats_attrs : attrs.filter (·.type = iflaStats) = [statsAttr]
  stats_payload : statsAttr.payload = linkStatsBytes stats ++ afterStats

/-! ### Attributes -/

/-- One entry of the table. -/
def setAttr (max : ℕ) (tb : ℕ → Option (List UInt8)) (attr : List UInt8) :
    ℕ → Option (List UInt8) :=
  if rta.type attr ≤ max then Function.update tb (rta.type attr) (some attr) else tb

/-- Attributes of other types leave an entry of the table alone. -/
lemma foldl_setAttr_of_ne {max type : ℕ} {attrs : List (Tlv.Record rta)}
    (h : ∀ attr ∈ attrs, attr.type ≠ type) (tail : List UInt8) (tb : ℕ → Option (List UInt8)) :
    (Tlv.Record.pointers attrs tail).foldl (setAttr max) tb type = tb type := by
  induction attrs generalizing tb with
  | nil => rfl
  | cons attr attrs ih =>
    obtain ⟨hne, hattrs⟩ := List.forall_mem_cons.1 h
    rw [Tlv.Record.pointers, List.foldl_cons, ih hattrs, setAttr, Tlv.Record.type_append]
    split_ifs
    · exact Function.update_of_ne hne.symm _ _
    · rfl

/-- The table points to the only attribute of a type. -/
lemma parseRtattr_of_filter {max type : ℕ} (hmax : type ≤ max) {attrs : List (Tlv.Record rta)}
    {attr : Tlv.Record rta} (h : attrs.filter (·.type = type) = [attr]) (tail : List UInt8) :
    ∃ tail', parseRtattr max (attrs.flatMap Tlv.Record.bytes ++ tail)
      (attrs.flatMap Tlv.Record.bytes).length type = some (attr.bytes ++ tail') := by
  obtain ⟨before, after, rfl, hbefore, htype, hafter⟩ := List.filter_eq_cons_iff.1 h
  rw [List.filter_eq_nil_iff] at hafter
  rw [decide_eq_true_eq] at htype
  have hne : ∀ attr ∈ after, attr.type ≠ type := by
    intro attr hattr
    simpa using hafter attr hattr
  refine ⟨after.flatMap Tlv.Record.bytes ++ tail, ?_⟩
  rw [parseRtattr, Tlv.pointers_flatMap_bytes, Tlv.Record.pointers_append, List.foldl_append,
    Tlv.Record.pointers, List.foldl_cons]
  refine (foldl_setAttr_of_ne hne tail _).trans ?_
  rw [Tlv.Record.type_append, htype, if_pos hmax, Function.update_self]

/-! ### What is read from the attributes -/

lemma cstringAt_append {name : CString} (h : 0 ∉ name) (after : List UInt8) :
    cstringAt (name ++ 0 :: after) = some name := by
  have htake : (name ++ 0 :: after).takeWhile (· ≠ 0) = name := by
    rw [List.takeWhile_append_of_pos]
    · simp
    · intro c hc
      exact decide_eq_true fun hzero => h (hzero ▸ hc)
  rw [cstringAt, if_pos (List.mem_append_right _ (List.mem_cons_self ..)), htake]

lemma linkStat_linkStatsBytes (stats : Ifstats) (after : List UInt8) {i : ℕ} (hi : i < 10) :
    linkStat (linkStatsBytes stats ++ after) i = (linkStats stats)[i]? := by
  have hlen : i < (linkStats stats).length := hi
  have hlt : ∀ n ∈ (linkStats stats).map UInt32.toNat, n < 256 ^ 4 := by
    intro n hn
    obtain ⟨c, -, rfl⟩ := List.mem_map.1 hn
    exact c.toNat_lt
  rw [linkStat, linkStatsBytes, read_flatMap_encode hlt (by rwa [List.length_map]),
    List.getElem_map, Option.map_some, UInt32.ofNat_toNat, List.getElem?_eq_getElem hlen]

/-- Each counter is copied from its own place. -/
lemma copyStats_linkStatsBytes (stats : Ifstats) (after : List UInt8) :
    copyStats (linkStatsBytes stats ++ after) = some stats := by
  have hstat : ∀ i < 10, linkStat (linkStatsBytes stats ++ after) i = (linkStats stats)[i]? := by
    intro i hi
    exact linkStat_linkStatsBytes stats after hi
  rw [copyStats, hstat 0 (by decide), hstat 1 (by decide), hstat 2 (by decide),
    hstat 3 (by decide), hstat 4 (by decide), hstat 5 (by decide), hstat 6 (by decide),
    hstat 7 (by decide), hstat 8 (by decide), hstat 9 (by decide)]
  rfl

/-! ### The messages of a dump -/

namespace LinkMessage

variable (m : LinkMessage) (sys : LinkSystem) (options : UInt32)

/-- The link is not skipped. -/
def kept : Bool := !skipInterface sys options m.name m.flags

def entry : Iflist := newEntry sys m.name m.flags m.stats

/-- What a message of a link does. -/
def step (s : SnapshotState) : Except Stop SnapshotState :=
  if m.kept sys options then linkEntry s (m.entry sys) else .ok s

/-- `struct ifinfomsg` and the attributes, as `newlink` sees them. -/
lemma ifi_eq (tail : List UInt8) :
    (m.record.bytes ++ tail).drop nlmsg.headerSize
      = m.before ++ (encode 4 m.flags.toNat ++ (m.after
        ++ (m.attrs.flatMap Tlv.Record.bytes ++ (m.record.padding ++ tail)))) := by
  rw [Tlv.Record.drop_header, m.payload_eq]
  simp only [List.append_assoc]

lemma drop_ifinfomsg (tail : List UInt8) :
    ((m.record.bytes ++ tail).drop nlmsg.headerSize).drop ifinfomsgSize
      = m.attrs.flatMap Tlv.Record.bytes ++ (m.record.padding ++ tail) := by
  have hlen : (m.before ++ (encode 4 m.flags.toNat ++ m.after)).length = ifinfomsgSize := by
    simp [m.length_before, m.length_after, ifinfomsgSize]
  have hdrop : ∀ rest, ((m.before ++ (encode 4 m.flags.toNat ++ m.after)) ++ rest).drop
      ifinfomsgSize = rest := fun rest => List.drop_left' hlen
  rw [m.ifi_eq]
  simpa only [List.append_assoc] using hdrop _

lemma attrLen_eq (tail : List UInt8) :
    (nlmsg.length (m.record.bytes ++ tail) : ℤ) - (nlmsg.headerSize + ifinfomsgSize : ℕ)
      = (m.attrs.flatMap Tlv.Record.bytes).length := by
  have hlen : m.record.payload.length
      = ifinfomsgSize + (m.attrs.flatMap Tlv.Record.bytes).length := by
    rw [m.payload_eq]
    simp only [List.length_append, length_encode, m.length_before, m.length_after, ifinfomsgSize]
  rw [Tlv.Record.length_append, Tlv.Record.length, hlen]
  omega

lemma handleMessage_bytes (s : SnapshotState) (tail : List UInt8) :
    handleMessage sys options s (m.record.bytes ++ tail) = m.step sys options s := by
  obtain ⟨tail₁, hname⟩ := parseRtattr_of_filter
    ((by decide : iflaIfname ≤ iflaStats).trans sys.le) m.ifname_attrs (m.record.padding ++ tail)
  obtain ⟨tail₂, hstats⟩ := parseRtattr_of_filter sys.le m.stats_attrs (m.record.padding ++ tail)
  have hflags : read 4 8 ((m.record.bytes ++ tail).drop nlmsg.headerSize)
      = some m.flags.toNat := by
    rw [m.ifi_eq]
    exact read_append m.flags.toNat_lt m.length_before _
  have hcstring : cstringAt ((m.ifname.bytes ++ tail₁).drop rta.headerSize) = some m.name := by
    rw [Tlv.Record.drop_header, m.ifname_payload, List.append_assoc, List.cons_append]
    exact cstringAt_append m.nul_notMem _
  have hcopy : copyStats ((m.statsAttr.bytes ++ tail₂).drop rta.headerSize) = some m.stats := by
    rw [Tlv.Record.drop_header, m.stats_payload, List.append_assoc]
    exact copyStats_linkStatsBytes m.stats _
  have htype : nlmsg.type (m.record.bytes ++ tail) = rtmNewlink := by
    rw [Tlv.Record.type_append, m.type_eq]
  rw [handleMessage, htype, if_neg (by decide), if_pos rfl, newlink]
  simp only [m.drop_ifinfomsg, m.attrLen_eq, hname, hstats, hflags, hcstring, hcopy,
    Option.bind_some, UInt32.ofNat_toNat, if_neg (not_le.2 m.name_length)]
  rw [step, kept, entry]
  cases skipInterface sys options m.name m.flags <;> rfl

end LinkMessage

/-! ### The list of entries -/

/-- The nodes of a list at the addresses from `ifl` on. -/
def linkedHeap : ℕ → List Iflist → List IflNode
  | _, [] => []
  | ifl, entry :: entries =>
    ⟨entry, if entries = [] then none else some (ifl + 1)⟩ :: linkedHeap (ifl + 1) entries

@[simp] lemma length_linkedHeap (ifl : ℕ) (entries : List Iflist) :
    (linkedHeap ifl entries).length = entries.length := by
  induction entries generalizing ifl with
  | nil => rfl
  | cons entry entries ih => rw [linkedHeap, List.length_cons, ih, List.length_cons]

lemma linkedHeap_cons (ifl : ℕ) (entry : Iflist) {entries : List Iflist} (h : entries ≠ []) :
    linkedHeap ifl (entry :: entries)
      = ⟨entry, some (ifl + 1)⟩ :: linkedHeap (ifl + 1) entries := by
  rw [linkedHeap, if_neg h]

/-- A new entry behind the last one. -/
lemma linkedHeap_concat (ifl : ℕ) {entries : List Iflist} (h : entries ≠ []) (entry : Iflist) :
    linkedHeap ifl (entries ++ [entry])
      = (linkedHeap ifl entries ++ [IflNode.mk entry none]).modify (entries.length - 1)
        (setNextIfl (ifl + entries.length)) := by
  induction entries generalizing ifl with
  | nil => exact absurd rfl h
  | cons first entries ih =>
    rcases eq_or_ne entries [] with rfl | hne
    · rfl
    · obtain ⟨n, hn⟩ := Nat.exists_eq_succ_of_ne_zero (mt List.length_eq_zero_iff.1 hne)
      rw [List.cons_append, linkedHeap_cons ifl first (List.concat_ne_nil _ _), ih (ifl + 1) hne,
        linkedHeap_cons ifl first hne, List.cons_append, List.length_cons, hn, Nat.succ_sub_one,
        Nat.add_sub_cancel, List.modify_succ_cons, Nat.add_assoc, Nat.add_comm 1]

/-- Following the pointers from an address on visits the entries in turn. -/
lemma iflistForeach_linkedHeap {heap before : List IflNode} {entries : List Iflist}
    (h : heap = before ++ linkedHeap before.length entries) {fuel : ℕ}
    (hfuel : entries.length ≤ fuel) :
    iflistForeach heap fuel (if entries = [] then none else some before.length) = some entries := by
  induction entries generalizing before fuel with
  | nil => cases fuel <;> rfl
  | cons entry entries ih =>
    cases fuel with
    | zero => simp at hfuel
    | succ fuel =>
      obtain ⟨node, hnode⟩ : ∃ node : IflNode,
          node = ⟨entry, if entries = [] then none else some (before.length + 1)⟩ := ⟨_, rfl⟩
      have hlen : (before ++ [node]).length = before.length + 1 := List.length_append
      rw [linkedHeap, ← hnode] at h
      have hget : heap[before.length]? = some node := by
        rw [h, List.getElem?_append_right le_rfl, Nat.sub_self]
        rfl
      have hrest : heap = (before ++ [node]) ++ linkedHeap (before ++ [node]).length entries := by
        rw [h, hlen, List.append_assoc]
        rfl
      have hforeach := ih hrest (Nat.le_of_succ_le_succ hfuel)
      rw [hlen] at hforeach
      rw [if_neg (List.cons_ne_nil _ _), iflistForeach, hget, Option.bind_eq_bind,
        Option.bind_some, hnode, hforeach]
      rfl

/-- The variables after some entries. -/
structure Linked (s : SnapshotState) (entries : List Iflist) : Prop where
  heap : s.heap = linkedHeap 0 entries
  iflhead : s.iflhead = if entries = [] then none else some 0
  iflprev : s.iflprev = if entries = [] then none else some (entries.length - 1)
  msgDone : s.msgDone = false

lemma linked_init : Linked {} [] := ⟨rfl, rfl, rfl, rfl⟩

lemma linkEntry_linked {s : SnapshotState} {entries : List Iflist} (h : Linked s entries)
    (entry : Iflist) : ∃ s', linkEntry s entry = .ok s' ∧ Linked s' (entries ++ [entry]) := by
  rcases eq_or_ne entries [] with rfl | hne
  · have hhead : s.iflhead = none := h.iflhead
    refine ⟨_, by rw [linkEntry, hhead], ?_⟩
    constructor
    · rw [h.heap]
      rfl
    · rw [h.heap]
      rfl
    · rw [h.heap]
      rfl
    · exact h.msgDone
  · have hhead := h.iflhead
    have hprev := h.iflprev
    have hne' : entries ++ [entry] ≠ [] := List.concat_ne_nil _ _
    rw [if_neg hne] at hhead hprev
    refine ⟨_, by rw [linkEntry, hhead, hprev], ?_⟩
    constructor
    · rw [h.heap, length_linkedHeap, linkedHeap_concat 0 hne, Nat.zero_add]
    · rw [if_neg hne']
    · rw [if_neg hne', h.heap, length_linkedHeap, List.length_append, List.length_singleton,
        Nat.add_sub_cancel]
    · exact h.msgDone

/-! ### The replies -/

section Replies

variable (sys : LinkSystem) (options : UInt32)

/-- The entries of the messages that are not skipped. -/
def snapshotEntries (dump : List LinkMessage) : List Iflist :=
  (dump.filter fun m => m.kept sys options).map fun m => m.entry sys

lemma snapshotEntries_append (dump dump' : List LinkMessage) :
    snapshotEntries sys options (dump ++ dump')
      = snapshotEntries sys options dump ++ snapshotEntries sys options dump' := by
  rw [snapshotEntries, List.filter_append, List.map_append]
  rfl

variable {s : SnapshotState} {entries : List Iflist}

lemma step_linked (h : Linked s entries) (m : LinkMessage) :
    ∃ s', m.step sys options s = .ok s' ∧
      Linked s' (entries ++ snapshotEntries sys options [m]) := by
  rw [LinkMessage.step, snapshotEntries, List.filter_singleton]
  cases m.kept sys options with
  | true => exact linkEntry_linked h _
  | false => exact ⟨s, rfl, by rwa [← List.append_nil entries] at h⟩

/-- The loop over the messages, by induction on those that are left. -/
lemma foldlM_pointers_linked (h : Linked s entries) (dump : List LinkMessage)
    (tail : List UInt8) :
    ∃ s', (Tlv.Record.pointers (dump.map (·.record)) tail).foldlM (handleMessage sys options) s
        = .ok s' ∧ Linked s' (entries ++ snapshotEntries sys options dump) := by
  induction dump generalizing s entries with
  | nil => exact ⟨s, rfl, by rwa [← List.append_nil entries] at h⟩
  | cons m dump ih =>
    obtain ⟨s', hstep, hs'⟩ := step_linked sys options h m
    obtain ⟨s'', hrest, hs''⟩ := ih hs'
    rw [List.append_assoc, ← snapshotEntries_append] at hs''
    refine ⟨s'', ?_, hs''⟩
    rw [List.map_cons, Tlv.Record.pointers, List.foldlM_cons, m.handleMessage_bytes, hstep]
    exact hrest

lemma handleReply_eq (s : SnapshotState) (rs : List (Tlv.Record nlmsg)) :
    handleReply sys options s (rs.flatMap Tlv.Record.bytes)
      = (Tlv.Record.pointers rs []).foldlM (handleMessage sys options) s := by
  have hpointers := Tlv.pointers_flatMap_bytes rs []
  rw [List.append_nil] at hpointers
  rw [handleReply, hpointers]

/-- A reply with messages of links only. -/
lemma handleReply_linked (h : Linked s entries) (dump : List LinkMessage) :
    ∃ s', handleReply sys options s ((dump.map (·.record)).flatMap Tlv.Record.bytes) = .ok s' ∧
      Linked s' (entries ++ snapshotEntries sys options dump) := by
  rw [handleReply_eq]
  exact foldlM_pointers_linked sys options h dump []

/-- A reply that ends with the last message of the dump. -/
lemma handleReply_done (h : Linked s entries) (dump : List LinkMessage)
    {done : Tlv.Record nlmsg} (hdone : done.type = nlmsgDone) :
    ∃ s', handleReply sys options s ((dump.map (·.record) ++ [done]).flatMap Tlv.Record.bytes)
        = .ok { s' with msgDone := true } ∧
      Linked s' (entries ++ snapshotEntries sys options dump) := by
  obtain ⟨s', hloop, hs'⟩ := foldlM_pointers_linked sys options h dump
    ([done].flatMap Tlv.Record.bytes ++ [])
  refine ⟨s', ?_, hs'⟩
  rw [handleReply_eq, Tlv.Record.pointers_append, List.foldlM_append, hloop, Except.ok_bind,
    Tlv.Record.pointers, List.foldlM_cons, handleMessage, Tlv.Record.type_append, if_pos hdone]
  rfl

/-- What `recvmsg` returns if the messages come in chunks, with failed reads in between. -/
def replies (chunks : List (Option (List (Tlv.Record nlmsg)))) : List (Option (List UInt8)) :=
  chunks.map (Option.map (List.flatMap Tlv.Record.bytes))

lemma snapshotLoop_some (h : s.msgDone = false) (reply : List UInt8)
    (replies : List (Option (List UInt8))) :
    snapshotLoop sys options (some reply :: replies) s
      = handleReply sys options s reply >>= snapshotLoop sys options replies := by
  rw [snapshotLoop, h]
  rfl

lemma snapshotLoop_of_msgDone (h : s.msgDone = true) (replies : List (Option (List UInt8))) :
    snapshotLoop sys options replies s = .ok (some s) := by
  cases replies with
  | nil => rw [snapshotLoop, if_pos h]
  | cons reply replies => rw [snapshotLoop.eq_def]; simp only [h, if_true]

/-- The loop over the replies, by induction on the chunks that are left. -/
lemma snapshotLoop_linked (h : Linked s entries) {dump : List LinkMessage}
    {done : Tlv.Record nlmsg} (hdone : done.type = nlmsgDone)
    {chunks : List (Option (List (Tlv.Record nlmsg)))}
    (hsplit : chunks.reduceOption.flatten = dump.map (·.record) ++ [done]) :
    ∃ s', snapshotLoop sys options (replies chunks) s = .ok (some { s' with msgDone := true }) ∧
      Linked s' (entries ++ snapshotEntries sys options dump) := by
  induction chunks generalizing s entries dump with
  | nil => exact absurd hsplit.symm (List.concat_ne_nil _ _)
  | cons chunk chunks ih =>
    cases chunk with
    | none =>
      obtain ⟨s', hloop, hs'⟩ := ih h hsplit
      refine ⟨s', ?_, hs'⟩
      rw [← hloop, replies, List.map_cons, Option.map_none, snapshotLoop, h.msgDone]
      rfl
    | some chunk =>
      have happend : chunk ++ chunks.reduceOption.flatten = dump.map (·.record) ++ [done] := hsplit
      rw [replies, List.map_cons, Option.map_some, snapshotLoop_some sys options h.msgDone]
      rcases List.append_eq_concat happend with ⟨rest, hdump, hrest⟩ | ⟨rfl, -⟩
      · -- the dump goes on behind the chunk
        obtain ⟨dump₁, dump₂, rfl, rfl, rfl⟩ := List.map_eq_append_iff.1 hdump
        obtain ⟨s₁, hreply, hs₁⟩ := handleReply_linked sys options h dump₁
        obtain ⟨s', hloop, hs'⟩ := ih hs₁ hrest
        rw [List.append_assoc, ← snapshotEntries_append] at hs'
        refine ⟨s', ?_, hs'⟩
        rw [hreply]
        exact hloop
      · -- the chunk holds the rest of the dump
        obtain ⟨s', hreply, hs'⟩ := handleReply_done sys options h dump hdone
        refine ⟨s', ?_, hs'⟩
        rw [hreply]
        exact snapshotLoop_of_msgDone sys options rfl _

/-- The list of a finished snapshot. -/
lemma Linked.foreach (h : Linked s entries) :
    iflistForeach s.heap s.heap.length s.iflhead = some entries := by
  have hheap : s.heap = [] ++ linkedHeap ([] : List IflNode).length entries := h.heap
  have hlen : entries.length ≤ s.heap.length := by rw [h.heap, length_linkedHeap]
  rw [h.iflhead]
  exact iflistForeach_linkedHeap hheap hlen

/-- Messages that make up a dump, in chunks and with failed reads in between. -/
def IsDump (chunks : List (Option (List (Tlv.Record nlmsg)))) (dump : List LinkMessage) : Prop :=
  ∃ done : Tlv.Record nlmsg, done.type = nlmsgDone ∧
    chunks.reduceOption.flatten = dump.map (·.record) ++ [done]

lemma getNetinfoSnapshot_of_isDump {chunks : List (Option (List (Tlv.Record nlmsg)))}
    {dump : List LinkMessage} (h : IsDump chunks dump) :
    getNetinfoSnapshot sys options (replies chunks)
      = .ok (some (snapshotEntries sys options dump)) := by
  obtain ⟨done, hdone, hsplit⟩ := h
  obtain ⟨s, hloop, hs⟩ := snapshotLoop_linked sys options linked_init hdone hsplit
  rw [List.nil_append] at hs
  rw [getNetinfoSnapshot, hloop, Except.ok_bind]
  simp only [hs.foreach]
  rfl

/-! ### The entries of a dump -/

namespace LinkMessage

variable (m : LinkMessage)

/-- The options ask for the link to be left out, or its name does not match. -/
def Skipped : Prop :=
  m.flags &&& iffLoopback ≠ 0 ∧ options &&& noLoopback ≠ 0 ∨
    sys.linkWireless m.name = true ∧ options &&& noWireless ≠ 0 ∨ sys.regexec m.name = true

instance : Decidable (m.Skipped sys options) := inferInstanceAs (Decidable (_ ∨ _))

/-- The members of the entry of a message; a speed that the driver does not know is 0. -/
structure IsEntry (ifl : Iflist) : Prop where
  ifname_eq : ifl.ifname = m.name
  flags_eq : ifl.flags = m.flags
  stats_eq : ifl.stats = some m.stats
  unanswered : sys.ethtool m.name = none → ifl.speed = 0 ∧ ifl.duplex = .unknown
  answered : ∀ speed duplex, sys.ethtool m.name = some (speed, duplex) →
    ifl.duplex = duplex ∧ ifl.speed = if speed = 0xffff ∨ speed = 0xffffffff then 0 else speed

lemma kept_eq : m.kept sys options = decide (¬ m.Skipped sys options) := by
  have hskip : skipInterface sys options m.name m.flags = decide (m.Skipped sys options) := by
    rw [Bool.eq_iff_iff, decide_eq_true_iff, skipInterface, ifFlagsLoopback, Skipped]
    simp only [Bool.or_eq_true, Bool.and_eq_true, decide_eq_true_iff, or_assoc]
  rw [kept, hskip, decide_not]

lemma isEntry_entry : m.IsEntry sys (m.entry sys) where
  ifname_eq := rfl
  flags_eq := rfl
  stats_eq := rfl
  unanswered h := by
    simp [entry, newEntry, checkLinkSpeed, h]
  answered speed duplex h := by
    simp [entry, newEntry, checkLinkSpeed, h]

/-- The members are all that an entry has. -/
lemma IsEntry.eq_entry {m : LinkMessage} {ifl : Iflist} (h : m.IsEntry sys ifl) :
    ifl = m.entry sys := by
  obtain ⟨ifname, duplex, speed, flags, stats⟩ := ifl
  obtain ⟨rfl, rfl, rfl, hnone, hsome⟩ := h
  cases hanswer : sys.ethtool m.name with
  | none =>
    obtain ⟨rfl, rfl⟩ := hnone hanswer
    simp [entry, newEntry, checkLinkSpeed, hanswer]
  | some answer =>
    obtain ⟨rfl, rfl⟩ := hsome answer.1 answer.2 hanswer
    simp [entry, newEntry, checkLinkSpeed, hanswer]

end LinkMessage

/-- The entries of the messages that are not skipped, in their order. -/
def IsSnapshot (dump : List LinkMessage) (entries : List Iflist) : Prop :=
  List.Forall₂ (fun ifl m => LinkMessage.IsEntry sys m ifl) entries
    (dump.filter fun m => ¬ m.Skipped sys options)

lemma isSnapshot_iff {dump : List LinkMessage} {entries : List Iflist} :
    IsSnapshot sys options dump entries ↔ entries = snapshotEntries sys options dump := by
  simp only [IsSnapshot, snapshotEntries, LinkMessage.kept_eq]
  constructor
  · intro h
    rw [← List.forall₂_eq_eq_eq, List.forall₂_map_right_iff]
    exact h.imp fun _ _ hentry => hentry.eq_entry
  · rintro rfl
    rw [List.forall₂_map_left_iff, List.forall₂_same]
    exact fun m _ => m.isEntry_entry sys

/-- Wherever the dump is cut, the snapshot has one entry for each message that is not skipped. -/
theorem getNetinfoSnapshot_replies (dump : List LinkMessage) :
    ∃ entries, IsSnapshot sys options dump entries ∧
      ∀ chunks, IsDump chunks dump →
        getNetinfoSnapshot sys options (replies chunks) = .ok (some entries) :=
  ⟨_, (isSnapshot_iff sys options).2 rfl, fun _ => getNetinfoSnapshot_of_isDump sys options⟩

end Replies

/-! ### The loopback device -/

/-- A system without wireless interfaces, where every name matches. -/
def wiredSystem : LinkSystem where
  iflaMax := 60
  le := by decide
  linkWireless _ := false
  ethtool _ := none
  regexec _ := false

def loopbackStats : Ifstats := ⟨5, 5, 420, 420, 0, 0, 0, 0, 0, 0⟩

def loopbackNameAttr : Tlv.Record rta where
  type := iflaIfname
  header := []
  payload := ascii "lo" ++ [0]
  padding := [0]
  type_lt := by decide
  length_header := rfl
  length_lt := by decide
  length_padding := rfl

def loopbackStatsAttr : Tlv.Record rta where
  type := iflaStats
  header := []
  payload := linkStatsBytes loopbackStats ++ List.replicate 56 0
  padding := []
  type_lt := by decide
  length_header := rfl
  length_lt := by decide
  length_padding := rfl

def loopbackMessage : LinkMessage where
  record := {
    type := rtmNewlink
    header := List.replicate 10 0
    payload := List.replicate 8 0 ++ (encode 4 0x49 ++ List.replicate 4 0)
      ++ [loopbackStatsAttr, loopbackNameAttr].flatMap Tlv.Record.bytes
    padding := []
    type_lt := by decide
    length_header := rfl
    length_lt := by decide +kernel
    length_padding := by decide +kernel }
  before := List.replicate 8 0
  flags := 0x49
  after := List.replicate 4 0
  attrs := [loopbackStatsAttr, loopbackNameAttr]
  ifname := loopbackNameAttr
  name := ascii "lo"
  afterName := []
  statsAttr := loopbackStatsAttr
  stats := loopbackStats
  afterStats := List.replicate 56 0
  type_eq := rfl
  payload_eq := rfl
  length_before := rfl
  length_after := rfl
  ifname_attrs := rfl
  ifname_payload := rfl
  name_length := by decide
  nul_notMem := by decide
  stats_attrs := rfl
  stats_payload := rfl

def doneMessage : Tlv.Record nlmsg where
  type := nlmsgDone
  header := List.replicate 10 0
  payload := List.replicate 4 0
  padding := []
  type_lt := by decide
  length_header := rfl
  length_lt := by decide
  length_padding := rfl

/-- The dump comes in one reply, or in two of them after a read that failed. -/
theorem getNetinfoSnapshot_loopback :
    ∃ entries, IsSnapshot wiredSystem 0 [loopbackMessage] entries ∧
      getNetinfoSnapshot wiredSystem 0 (replies [some [loopbackMessage.record, doneMessage]])
        = .ok (some entries) ∧
      getNetinfoSnapshot wiredSystem 0
        (replies [none, some [loopbackMessage.record], some [doneMessage]])
        = .ok (some entries) := by
  obtain ⟨entries, hsnapshot, hreplies⟩ :=
    getNetinfoSnapshot_replies wiredSystem 0 [loopbackMessage]
  exact ⟨entries, hsnapshot, hreplies _ ⟨doneMessage, rfl, rfl⟩, hreplies _ ⟨doneMessage, rfl, rfl⟩⟩

end NagiosPlugins
