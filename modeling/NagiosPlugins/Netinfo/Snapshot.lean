import NagiosPlugins.Data.Tlv
import NagiosPlugins.Netinfo.Basic

/-!
# Snapshots of the interfaces

`get_netinfo_snapshot` of `lib/netinfo-private.c` reads a dump of the links from a netlink socket.
The replies of the kernel are parameters, and so is what it answers for the name of an interface.
Words are little-endian, as on most hosts. The list is built in a heap of nodes, and a pointer to
a node is an index into it.
-/

namespace NagiosPlugins

open Libc LittleEndian

/-! ### Netlink messages -/

/-- `struct nlmsghdr` with `NLMSG_OK` and `NLMSG_NEXT`. -/
def nlmsg : Tlv.Format where
  lengthSize := 4
  headerSize := 16
  lt := by decide

/-- `struct rtattr` with `RTA_OK` and `RTA_NEXT`. -/
def rta : Tlv.Format where
  lengthSize := 2
  headerSize := 4
  lt := by decide

def nlmsgDone : ℕ := 3
def rtmNewlink : ℕ := 16
def iflaIfname : ℕ := 3
def iflaStats : ℕ := 7

/-- The size of `struct ifinfomsg`. -/
def ifinfomsgSize : ℕ := 16

/-- `IFNAMSIZ`, the size of the variable `name`. -/
def ifnamsiz : ℕ := 16

/-- `IFLA_MAX`, and the answers for the name of an interface: whether it is a wireless one, its
speed and duplex, and whether `regexec` rejects it. -/
structure LinkSystem where
  iflaMax : ℕ
  le : iflaStats ≤ iflaMax
  linkWireless : CString → Bool
  ethtool : CString → Option (UInt32 × Duplex)
  regexec : CString → Bool

/-- `parse_rtattr`: the table of pointers by type. -/
def parseRtattr (max : ℕ) (attr : List UInt8) (len : ℤ) : ℕ → Option (List UInt8) :=
  (rta.pointers attr len).foldl
    (fun tb attr =>
      if rta.type attr ≤ max then Function.update tb (rta.type attr) (some attr) else tb)
    fun _ => none

/-- The C string at a pointer, if the bytes do not end before its NUL. -/
def cstringAt (p : List UInt8) : Option CString :=
  if 0 ∈ p then some (p.takeWhile (· ≠ 0)) else none

/-- A member of `struct rtnl_link_stats`, by its index. -/
def linkStat (stats : List UInt8) (i : ℕ) : Option UInt32 :=
  (read 4 (4 * i) stats).map UInt32.ofNat

/-- The statistics that are copied. -/
def copyStats (stats : List UInt8) : Option Ifstats := do
  return {
    rxPackets := ← linkStat stats 0
    txPackets := ← linkStat stats 1
    rxBytes := ← linkStat stats 2
    txBytes := ← linkStat stats 3
    rxErrors := ← linkStat stats 4
    txErrors := ← linkStat stats 5
    rxDropped := ← linkStat stats 6
    txDropped := ← linkStat stats 7
    multicast := ← linkStat stats 8
    collisions := ← linkStat stats 9 }

/-! ### The interfaces -/

def iffLoopback : UInt32 := 0x8

def ifFlagsLoopback (flags : UInt32) : Bool := flags &&& iffLoopback ≠ 0

def skipInterface (sys : LinkSystem) (options : UInt32) (name : CString) (flags : UInt32) : Bool :=
  ifFlagsLoopback flags && options &&& noLoopback ≠ 0
    || sys.linkWireless name && options &&& noWireless ≠ 0
    || sys.regexec name

/-- `check_link_speed`: unknown speeds are normalized to zero. -/
def checkLinkSpeed (answer : Option (UInt32 × Duplex)) : UInt32 × Duplex :=
  match answer with
  | none => (0, .unknown)
  | some (speed, duplex) => (if speed = 0xffff ∨ speed = 0xffffffff then 0 else speed, duplex)

/-- The members of a new entry. -/
def newEntry (sys : LinkSystem) (name : CString) (flags : UInt32) (stats : Ifstats) : Iflist where
  ifname := name
  duplex := (checkLinkSpeed (sys.ethtool name)).2
  speed := (checkLinkSpeed (sys.ethtool name)).1
  flags := flags
  stats := some stats

/-! ### The list -/

/-- An entry with its pointer to the next one; `none` is a NULL pointer. -/
structure IflNode where
  entry : Iflist
  next : Option ℕ
  deriving DecidableEq

/-- The variables of the loop. -/
structure SnapshotState where
  heap : List IflNode := []
  iflhead : Option ℕ := none
  iflprev : Option ℕ := none
  msgDone : Bool := false

/-- `ifl->next = next`. -/
def setNextIfl (next : ℕ) (ifl : IflNode) : IflNode := { ifl with next := some next }

/-- The new entry becomes the head of the list, or is linked behind `iflprev`. -/
def linkEntry (s : SnapshotState) (entry : Iflist) : Except Stop SnapshotState :=
  let ifl := s.heap.length
  let heap := s.heap ++ [⟨entry, none⟩]
  match s.iflhead, s.iflprev with
  | none, _ => .ok { s with heap, iflhead := some ifl, iflprev := some ifl }
  | some _, some prev =>
    .ok { s with heap := heap.modify prev (setNextIfl ifl), iflprev := some ifl }
  | some _, none => .error .undefined

/-- `case RTM_NEWLINK`. -/
def newlink (sys : LinkSystem) (options : UInt32) (s : SnapshotState) (h : List UInt8) :
    Except Stop SnapshotState := do
  let ifi := h.drop nlmsg.headerSize
  let attrLen : ℤ := nlmsg.length h - (nlmsg.headerSize + ifinfomsgSize : ℕ)
  let tb := parseRtattr sys.iflaMax (ifi.drop ifinfomsgSize) attrLen
  match tb iflaIfname with
  | none => .error (.pluginError .unknown "BUG: nil ifname returned by parse_rtattr()")
  | some attr =>
    match cstringAt (attr.drop rta.headerSize), read 4 8 ifi with
    | some name, some ifiFlags =>
      if ifnamsiz ≤ name.length then .error .undefined
      else
        let flags := UInt32.ofNat ifiFlags
        if skipInterface sys options name flags then .ok s
        else
          -- the pointer behind the header of the attribute is never NULL
          match (tb iflaStats).bind fun attr => copyStats (attr.drop rta.headerSize) with
          | none => .error .undefined
          | some stats => linkEntry s (newEntry sys name flags stats)
    | _, _ => .error .outOfBounds

/-- The body of the loop over the messages of a reply. -/
def handleMessage (sys : LinkSystem) (options : UInt32) (s : SnapshotState) (h : List UInt8) :
    Except Stop SnapshotState :=
  if nlmsg.type h = nlmsgDone then .ok { s with msgDone := true }
  else if nlmsg.type h = rtmNewlink then newlink sys options s h
  else .ok s

def handleReply (sys : LinkSystem) (options : UInt32) (s : SnapshotState) (reply : List UInt8) :
    Except Stop SnapshotState :=
  (nlmsg.pointers reply reply.length).foldlM (handleMessage sys options) s

/-- The loop `while (!msg_done)` over what `recvmsg` returns, `none` for an error. Without a
result it still waits for a reply. -/
def snapshotLoop (sys : LinkSystem) (options : UInt32) :
    List (Option (List UInt8)) → SnapshotState → Except Stop (Option SnapshotState)
  | [], s => .ok (if s.msgDone then some s else none)
  | reply :: replies, s =>
    if s.msgDone then .ok (some s)
    else
      match reply with
      | none => snapshotLoop sys options replies s
      | some reply => do
        let s ← handleReply sys options s reply
        snapshotLoop sys options replies s

/-- The entries from `ifl` on, unless there are more of them than `fuel`. -/
def iflistForeach (heap : List IflNode) : ℕ → Option ℕ → Option (List Iflist)
  | _, none => some []
  | 0, some _ => none
  | fuel + 1, some ifl => do
    let node ← heap[ifl]?
    let iflhead ← iflistForeach heap fuel node.next
    return node.entry :: iflhead

/-- `get_netinfo_snapshot`: the entries of the list, without a result if it still waits. -/
def getNetinfoSnapshot (sys : LinkSystem) (options : UInt32)
    (replies : List (Option (List UInt8))) : Except Stop (Option (List Iflist)) := do
  match ← snapshotLoop sys options replies {} with
  | none => return none
  | some s =>
    match iflistForeach s.heap s.heap.length s.iflhead with
    | none => .error .undefined
    | some iflhead => return some iflhead

end NagiosPlugins
