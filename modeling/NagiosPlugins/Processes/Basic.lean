import NagiosPlugins.Libc.Bytes

/-!
# The list of processes by user

The list of `lib/processes.c`. Its nodes live in a heap, in the order in which they are
allocated, and a pointer is an index into it. The list is reached through its head at index 0,
and its last node points to itself.
-/

namespace NagiosPlugins

open Libc

/-- `struct procs_list_node`. -/
structure ProcsListNode where
  uid : UInt32
  username : Option CString
  nbr : Int64
  rlimitNprocSoft : UInt64
  rlimitNprocHard : UInt64
  next : ℕ
  deriving DecidableEq, Repr

abbrev ProcsHeap := List ProcsListNode

/-- The arguments of a call of `procs_list_node_add`, and what the system answers: the name in
the password database and the limits, unless `getpwuid` or `getrlimit` fail. -/
structure ProcsAddCall where
  uid : UInt32
  inc : UInt64
  pwName : Option CString
  rlim : Option (UInt64 × UInt64)

/-- `RLIM_INFINITY`. -/
def rlimInfinity : UInt64 := -1

def uidToUsername (pwName : Option CString) : CString := pwName.getD (ascii "<no-user>")

def procsListNodeGetNbr (heap : ProcsHeap) (node : ℕ) : Option Int64 := heap[node]?.map (·.nbr)

def procsListNodeGetNext (heap : ProcsHeap) (node : ℕ) : Option ℕ := heap[node]?.map (·.next)

def procsListNodeGetTotalProcsNbr (heap : ProcsHeap) (list : ℕ) : Option Int64 :=
  heap[list]?.map (·.nbr)

/-- The list's head points to itself if empty. -/
def procsListNodeInit : ProcsHeap :=
  [{ uid := -1, username := none, nbr := 0, rlimitNprocSoft := 0, rlimitNprocHard := 0,
     next := 0 }]

/-- The loop `while (p != p->next)` from `p` on: the node of the user, or the last node. The
first argument bounds the number of iterations. -/
def findNode (heap : ProcsHeap) (uid : UInt32) : ℕ → ℕ → Option (ℕ ⊕ ℕ)
  | 0, _ => none
  | fuel + 1, p => do
    let next ← procsListNodeGetNext heap p
    if p = next then return .inr p
    else
      let node ← heap[next]?
      if node.uid = uid then return .inl next
      else findNode heap uid fuel next

/-- The node that is appended for a new user. -/
def newNode (call : ProcsAddCall) (self : ℕ) : ProcsListNode where
  uid := call.uid
  username := some (uidToUsername call.pwName)
  nbr := call.inc.toInt64
  rlimitNprocSoft := (call.rlim.map Prod.fst).getD rlimInfinity
  rlimitNprocHard := (call.rlim.map Prod.snd).getD rlimInfinity
  next := self

/-- `node->nbr += inc`. -/
def addNbr (inc : UInt64) (node : ProcsListNode) : ProcsListNode :=
  { node with nbr := node.nbr + inc.toInt64 }

/-- `p->next = next`. -/
def setNext (next : ℕ) (node : ProcsListNode) : ProcsListNode := { node with next }

/-- `procs_list_node_add` on the list at index 0: the node of the user and the heap. -/
def procsListNodeAdd (call : ProcsAddCall) (heap : ProcsHeap) : Option (ℕ × ProcsHeap) := do
  match ← findNode heap call.uid heap.length 0 with
  | .inl p => return (p, (heap.modify p (addNbr call.inc)).modify 0 (addNbr call.inc))
  | .inr p =>
    let new := heap.length
    let heap := heap.modify 0 (addNbr call.inc) ++ [newNode call new]
    return (new, heap.modify p (setNext new))

/-- The loop of `proc_list_node_foreach` from `list_entry` on: the nodes for which its body
runs. -/
def foreachLoop (heap : ProcsHeap) : ℕ → ℕ → Option (List ℕ)
  | 0, _ => none
  | fuel + 1, listEntry => do
    let next ← procsListNodeGetNext heap listEntry
    if listEntry ≠ next then return listEntry :: (← foreachLoop heap fuel next)
    else return []

/-- `proc_list_node_foreach`. -/
def procListNodeForeach (heap : ProcsHeap) (list : ℕ) : Option (List ℕ) := do
  let listEntry ← procsListNodeGetNext heap list
  foreachLoop heap heap.length listEntry

/-- A list after a sequence of calls of `procs_list_node_add`. -/
def procsListAddAll (calls : List ProcsAddCall) : Option ProcsHeap :=
  calls.foldlM (fun heap call => (procsListNodeAdd call heap).map Prod.snd) procsListNodeInit

end NagiosPlugins
