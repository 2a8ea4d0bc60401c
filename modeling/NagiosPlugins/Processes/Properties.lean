import NagiosPlugins.Data.Lists
import NagiosPlugins.Data.Tally
import NagiosPlugins.Processes.Basic

/-!
# Iterating over the users

The list keeps the users in the order of their first process, each with the number of its
processes, and the total in the head. The iteration, however, ends at the node that points to
itself without visiting it.
-/

namespace NagiosPlugins

open Libc

instance int64AddCommMonoid : AddCommMonoid Int64 where
  add_assoc := Int64.add_assoc
  zero_add := Int64.zero_add
  add_zero := Int64.add_zero
  add_comm := Int64.add_comm
  nsmul := nsmulRec

/-- The history of the processes: the user and the number that was added. -/
def increments (calls : List ProcsAddCall) : List (UInt32 × Int64) :=
  calls.map fun call => (call.uid, call.inc.toInt64)

/-- The user and the number of a node. -/
def ProcsListNode.entry (node : ProcsListNode) : UInt32 × Int64 := (node.uid, node.nbr)

/-- The heap holds the tally of the users behind the head; every node points to the next one, and
the last node to itself. -/
structure HoldsUsers (heap : ProcsHeap) (t : List (UInt32 × Int64)) : Prop where
  entries : heap.map ProcsListNode.entry = (-1, (t.map Prod.snd).sum) :: Tally.totals t
  next : heap.map (·.next) = (List.range heap.length).map fun i => min (i + 1) (heap.length - 1)

namespace HoldsUsers

variable {heap : ProcsHeap} {t : List (UInt32 × Int64)}

lemma length (h : HoldsUsers heap t) : heap.length = (Tally.keys t).length + 1 := by
  simpa [Tally.totals] using congrArg List.length h.entries

lemma getNext (h : HoldsUsers heap t) {i : ℕ} (hi : i < heap.length) :
    procsListNodeGetNext heap i = some (min (i + 1) (heap.length - 1)) := by
  rw [procsListNodeGetNext, ← List.getElem?_map, h.next]
  simp [hi]

lemma uid (h : HoldsUsers heap t) (i : ℕ) :
    heap[i + 1]?.map (·.uid) = (Tally.keys t)[i]? := by
  have hget := congrArg (fun l => l[i + 1]?.map Prod.fst) h.entries
  simpa [Tally.totals, Function.comp_def, ProcsListNode.entry] using hget

/-- The loop finds the node of a user behind `p`, or else the last node. -/
lemma findNode_eq (h : HoldsUsers heap t) (user : UInt32) {fuel p : ℕ} (hp : p < heap.length)
    (hfuel : heap.length ≤ p + fuel) :
    (∃ i, findNode heap user fuel p = some (.inl (i + 1)) ∧ (Tally.keys t)[i]? = some user) ∨
    (findNode heap user fuel p = some (.inr (heap.length - 1)) ∧
      ∀ i, p ≤ i → (Tally.keys t)[i]? ≠ some user) := by
  induction fuel generalizing p with
  | zero => omega
  | succ fuel ih =>
    have hnext := h.getNext hp
    by_cases hlast : p + 1 = heap.length
    · -- the last node
      have hself : min (p + 1) (heap.length - 1) = p := by omega
      refine .inr ⟨?_, ?_⟩
      · rw [findNode, hnext, hself]
        simp
        omega
      · intro i hi
        rw [List.getElem?_eq_none (by rw [h.length] at hlast; omega)]
        simp
    · have hsucc : min (p + 1) (heap.length - 1) = p + 1 := by omega
      have hlt : p + 1 < heap.length := by omega
      have huid := h.uid p
      rw [List.getElem?_eq_getElem hlt, Option.map_some] at huid
      have hstep : findNode heap user (fuel + 1) p
          = if heap[p + 1].uid = user then some (.inl (p + 1))
            else findNode heap user fuel (p + 1) := by
        rw [findNode, hnext, hsucc]
        simp [List.getElem?_eq_getElem hlt]
      rw [hstep]
      split_ifs with hfound
      · exact .inl ⟨p, rfl, by rw [← huid, hfound]⟩
      · rcases ih hlt (by omega) with hinl | ⟨hinr, hnone⟩
        · exact .inl hinl
        · refine .inr ⟨hinr, fun i hi => ?_⟩
          rcases Nat.eq_or_lt_of_le hi with rfl | hi
          · rw [← huid]
            simpa using hfound
          · exact hnone i hi

lemma init : HoldsUsers procsListNodeInit [] := ⟨rfl, rfl⟩

end HoldsUsers

/-! ### Adding a process -/

lemma entries_addNbr (heap : ProcsHeap) (i : ℕ) (inc : UInt64) :
    (heap.modify i (addNbr inc)).map ProcsListNode.entry
      = (heap.map ProcsListNode.entry).modify i fun x => (x.1, x.2 + inc.toInt64) :=
  List.map_modify ProcsListNode.entry _ _ (fun _ => rfl) heap i

lemma next_addNbr (heap : ProcsHeap) (i : ℕ) (inc : UInt64) :
    (heap.modify i (addNbr inc)).map (·.next) = heap.map (·.next) :=
  List.map_modify_of_eq (·.next) (addNbr inc) (fun _ => rfl) heap i

lemma entries_setNext (heap : ProcsHeap) (i next : ℕ) :
    (heap.modify i (setNext next)).map ProcsListNode.entry = heap.map ProcsListNode.entry :=
  List.map_modify_of_eq ProcsListNode.entry (setNext next) (fun _ => rfl) heap i

lemma next_setNext (heap : ProcsHeap) (i next : ℕ) :
    (heap.modify i (setNext next)).map (·.next) = (heap.map (·.next)).modify i fun _ => next :=
  List.map_modify (·.next) (setNext next) (fun _ => next) (fun _ => rfl) heap i

namespace HoldsUsers

variable {heap : ProcsHeap} {t : List (UInt32 × Int64)}

/-- A further process of a known user. -/
lemma add_known (h : HoldsUsers heap t) (call : ProcsAddCall) {i : ℕ}
    (hi : (Tally.keys t)[i]? = some call.uid) :
    HoldsUsers ((heap.modify (i + 1) (addNbr call.inc)).modify 0 (addNbr call.inc))
      (t ++ [(call.uid, call.inc.toInt64)]) := by
  constructor
  · rw [entries_addNbr, entries_addNbr, h.entries, List.modify_succ_cons,
      List.modify_zero_cons, Tally.totals_concat_known hi]
    simp
  · rw [next_addNbr, next_addNbr, List.length_modify, List.length_modify]
    exact h.next

/-- The first process of a user. -/
lemma add_new (h : HoldsUsers heap t) (call : ProcsAddCall) (hnew : call.uid ∉ Tally.keys t) :
    HoldsUsers ((heap.modify 0 (addNbr call.inc) ++ [newNode call heap.length]).modify
        (heap.length - 1) (setNext heap.length))
      (t ++ [(call.uid, call.inc.toInt64)]) := by
  constructor
  · rw [entries_setNext, List.map_append, entries_addNbr, h.entries, List.modify_zero_cons,
      Tally.totals_concat_new hnew]
    simp [newNode, ProcsListNode.entry]
  · rw [next_setNext, List.map_append, next_addNbr, h.next]
    obtain ⟨k, hk⟩ : ∃ k, heap.length = k + 1 := ⟨_, h.length⟩
    have hold : (List.range k).map (fun i => min (i + 1) k)
        = (List.range k).map fun i => min (i + 1) (k + 1) := by
      apply List.map_congr_left
      intro i hi
      rw [List.mem_range] at hi
      omega
    have hmodify := List.modify_length_append (fun _ => k + 1)
      ((List.range k).map fun i => min (i + 1) k) [k + 1] (min (k + 1) k)
    rw [List.length_map, List.length_range] at hmodify
    simp only [List.length_modify, List.length_append, List.length_singleton, hk,
      Nat.add_sub_cancel, List.range_succ, List.map_append, List.map_singleton, List.append_assoc,
      List.singleton_append, newNode]
    rw [hmodify, hold]
    simp

/-- A call returns, and its process enters the tally. -/
lemma add (h : HoldsUsers heap t) (call : ProcsAddCall) :
    ∃ node heap', procsListNodeAdd call heap = some (node, heap') ∧
      HoldsUsers heap' (t ++ [(call.uid, call.inc.toInt64)]) := by
  have hpos : 0 < heap.length := by rw [h.length]; omega
  rcases h.findNode_eq call.uid hpos (Nat.le_add_left _ _) with ⟨i, hfind, hi⟩ | ⟨hfind, hnone⟩
  · refine ⟨i + 1, _, ?_, h.add_known call hi⟩
    rw [procsListNodeAdd, hfind]
    rfl
  · have hnew : call.uid ∉ Tally.keys t := by
      intro hmem
      obtain ⟨i, hlt, hi⟩ := List.getElem_of_mem hmem
      exact hnone i (Nat.zero_le _) (List.getElem?_eq_some_iff.2 ⟨hlt, hi⟩)
    refine ⟨heap.length, _, ?_, h.add_new call hnew⟩
    rw [procsListNodeAdd, hfind]
    rfl

end HoldsUsers

/-- Every sequence of calls returns a list that holds the tally of the processes. -/
theorem procsListAddAll_holdsUsers (calls : List ProcsAddCall) :
    ∃ heap, procsListAddAll calls = some heap ∧ HoldsUsers heap (increments calls) := by
  induction calls using List.reverseRecOn with
  | nil => exact ⟨_, rfl, .init⟩
  | append_singleton calls call ih =>
    obtain ⟨heap, hheap, h⟩ := ih
    obtain ⟨node, heap', hadd, h'⟩ := h.add call
    refine ⟨heap', ?_, ?_⟩
    · rw [procsListAddAll] at hheap ⊢
      rw [List.foldlM_append, hheap]
      simp [hadd]
    · simpa [increments] using h'

/-- The numbers of all users add up to the total. -/
theorem HoldsUsers.total_eq_sum {heap : ProcsHeap} {t : List (UInt32 × Int64)}
    (h : HoldsUsers heap t) :
    procsListNodeGetTotalProcsNbr heap 0 = some (heap.tail.map (·.nbr)).sum := by
  have hentries := h.entries
  obtain ⟨head, users, rfl, hhead, husers⟩ := List.map_eq_cons_iff.1 hentries
  have htotal : head.nbr = (t.map Prod.snd).sum := congrArg Prod.snd hhead
  have hnbrs : users.map (·.nbr) = (Tally.totals t).map Prod.snd := by
    rw [← husers, List.map_map]
    rfl
  rw [List.tail_cons, hnbrs, Tally.sum_totals, ← htotal]
  rfl

/-! ### The iteration -/

/-- The loop runs up to the last node, for which the body does not run. -/
lemma HoldsUsers.foreachLoop_eq {heap : ProcsHeap} {t : List (UInt32 × Int64)}
    (h : HoldsUsers heap t) {fuel i k : ℕ} (hk : i + k + 1 = heap.length) (hfuel : k < fuel) :
    foreachLoop heap fuel i = some (List.range' i k) := by
  induction k generalizing fuel i with
  | zero =>
    obtain ⟨fuel, rfl⟩ : ∃ f, fuel = f + 1 := ⟨fuel - 1, by omega⟩
    have hself : min (i + 1) (heap.length - 1) = i := by omega
    rw [foreachLoop, h.getNext (by omega), hself]
    simp
  | succ k ih =>
    obtain ⟨fuel, rfl⟩ : ∃ f, fuel = f + 1 := ⟨fuel - 1, by omega⟩
    have hsucc : min (i + 1) (heap.length - 1) = i + 1 := by omega
    have hrest : foreachLoop heap fuel (i + 1) = some (List.range' (i + 1) k) :=
      ih (by omega) (by omega)
    rw [foreachLoop, h.getNext (by omega), hsucc]
    simp [hrest, List.range'_succ]

/-- `proc_list_node_foreach` visits the users in their order, all but the last one. -/
theorem HoldsUsers.procListNodeForeach_eq {heap : ProcsHeap} {t : List (UInt32 × Int64)}
    (h : HoldsUsers heap t) :
    procListNodeForeach heap 0 = some (List.range' 1 (heap.length - 2)) := by
  have hlen := h.length
  rw [procListNodeForeach, h.getNext (by omega), Option.bind_eq_bind, Option.bind_some]
  by_cases hempty : heap.length = 1
  · have hzero : min (0 + 1) (heap.length - 1) = 0 := by omega
    rw [hzero, h.foreachLoop_eq (k := 0) (by omega) (by omega), hempty]
    rfl
  · have hone : min (0 + 1) (heap.length - 1) = 1 := by omega
    rw [hone]
    exact h.foreachLoop_eq (by omega) (by omega)

/-- The iteration visits every node but the head exactly once, and the numbers it meets add up
to the total. -/
def VisitsEveryUser (heap : ProcsHeap) : Prop :=
  ∃ visited, procListNodeForeach heap 0 = some visited ∧
    (∀ i, 0 < i → i < heap.length → visited.count i = 1) ∧
    some (visited.map fun i => (procsListNodeGetNbr heap i).getD 0).sum
      = procsListNodeGetTotalProcsNbr heap 0

/-- The last user of the list is lost: every user is visited only if there is none. -/
theorem visitsEveryUser_iff (calls : List ProcsAddCall) :
    ∃ heap, procsListAddAll calls = some heap ∧ (VisitsEveryUser heap ↔ calls = []) := by
  obtain ⟨heap, hheap, h⟩ := procsListAddAll_holdsUsers calls
  refine ⟨heap, hheap, ?_⟩
  have hlen := h.length
  constructor
  · rintro ⟨visited, hvisited, hcount, -⟩
    rw [h.procListNodeForeach_eq] at hvisited
    cases hvisited
    have hlast : heap.length - 1 ∉ List.range' 1 (heap.length - 2) := by
      rw [List.mem_range'_1]
      omega
    by_contra hne
    have husers : 0 < (Tally.keys (increments calls)).length := by
      obtain ⟨call, hcall⟩ := List.exists_mem_of_ne_nil calls hne
      apply List.length_pos_of_mem (a := call.uid)
      rw [Tally.mem_keys, increments, List.map_map]
      exact List.mem_map_of_mem hcall
    have hone := hcount (heap.length - 1) (by omega) (by omega)
    rw [List.count_eq_zero.2 hlast] at hone
    exact absurd hone (by decide)
  · rintro rfl
    cases hheap
    exact ⟨[], rfl, fun i hi hlt => absurd hlt (by simp [procsListNodeInit]; omega), rfl⟩

/-- A single process, of root. -/
def rootProcess : ProcsAddCall where
  uid := 0
  inc := 1
  pwName := some (ascii "root")
  rlim := none

theorem rootProcess_not_visited :
    ∃ heap, procsListAddAll [rootProcess] = some heap ∧
      procsListNodeGetTotalProcsNbr heap 0 = some 1 ∧ procListNodeForeach heap 0 = some [] ∧
      ¬ VisitsEveryUser heap := by
  refine ⟨_, rfl, rfl, rfl, ?_⟩
  rintro ⟨visited, hvisited, hcount, -⟩
  cases hvisited
  exact absurd (hcount 1 (by decide) (by decide)) (by decide)

end NagiosPlugins
