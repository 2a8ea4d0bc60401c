import NagiosPlugins.Libc.Bsearch
import NagiosPlugins.Procparser

/-!
# Sorted tables

In a table that is sorted by name, the binary search finds each name, so `procparser` stores the
last row of each name of the table.
-/

namespace NagiosPlugins

open Libc

variable {Slot : Type}

/-- A table as the callers of `procparser` write it down: sorted, with names that fit into
`namebuf` and a slot for each of them. -/
structure SortedTable (procTable : List (ProcTableStruct Slot)) : Prop where
  sorted : procTable.Pairwise fun p q => strcmp p.name q.name = .lt
  length_lt : ∀ p ∈ procTable, p.name.length < namebufSize
  nodup : (procTable.map (·.slot)).Nodup

namespace SortedTable

variable {procTable : List (ProcTableStruct Slot)} (h : SortedTable procTable)

include h

lemma findSlot_of_mem {p : ProcTableStruct Slot} (hp : p ∈ procTable) :
    findSlot procTable p.name = some p.slot := by
  rw [findSlot, bsearch_of_mem h.sorted hp]
  rfl

/-- A slot is found under one name only. -/
lemma name_eq {p : ProcTableStruct Slot} (hp : p ∈ procTable) {name : CString}
    (hfound : findSlot procTable name = some p.slot) : name = p.name := by
  have hmem := findSlot_eq_some hfound
  have hinj := List.inj_on_of_nodup_map h.nodup hmem hp rfl
  exact congrArg ProcTableStruct.name hinj

/-- The binary search finds what a linear one does. -/
theorem findSlot_eq_find? (name : CString) :
    findSlot procTable name = (procTable.find? (·.name = name)).map (·.slot) := by
  cases hfind : procTable.find? (·.name = name) with
  | none =>
    rw [Option.map_none, Option.eq_none_iff_forall_ne_some]
    intro slot hfound
    have hne := List.find?_eq_none.1 hfind _ (findSlot_eq_some hfound)
    exact hne (decide_eq_true rfl)
  | some p =>
    have hname : p.name = name := by simpa using List.find?_some hfind
    rw [← hname, h.findSlot_of_mem (List.mem_of_find?_eq_some hfind)]
    rfl

variable [DecidableEq Slot]

/-- The last row of a name decides about its slot. -/
lemma foldl_storeRow {p : ProcTableStruct Slot} (hp : p ∈ procTable)
    (rs : List (CString × UInt64)) (slots : Slot → UInt64) :
    rs.foldl (storeRow procTable) slots p.slot = (lastRow? rs p.name).getD (slots p.slot) :=
  foldl_storeRow_eq_lastRow? (h.length_lt p hp) (h.findSlot_of_mem hp)
    (fun _ hfound => h.name_eq hp hfound) rs slots

end SortedTable

variable [DecidableEq Slot] {procTable : List (ProcTableStruct Slot)}

/-- A slot that is not in the table keeps its value. -/
lemma foldl_storeRow_of_notMem {slot : Slot} (hslot : slot ∉ procTable.map (·.slot))
    (rs : List (CString × UInt64)) (slots : Slot → UInt64) :
    rs.foldl (storeRow procTable) slots slot = slots slot := by
  apply foldl_storeRow_of_forall_ne
  intro row _ hfound
  exact hslot (List.mem_map.2 ⟨_, findSlot_eq_some hfound, rfl⟩)

/-- A separator of rows; a NUL would be the end of the line for `strchr`. -/
abbrev Separator := {c : UInt8 // c ≠ 0}

/-- Each slot of the table has the number from the last row with its name, and all other slots
are as they were. Lines without a separator are no rows, and rows with other names do not count. -/
theorem procparser_sorted (h : SortedTable procTable) (separator : Separator) (filename : String)
    (content : List UInt8) (slots : Slot → UInt64) :
    ∃ slots', procparser filename (some content) procTable separator.1 slots = .ok slots' ∧
      (∀ p ∈ procTable,
        slots' p.slot = (lastRow? (rows separator.1 content) p.name).getD (slots p.slot)) ∧
      ∀ slot, slot ∉ procTable.map (·.slot) → slots' slot = slots slot := by
  refine ⟨_, procparser_eq filename separator.1 content slots, ?_, ?_⟩
  · intro p hp
    exact h.foldl_storeRow hp _ _
  · intro slot hslot
    exact foldl_storeRow_of_notMem hslot _ _

/-- A table with two names, and the slots by their names. -/
def twoNames : List (ProcTableStruct Bool) :=
  [⟨ascii "MemFree", false⟩, ⟨ascii "MemTotal", true⟩]

lemma sortedTable_twoNames : SortedTable twoNames := ⟨by decide, by decide, by decide⟩

theorem procparser_twoNames :
    ∃ slots', procparser "/proc/meminfo" (some (ascii "MemTotal: 8\nMemTotal: 9\n")) twoNames ':'
        (fun _ => 7) = .ok slots' ∧
      (∀ p ∈ twoNames, slots' p.slot
        = (lastRow? (rows ':' (ascii "MemTotal: 8\nMemTotal: 9\n")) p.name).getD 7) ∧
      ∀ slot, slot ∉ twoNames.map (·.slot) → slots' slot = 7 :=
  procparser_sorted sortedTable_twoNames ⟨':', by decide⟩ _ _ _

end NagiosPlugins
