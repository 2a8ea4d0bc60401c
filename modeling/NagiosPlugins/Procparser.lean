import NagiosPlugins.Common
import NagiosPlugins.Data.Latch
import NagiosPlugins.Libc.Stdlib

/-!
# Parsing a table of the proc filesystem

`procparser` of `lib/procparser.c`: the rows of a file, a name and a number with a separator in
between, are stored into the slots of a table that `bsearch` looks the names up in.
-/

namespace NagiosPlugins

open Libc

variable {Slot : Type} [DecidableEq Slot]

/-- `proc_table_struct`. -/
structure ProcTableStruct (Slot : Type) where
  name : CString
  slot : Slot
  deriving DecidableEq, Repr

/-- The slot that `bsearch` finds for a name. -/
def findSlot (procTable : List (ProcTableStruct Slot)) (name : CString) : Option Slot :=
  (bsearch (fun p => strcmp name p.name) procTable).map (·.slot)

/-- The size of `namebuf`. -/
def namebufSize : ℕ := 32

/-- The body of the loop of `procparser`. -/
def procparserLine (procTable : List (ProcTableStruct Slot)) (separator : UInt8)
    (slots : Slot → UInt64) (line : CString) : Slot → UInt64 :=
  match strchr line separator with
  | none => slots
  | some tail =>
    let head := line.takeWhile (· ≠ separator)
    if head.length ≥ namebufSize then slots
    else
      match findSlot procTable head with
      | none => slots
      | some slot => Function.update slots slot (strtoul tail.tail)

/-- `procparser`; `content` is what the file holds, unless it cannot be opened. -/
def procparser (filename : String) (content : Option (List UInt8))
    (procTable : List (ProcTableStruct Slot)) (separator : UInt8) (slots : Slot → UInt64) :
    Except Stop (Slot → UInt64) :=
  match content with
  | none => .error (.pluginError .unknown ("error: cannot read " ++ filename))
  | some content =>
    .ok ((getlines content).foldl (procparserLine procTable separator) slots)

/-! ### Rows -/

/-- The rows of a file: the name in front of the first separator, the number behind it. -/
def rows (separator : UInt8) (content : List UInt8) : List (CString × UInt64) :=
  (getlines content).filterMap fun line =>
    (strchr line separator).map fun tail =>
      (line.takeWhile (· ≠ separator), strtoul tail.tail)

/-- Storing a row. -/
def storeRow (procTable : List (ProcTableStruct Slot)) (slots : Slot → UInt64)
    (row : CString × UInt64) : Slot → UInt64 :=
  if row.1.length ≥ namebufSize then slots
  else
    match findSlot procTable row.1 with
    | none => slots
    | some slot => Function.update slots slot row.2

variable {procTable : List (ProcTableStruct Slot)}

/-- `procparser` stores the rows one after the other. -/
theorem procparser_eq (filename : String) (separator : UInt8) (content : List UInt8)
    (slots : Slot → UInt64) :
    procparser filename (some content) procTable separator slots
      = .ok ((rows separator content).foldl (storeRow procTable) slots) := by
  rw [procparser, rows]
  congr 1
  induction getlines content generalizing slots with
  | nil => rfl
  | cons line lines ih =>
    rw [List.foldl_cons, ih, List.filterMap_cons]
    cases h : strchr line separator with
    | none => simp [procparserLine, h]
    | some tail => simp [procparserLine, storeRow, h]

omit [DecidableEq Slot] in
lemma findSlot_eq_some {name : CString} {slot : Slot} (h : findSlot procTable name = some slot) :
    ⟨name, slot⟩ ∈ procTable := by
  obtain ⟨p, hp, rfl⟩ := Option.map_eq_some_iff.1 h
  obtain ⟨hmem, hcompar⟩ := bsearch_eq_some hp
  rw [strcmp_eq_iff] at hcompar
  rw [hcompar]
  exact hmem

/-- A slot that no name leads to keeps its value. -/
lemma foldl_storeRow_of_forall_ne {slot : Slot} {rs : List (CString × UInt64)}
    (h : ∀ row ∈ rs, findSlot procTable row.1 ≠ some slot) (slots : Slot → UInt64) :
    rs.foldl (storeRow procTable) slots slot = slots slot := by
  induction rs generalizing slots with
  | nil => rfl
  | cons row rs ih =>
    obtain ⟨hrow, hrs⟩ := List.forall_mem_cons.1 h
    rw [List.foldl_cons, ih hrs, storeRow]
    split_ifs
    · rfl
    · cases hslot : findSlot procTable row.1 with
      | none => rfl
      | some slot' =>
        have hne : slot ≠ slot' := by
          rintro rfl
          exact hrow hslot
        exact Function.update_of_ne hne _ _

/-- The value in the last row of a name, if there is one. -/
def lastRow? (rs : List (CString × UInt64)) (name : CString) : Option UInt64 :=
  Latch.last? (fun row => if row.1 = name then some row.2 else none) rs

lemma mem_of_lastRow?_eq_some {rs : List (CString × UInt64)} {name : CString} {value : UInt64}
    (h : lastRow? rs name = some value) : (name, value) ∈ rs := by
  obtain ⟨row, hrow, heq⟩ := Latch.mem_of_last?_eq_some _ h
  split_ifs at heq with hname
  cases heq
  rwa [← hname]

lemma lastRow?_eq_none_iff {rs : List (CString × UInt64)} {name : CString} :
    lastRow? rs name = none ↔ name ∉ rs.map Prod.fst := by
  rw [lastRow?, Latch.last?, List.getLast?_eq_none_iff, List.filterMap_eq_nil_iff]
  constructor
  · rintro hnone hname
    obtain ⟨row, hrow, rfl⟩ := List.mem_map.1 hname
    have hvalue := hnone row hrow
    rw [if_pos rfl] at hvalue
    cases hvalue
  · intro hname row hrow
    apply if_neg
    rintro rfl
    exact hname (List.mem_map_of_mem hrow)

/-- The last row of a name that is found decides, if no other name leads to its slot. -/
lemma foldl_storeRow_eq_lastRow? {slot : Slot} {name : CString}
    (hlen : name.length < namebufSize) (hfound : findSlot procTable name = some slot)
    (hunique : ∀ name', findSlot procTable name' = some slot → name' = name)
    (rs : List (CString × UInt64)) (slots : Slot → UInt64) :
    rs.foldl (storeRow procTable) slots slot = (lastRow? rs name).getD (slots slot) := by
  have hstep : ∀ (slots : Slot → UInt64) (row : CString × UInt64),
      (if row.1 = name then some row.2 else none).getD (slots slot)
        = storeRow procTable slots row slot := by
    intro slots row
    by_cases hname : row.1 = name
    · rw [storeRow, hname, if_neg (Nat.not_le.2 hlen), hfound]
      simp
    · have hne : ∀ row' ∈ [row], findSlot procTable row'.1 ≠ some slot := by
        intro row' hrow' hslot
        rw [List.mem_singleton.1 hrow'] at hslot
        exact hname (hunique row.1 hslot)
      rw [if_neg hname]
      exact (foldl_storeRow_of_forall_ne hne slots).symm
  rw [lastRow?, ← Latch.foldl_eq_last?]
  exact (List.foldl_hom (fun slots : Slot → UInt64 => slots slot) (H := hstep)).symm

/-- A row that is found is stored, if no other name leads to its slot. -/
lemma foldl_storeRow_of_mem {slot : Slot} {name : CString} {value : UInt64}
    {rs : List (CString × UInt64)} (hnodup : (rs.map Prod.fst).Nodup)
    (hmem : (name, value) ∈ rs) (hlen : name.length < namebufSize)
    (hfound : findSlot procTable name = some slot)
    (hunique : ∀ name', findSlot procTable name' = some slot → name' = name)
    (slots : Slot → UInt64) :
    rs.foldl (storeRow procTable) slots slot = value := by
  obtain ⟨A, B, rfl⟩ := List.append_of_mem hmem
  have hB : ∀ row ∈ B, findSlot procTable row.1 ≠ some slot := by
    intro row hrow hslot
    have hname : row.1 = name := hunique row.1 hslot
    simp only [List.map_append, List.map_cons, List.nodup_append, List.nodup_cons] at hnodup
    exact hnodup.2.1.1 (hname ▸ List.mem_map_of_mem hrow)
  rw [List.foldl_append, List.foldl_cons, foldl_storeRow_of_forall_ne hB, storeRow,
    if_neg (Nat.not_le.2 hlen), hfound]
  exact Function.update_self ..

end NagiosPlugins
