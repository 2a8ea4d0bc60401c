import NagiosPlugins.Data.Except
import NagiosPlugins.Meminfo.Basic
import NagiosPlugins.Procparser.Sorted

/-!
# The members after a read

`sysmem_table` is sorted, so each of its rows is stored. What comes behind the rows changes few
members, and each of them in one place.
-/

namespace NagiosPlugins

open Libc

/-- What the last row of a name says, or what is known without it. -/
def reported (content : List UInt8) (name : String) (before : UInt64) : UInt64 :=
  (lastRow? (rows ':' content) (ascii name)).getD before

lemma sortedTable_sysmemTable : SortedTable sysmemTable :=
  ⟨by decide +kernel, by decide +kernel, by decide +kernel⟩

/-- The state after the rows are stored. -/
def sysmemStored (content : List UInt8) (data : ProcSysmemData) : ProcSysmemData :=
  (rows ':' content).foldl (storeRow sysmemTable) (sysmemReset data)

lemma sysmemStored_eq {name : String} {field : MemField}
    (hp : (⟨ascii name, field⟩ : ProcTableStruct MemField) ∈ sysmemTable)
    (content : List UInt8) (data : ProcSysmemData) :
    sysmemStored content data field = reported content name (sysmemReset data field) :=
  sortedTable_sysmemTable.foldl_storeRow hp _ _

/-! ### The steps behind the rows -/

section Fill

variable {field : MemField} {data data' : ProcSysmemData}

@[simp] lemma fillLow_of_ne (htotal : field ≠ .lowTotal) (hfree : field ≠ .lowFree) :
    fillLow data field = data field := by
  rw [fillLow]
  split_ifs
  · rw [Function.update_of_ne hfree, Function.update_of_ne htotal]
  · rfl

lemma fillLow_lowTotal (data : ProcSysmemData) :
    fillLow data .lowTotal = if data .lowTotal = 0 then data .mainTotal else data .lowTotal := by
  rw [fillLow]
  split_ifs
  · rw [Function.update_of_ne (by decide), Function.update_self]
  · rfl

@[simp] lemma fillInactive_of_ne (hfield : field ≠ .inactive) :
    fillInactive data field = data field := by
  rw [fillInactive]
  split_ifs
  · exact Function.update_of_ne hfield _ _
  · rfl

lemma fillInactive_inactive (data : ProcSysmemData) :
    fillInactive data .inactive = if data .inactive = meminfoUnset
      then data .inactDirty + data .inactClean + data .inactLaundry else data .inactive := by
  rw [fillInactive]
  split_ifs
  · exact Function.update_self _ _ _
  · rfl

variable {files : MemFiles} {kbMinFree : UInt64}

lemma fillAvailable_of_ne (hfield : field ≠ .mainAvailable)
    (h : fillAvailable files kbMinFree data = .ok data') : data' field = data field := by
  rw [fillAvailable] at h
  split_ifs at h
  · obtain ⟨version, -, h⟩ := Except.bind_eq_ok.1 h
    split_ifs at h
    · cases h
      exact Function.update_of_ne hfield _ _
    · obtain ⟨value, -, h⟩ := Except.bind_eq_ok.1 h
      cases h
      exact Function.update_of_ne hfield _ _
  · cases h
    rfl

@[simp] lemma fillDerived_of_ne (hcached : field ≠ .mainCached) (hused : field ≠ .mainUsed) :
    fillDerived data field = data field := by
  simp only [fillDerived]
  rw [Function.update_of_ne hused, Function.update_of_ne hcached]

lemma fillDerived_mainUsed (data : ProcSysmemData) :
    fillDerived data .mainUsed = data .mainTotal - data .mainFree
      - (data .pageCache + data .slabReclaimable) - data .mainBuffers := by
  simp [fillDerived]

end Fill

/-! ### A read -/

/-- The members that may differ from the rows. -/
def filled : List MemField :=
  [.lowTotal, .lowFree, .inactive, .mainAvailable, .mainCached, .mainUsed]

lemma sysmemReset_of_notMem {field : MemField} (hfield : field ∉ filled) (data : ProcSysmemData) :
    sysmemReset data field = data field := by
  cases field <;> first | rfl | exact absurd (by decide) hfield

/-- The state before the available memory is looked at. -/
def sysmemFilled (content : List UInt8) (data : ProcSysmemData) : ProcSysmemData :=
  fillInactive (fillLow (sysmemStored content data))

/-- A member that is not filled in is as the rows say. -/
lemma sysmemFilled_eq {name : String} {field : MemField}
    (hp : (⟨ascii name, field⟩ : ProcTableStruct MemField) ∈ sysmemTable)
    (hfield : field ∉ filled) (content : List UInt8) (data : ProcSysmemData) :
    sysmemFilled content data field = reported content name (data field) := by
  rw [← sysmemReset_of_notMem hfield data, ← sysmemStored_eq hp, sysmemFilled]
  simp only [filled, List.mem_cons, not_or] at hfield
  obtain ⟨hlowTotal, hlowFree, hinactive, -⟩ := hfield
  rw [fillInactive_of_ne hinactive, fillLow_of_ne hlowTotal hlowFree]

/-- The row for the available memory, which is not there in older kernels. -/
lemma sysmemFilled_mainAvailable (content : List UInt8) (data : ProcSysmemData) :
    sysmemFilled content data .mainAvailable = reported content "MemAvailable" meminfoUnset := by
  have hstored : sysmemStored content data .mainAvailable
      = reported content "MemAvailable" meminfoUnset := sysmemStored_eq (by decide +kernel) _ _
  simp [sysmemFilled, hstored]

section Read

variable {files : MemFiles} {content : List UInt8} (hmeminfo : files.meminfo = some content)

include hmeminfo

lemma procSysmemRead_eq (kbMinFree : UInt64) (data : ProcSysmemData) :
    procSysmemRead files kbMinFree data
      = fillAvailable files kbMinFree (sysmemFilled content data) >>= fun data =>
          .ok (fillDerived data) := by
  rw [procSysmemRead, hmeminfo, procparser_eq, Except.ok_bind]
  rfl

variable {kbMinFree : UInt64} {data data' : ProcSysmemData}
  (hread : procSysmemRead files kbMinFree data = .ok data')

include hread

lemma procSysmemRead_inv :
    ∃ data'', fillAvailable files kbMinFree (sysmemFilled content data) = .ok data'' ∧
      data' = fillDerived data'' := by
  rw [procSysmemRead_eq hmeminfo] at hread
  obtain ⟨data'', hfill, hderived⟩ := Except.bind_eq_ok.1 hread
  cases hderived
  exact ⟨data'', hfill, rfl⟩

/-- The numbers of a member that no later step changes. -/
lemma procSysmemRead_reported {name : String} {field : MemField}
    (hp : (⟨ascii name, field⟩ : ProcTableStruct MemField) ∈ sysmemTable)
    (hfield : field ∉ filled) : data' field = reported content name (data field) := by
  rw [← sysmemFilled_eq hp hfield]
  obtain ⟨data'', hfill, rfl⟩ := procSysmemRead_inv hmeminfo hread
  simp only [filled, List.mem_cons, not_or] at hfield
  obtain ⟨-, -, -, havailable, hcached, hused, -⟩ := hfield
  rw [fillDerived_of_ne hcached hused, fillAvailable_of_ne havailable hfill]

/-- The used memory, from the members beside it. -/
lemma procSysmemRead_mainUsed :
    data' .mainUsed = data' .mainTotal - data' .mainFree
      - (data' .pageCache + data' .slabReclaimable) - data' .mainBuffers := by
  obtain ⟨data'', -, rfl⟩ := procSysmemRead_inv hmeminfo hread
  simp [fillDerived_mainUsed]

end Read

end NagiosPlugins
