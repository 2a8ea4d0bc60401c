import NagiosPlugins.Libc.Arith
import NagiosPlugins.Meminfo.Rows
import NagiosPlugins.Vminfo.Stat

/-!
# Members without a number

A read marks members with `~0UL` before the rows are stored, and gives those that are still marked
another value. The marker is not looked for in `kb_low_total`, and only in the first counter of
each pair of `/proc/vmstat`.
-/

namespace NagiosPlugins

open Libc

section Steps

variable {files : MemFiles} {kbMinFree : UInt64} {data data' : ProcSysmemData}

/-- An estimate is never the marker. -/
lemma toUInt64_clamp_ne_unset (x : Int64) : (if x < 0 then 0 else x).toUInt64 ≠ meminfoUnset := by
  intro heq
  have hmax := toNat_toUInt64_clamp x
  have hlt := x.toInt_lt
  rw [heq] at hmax
  change ((2 ^ 64 - 1 : ℕ) : ℤ) = _ at hmax
  omega

/-- The marker stays in `kb_main_available` only if it is the free memory of an old kernel. -/
lemma fillAvailable_eq_unset_iff (h : fillAvailable files kbMinFree data = .ok data') :
    data' .mainAvailable = meminfoUnset ↔ data .mainAvailable = meminfoUnset ∧
      data .mainFree = meminfoUnset ∧
      ∃ version, files.linuxVersion = .ok version ∧ version < kernelVersion 2 6 27 := by
  rw [fillAvailable] at h
  split_ifs at h with hunset
  · obtain ⟨version, hversion, h⟩ := Except.bind_eq_ok.1 h
    split_ifs at h with hlt
    · cases h
      rw [Function.update_self]
      exact ⟨fun hfree => ⟨hunset, hfree, version, hversion, hlt⟩, fun hold => hold.2.1⟩
    · obtain ⟨value, -, h⟩ := Except.bind_eq_ok.1 h
      cases h
      rw [Function.update_self]
      constructor
      · exact fun heq => absurd heq (toUInt64_clamp_ne_unset _)
      · rintro ⟨-, -, version', hversion', hlt'⟩
        rw [hversion] at hversion'
        cases hversion'
        exact absurd hlt' hlt
  · cases h
    exact ⟨fun heq => absurd heq hunset, fun hold => absurd hold.1 hunset⟩

end Steps

/-- No marker is left, unless a row has the number, and the total of low memory is that of the
main memory if there is no row for it. -/
structure SysmemSettled (content : List UInt8) (data : ProcSysmemData) : Prop where
  marker : ∀ field ∈ [MemField.inactive, .lowTotal, .mainAvailable], data field = meminfoUnset →
    ∃ row ∈ rows ':' content, row.2 = meminfoUnset
  lowTotal : ascii "LowTotal" ∉ (rows ':' content).map Prod.fst →
    data .lowTotal = data .mainTotal

/-- The sum that stands in for a missing `Inactive`. -/
def inactSum (content : List UInt8) (data : ProcSysmemData) : UInt64 :=
  reported content "Inact_dirty" (data .inactDirty)
    + reported content "Inact_clean" (data .inactClean)
    + reported content "Inact_laundry" (data .inactLaundry)

/-- The rows, and what is taken without them, are other numbers than the marker. -/
structure RowsUnmarked (files : MemFiles) (content : List UInt8) (data : ProcSysmemData) :
    Prop where
  lowTotal : reported content "LowTotal" meminfoUnset ≠ meminfoUnset
  mainTotal : reported content "LowTotal" meminfoUnset = 0 →
    reported content "MemTotal" (data .mainTotal) ≠ meminfoUnset
  inactive : reported content "Inactive" meminfoUnset = meminfoUnset →
    inactSum content data ≠ meminfoUnset
  mainAvailable : reported content "MemAvailable" meminfoUnset = meminfoUnset →
    reported content "MemFree" (data .mainFree) = meminfoUnset →
    ∀ version, files.linuxVersion = .ok version → kernelVersion 2 6 27 ≤ version

/-- There is a row `LowTotal`, and no marker is left unless a row has the number. Without the row,
the total has to be the marker itself. -/
structure RowsSettle (files : MemFiles) (content : List UInt8) (data : ProcSysmemData) :
    Prop where
  lowTotal : ascii "LowTotal" ∈ (rows ':' content).map Prod.fst ∨
    reported content "MemTotal" (data .mainTotal) = meminfoUnset
  marker : (∃ row ∈ rows ':' content, row.2 = meminfoUnset) ∨ RowsUnmarked files content data

section Read

variable {files : MemFiles} {content : List UInt8} {kbMinFree : UInt64}
  {data data' : ProcSysmemData} (hmeminfo : files.meminfo = some content)
  (hread : procSysmemRead files kbMinFree data = .ok data')

include hmeminfo hread

lemma procSysmemRead_lowTotal :
    data' .lowTotal = if reported content "LowTotal" meminfoUnset = 0
      then reported content "MemTotal" (data .mainTotal)
      else reported content "LowTotal" meminfoUnset := by
  obtain ⟨data'', hfill, rfl⟩ := procSysmemRead_inv hmeminfo hread
  have hlow : sysmemStored content data .lowTotal = reported content "LowTotal" meminfoUnset :=
    sysmemStored_eq (by decide +kernel) _ _
  have htotal : sysmemStored content data .mainTotal
      = reported content "MemTotal" (data .mainTotal) :=
    sysmemStored_eq (by decide +kernel) _ _
  rw [fillDerived_of_ne (by simp) (by simp), fillAvailable_of_ne (by simp) hfill]
  simp [sysmemFilled, fillLow_lowTotal, hlow, htotal]

lemma procSysmemRead_inactive :
    data' .inactive = if reported content "Inactive" meminfoUnset = meminfoUnset
      then inactSum content data else reported content "Inactive" meminfoUnset := by
  obtain ⟨data'', hfill, rfl⟩ := procSysmemRead_inv hmeminfo hread
  have hinactive : sysmemStored content data .inactive = reported content "Inactive" meminfoUnset :=
    sysmemStored_eq (by decide +kernel) _ _
  have hdirty : sysmemStored content data .inactDirty
      = reported content "Inact_dirty" (data .inactDirty) :=
    sysmemStored_eq (by decide +kernel) _ _
  have hclean : sysmemStored content data .inactClean
      = reported content "Inact_clean" (data .inactClean) :=
    sysmemStored_eq (by decide +kernel) _ _
  have hlaundry : sysmemStored content data .inactLaundry
      = reported content "Inact_laundry" (data .inactLaundry) :=
    sysmemStored_eq (by decide +kernel) _ _
  rw [fillDerived_of_ne (by simp) (by simp), fillAvailable_of_ne (by simp) hfill]
  simp [sysmemFilled, fillInactive_inactive, hinactive, hdirty, hclean, hlaundry, inactSum]

lemma procSysmemRead_mainAvailable_eq_unset_iff :
    data' .mainAvailable = meminfoUnset ↔
      reported content "MemAvailable" meminfoUnset = meminfoUnset ∧
      reported content "MemFree" (data .mainFree) = meminfoUnset ∧
      ∃ version, files.linuxVersion = .ok version ∧ version < kernelVersion 2 6 27 := by
  obtain ⟨data'', hfill, rfl⟩ := procSysmemRead_inv hmeminfo hread
  have hfree : sysmemFilled content data .mainFree
      = reported content "MemFree" (data .mainFree) :=
    sysmemFilled_eq (by decide +kernel) (by simp [filled]) _ _
  rw [fillDerived_of_ne (by simp) (by simp), fillAvailable_eq_unset_iff hfill,
    sysmemFilled_mainAvailable, hfree]

/-- Without the row, the total of low memory stays marked. -/
lemma procSysmemRead_lowTotal_of_noRow
    (hrow : ascii "LowTotal" ∉ (rows ':' content).map Prod.fst) :
    data' .lowTotal = meminfoUnset := by
  have hlow : reported content "LowTotal" meminfoUnset = meminfoUnset := by
    rw [reported, lastRow?_eq_none_iff.2 hrow]
    rfl
  rw [procSysmemRead_lowTotal hmeminfo hread, hlow]
  exact if_neg (by decide)

lemma lowTotal_ne_unset_iff :
    data' .lowTotal ≠ meminfoUnset ↔ reported content "LowTotal" meminfoUnset ≠ meminfoUnset ∧
      (reported content "LowTotal" meminfoUnset = 0 →
        reported content "MemTotal" (data .mainTotal) ≠ meminfoUnset) := by
  have hzero : (0 : UInt64) ≠ meminfoUnset := by decide
  rw [procSysmemRead_lowTotal hmeminfo hread]
  split_ifs with hlow
  · simp [hlow, hzero]
  · simp [hlow]

lemma inactive_ne_unset_iff :
    data' .inactive ≠ meminfoUnset ↔
      (reported content "Inactive" meminfoUnset = meminfoUnset →
        inactSum content data ≠ meminfoUnset) := by
  rw [procSysmemRead_inactive hmeminfo hread]
  split_ifs with hmissing
  · simp [hmissing]
  · simp [hmissing]

lemma mainAvailable_ne_unset_iff :
    data' .mainAvailable ≠ meminfoUnset ↔
      (reported content "MemAvailable" meminfoUnset = meminfoUnset →
        reported content "MemFree" (data .mainFree) = meminfoUnset →
        ∀ version, files.linuxVersion = .ok version → kernelVersion 2 6 27 ≤ version) := by
  rw [ne_eq, procSysmemRead_mainAvailable_eq_unset_iff hmeminfo hread]
  simp only [not_and, not_exists, UInt32.not_lt]

/-- Which rows leave no marker. -/
lemma unmarked_iff :
    (∀ field ∈ [MemField.inactive, .lowTotal, .mainAvailable], data' field ≠ meminfoUnset)
      ↔ RowsUnmarked files content data := by
  simp only [List.forall_mem_cons, List.not_mem_nil, false_imp_iff, implies_true, and_true]
  rw [inactive_ne_unset_iff hmeminfo hread, lowTotal_ne_unset_iff hmeminfo hread,
    mainAvailable_ne_unset_iff hmeminfo hread]
  constructor
  · rintro ⟨hinactive, ⟨hlow, htotal⟩, havailable⟩
    exact ⟨hlow, htotal, hinactive, havailable⟩
  · rintro ⟨hlow, htotal, hinactive, havailable⟩
    exact ⟨hinactive, ⟨hlow, htotal⟩, havailable⟩

/-- A read settles the members exactly if the rows do. -/
lemma sysmemSettled_iff : SysmemSettled content data' ↔ RowsSettle files content data := by
  have hunmarked := unmarked_iff hmeminfo hread
  have htotal : data' .mainTotal = reported content "MemTotal" (data .mainTotal) :=
    procSysmemRead_reported hmeminfo hread (by decide +kernel) (by simp [filled])
  constructor
  · rintro ⟨hmarker, hlowTotal⟩
    refine ⟨?_, ?_⟩
    · by_contra hneither
      obtain ⟨hrow, hne⟩ := not_or.1 hneither
      rw [← htotal, ← hlowTotal hrow] at hne
      exact hne (procSysmemRead_lowTotal_of_noRow hmeminfo hread hrow)
    · by_cases hliteral : ∃ row ∈ rows ':' content, row.2 = meminfoUnset
      · exact .inl hliteral
      · exact .inr (hunmarked.1 fun field hfield heq => hliteral (hmarker field hfield heq))
  · rintro ⟨hlowTotal, hmarker⟩
    refine ⟨?_, ?_⟩
    · intro field hfield heq
      rcases hmarker with hliteral | hrows
      · exact hliteral
      · exact absurd heq (hunmarked.2 hrows field hfield)
    · intro hrow
      rw [procSysmemRead_lowTotal_of_noRow hmeminfo hread hrow, htotal]
      rcases hlowTotal with hmem | hmarked
      · exact absurd hmem hrow
      · exact hmarked.symm

end Read

section Unmarked

variable {content : List UInt8} (hrows : ∀ row ∈ rows ':' content, row.2 ≠ meminfoUnset)

include hrows

lemma reported_ne_unset {before : UInt64} (hbefore : before ≠ meminfoUnset) (name : String) :
    reported content name before ≠ meminfoUnset := by
  rw [reported]
  cases hrow : lastRow? (rows ':' content) (ascii name) with
  | none => exact hbefore
  | some value => exact hrows _ (mem_of_lastRow?_eq_some hrow)

lemma reported_unset_eq_iff (name : String) :
    reported content name meminfoUnset = meminfoUnset
      ↔ ascii name ∉ (rows ':' content).map Prod.fst := by
  rw [← lastRow?_eq_none_iff, reported]
  cases hrow : lastRow? (rows ':' content) (ascii name) with
  | none => simp
  | some value => simpa using hrows _ (mem_of_lastRow?_eq_some hrow)

/-- For a new object and rows without the marker, there have to be the rows `LowTotal` and
`Inactive`, or a sum in the place of the latter that is not the marker. -/
theorem rowsSettle_new_iff (files : MemFiles) :
    RowsSettle files content procSysmemNew ↔
      ascii "LowTotal" ∈ (rows ':' content).map Prod.fst ∧
      (ascii "Inactive" ∈ (rows ':' content).map Prod.fst ∨
        inactSum content procSysmemNew ≠ meminfoUnset) := by
  have hzero : (0 : UInt64) ≠ meminfoUnset := by decide
  have hliteral : ¬ ∃ row ∈ rows ':' content, row.2 = meminfoUnset := by
    rintro ⟨row, hrow, heq⟩
    exact hrows row hrow heq
  constructor
  · rintro ⟨-, hmarker⟩
    obtain ⟨hlow, -, hsum, -⟩ := hmarker.resolve_left hliteral
    refine ⟨?_, ?_⟩
    · by_contra hrow
      exact hlow ((reported_unset_eq_iff hrows "LowTotal").2 hrow)
    · by_contra hneither
      obtain ⟨hrow, heq⟩ := not_or.1 hneither
      exact heq (hsum ((reported_unset_eq_iff hrows "Inactive").2 hrow))
  · rintro ⟨hrow, hinactive⟩
    refine ⟨.inl hrow, .inr ⟨?_, ?_, ?_, ?_⟩⟩
    · intro hlow
      exact (reported_unset_eq_iff hrows "LowTotal").1 hlow hrow
    · exact fun _ => reported_ne_unset hrows hzero "MemTotal"
    · intro hmissing
      exact hinactive.resolve_left ((reported_unset_eq_iff hrows "Inactive").1 hmissing)
    · exact fun _ hfree => absurd hfree (reported_ne_unset hrows hzero "MemFree")

end Unmarked

/-- The members are settled exactly if the rows of `/proc/meminfo` settle them, and the counters
exactly if the lines of `/proc/stat` do. -/
theorem settled_iff {memFiles : MemFiles} {meminfo : List UInt8}
    (hmeminfo : memFiles.meminfo = some meminfo) {kbMinFree : UInt64}
    {sysmem sysmem' : ProcSysmemData}
    (hread : procSysmemRead memFiles kbMinFree sysmem = .ok sysmem') {procFiles : ProcFiles}
    {vmstat : List UInt8} (hvmstat : procFiles.vmstat = some vmstat) (vmem : ProcVmemData) :
    (SysmemSettled meminfo sysmem' ↔ RowsSettle memFiles meminfo sysmem) ∧
      ∃ vmem', procVmemRead procFiles vmem = .ok vmem' ∧
        (VmemSettled vmstat procFiles.statLines vmem'
          ↔ ∀ c ∈ pageCounters, StatSettles vmstat procFiles.statLines c) :=
  ⟨sysmemSettled_iff hmeminfo hread, vmemSettled_iff hvmstat vmem⟩

/-- Files without `LowTotal`, and without the second counters of the pairs. -/
def firstsOnly : MemFiles where
  envProcmeminfo := none
  meminfo := some (ascii "MemTotal: 8\nMemAvailable: 4\n")
  linuxVersion := .ok (kernelVersion 6 1 0)
  sysfs := ⟨fun _ => none, false, none⟩

def firstCounters : ProcFiles where
  envProcvmstat := none
  vmstat := some (ascii "pgpgin 5\npswpin 6\n")
  stat := none

theorem settled_iff_firstsOnly :
    ∃ sysmem' vmem', procSysmemRead firstsOnly 0 procSysmemNew = .ok sysmem' ∧
      procVmemRead firstCounters procVmemNew = .ok vmem' ∧
      (SysmemSettled (ascii "MemTotal: 8\nMemAvailable: 4\n") sysmem'
        ↔ RowsSettle firstsOnly (ascii "MemTotal: 8\nMemAvailable: 4\n") procSysmemNew) ∧
      (VmemSettled (ascii "pgpgin 5\npswpin 6\n") [] vmem'
        ↔ ∀ c ∈ pageCounters, StatSettles (ascii "pgpgin 5\npswpin 6\n") [] c) := by
  have hread : ∃ sysmem', procSysmemRead firstsOnly 0 procSysmemNew = .ok sysmem' := ⟨_, rfl⟩
  obtain ⟨sysmem', hread⟩ := hread
  obtain ⟨hsysmem, vmem', hvmem, hsettled⟩ :=
    settled_iff rfl hread (rfl : firstCounters.vmstat = some _) procVmemNew
  exact ⟨sysmem', vmem', hread, hvmem, hsysmem, hsettled⟩

/-- The total of low memory and the second counters stay marked. -/
theorem firstsOnly_not_settled :
    (∃ sysmem', procSysmemRead firstsOnly 0 procSysmemNew = .ok sysmem' ∧
      ¬ SysmemSettled (ascii "MemTotal: 8\nMemAvailable: 4\n") sysmem') ∧
    ∃ vmem', procVmemRead firstCounters procVmemNew = .ok vmem' ∧
      ¬ VmemSettled (ascii "pgpgin 5\npswpin 6\n") firstCounters.statLines vmem' := by
  refine ⟨⟨_, rfl, ?_⟩, ⟨_, rfl, ?_⟩⟩
  · rintro ⟨-, hlowTotal⟩
    exact absurd (hlowTotal (by decide +kernel)) (by decide +kernel)
  · rintro ⟨-, -, htaken⟩
    have hpgpgout := htaken ⟨ascii "pgpgout", .pgpgout, .page, 1⟩ (by simp [pageCounters])
      (by decide +kernel)
    rcases hpgpgout with hzero | ⟨line, hline, -⟩
    · exact absurd hzero (by decide +kernel)
    · cases hline

end NagiosPlugins
