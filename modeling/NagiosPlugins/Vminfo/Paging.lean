import NagiosPlugins.Libc.Printf
import NagiosPlugins.Perfdata.Representable
import NagiosPlugins.Vminfo.Stat

/-!
# Paging between two readings

`get_paging_status` and `main` of `plugins/check_paging.c`. Both readings go into one object, and
the counters of the kernel wrap around; what is reported is the number of events in between all the
same.
-/

namespace NagiosPlugins

open Libc

/-! ### The plugin -/

/-- What the getters of `lib/vminfo.c` have in common; the object may be NULL. -/
def procVmemGet (field : VmField) (p : Option ProcVmemData) : UInt64 :=
  match p with
  | none => 0
  | some data => data field

def procVmemGetPgpgin := procVmemGet .pgpgin
def procVmemGetPgpgout := procVmemGet .pgpgout
def procVmemGetPgfault := procVmemGet .pgfault
def procVmemGetPgmajfault := procVmemGet .pgmajfault
def procVmemGetPgfree := procVmemGet .pgfree
def procVmemGetPswpin := procVmemGet .pswpin
def procVmemGetPswpout := procVmemGet .pswpout

/-- `paging_data_t`. -/
structure PagingData where
  dpgpgin : UInt64
  dpgpgout : UInt64
  dpgfault : UInt64
  dpgfree : UInt64
  dpgmajfault : UInt64
  dpgscand : UInt64
  dpgscank : UInt64
  dpgsteal : UInt64
  dpswpin : UInt64
  dpswpout : UInt64
  summary : UInt64
  deriving DecidableEq, Repr

/-- `get_paging_status`, where the files are as in `files` at the first reading and as in `files'`
at the second. -/
def getPagingStatus (swappingOnly : Bool) (files files' : ProcFiles) : Except Stop PagingData := do
  let vmem ← procVmemRead files procVmemNew
  let vmem' ← procVmemRead files' vmem
  let delta (get : Option ProcVmemData → UInt64) : UInt64 := get (some vmem') - get (some vmem)
  let dpgmajfault := delta procVmemGetPgmajfault
  let dpswpin := delta procVmemGetPswpin
  let dpswpout := delta procVmemGetPswpout
  return {
    dpgpgin := delta procVmemGetPgpgin
    dpgpgout := delta procVmemGetPgpgout
    dpgfault := delta procVmemGetPgfault
    dpgmajfault
    dpgfree := delta procVmemGetPgfree
    dpgsteal := delta procVmemGetPgsteal
    dpgscand := delta procVmemGetPgscand
    dpgscank := delta procVmemGetPgscank
    dpswpin, dpswpout
    summary := if swappingOnly then dpswpin + dpswpout else dpgmajfault }

/-- The options of the command line. -/
structure PagingOptions where
  showSwapping : Bool
  swappingOnly : Bool
  warning : Option CString
  critical : Option CString

/-- What the plugin reports, and which of the two parts of the performance data it prints. -/
structure PagingReport where
  status : Nagstatus
  paging : PagingData
  printsPaging : Bool
  printsSwapping : Bool
  deriving DecidableEq, Repr

/-- `main`; there is no report if the usage is printed instead. -/
def checkPaging (options : PagingOptions) (files files' : ProcFiles) :
    Except Stop (Option PagingReport) := do
  let (status, myThreshold) := setThresholdsRounded none options.warning options.critical
  if status = npRangeUnparseable then return none
  match myThreshold with
  | none => throw .undefined
  | some myThreshold =>
    let paging ← getPagingStatus options.swappingOnly files files'
    return some {
      status := getStatus (.ofUInt64 paging.summary) myThreshold
      paging
      printsPaging := !options.swappingOnly
      printsSwapping := options.showSwapping || options.swappingOnly }

/-! ### The counters of the kernel -/

/-- `/proc/vmstat` where so many events of each name have been counted. -/
def vmstatText (names : List CString) (count : CString → ℕ) : List UInt8 :=
  (names.map fun name => name ++ (' ' : UInt8) :: decimal (count name % 2 ^ 64)).flatMap
    (· ++ [('\n' : UInt8)])

/-- What is read for a name: no events where there is no row. -/
def shown (names : List CString) (count : CString → ℕ) (name : CString) : UInt64 :=
  if name ∈ names then UInt64.ofNat (count name) else 0

/-- The names of the rows. -/
structure RowNames (names : List CString) : Prop where
  nodup : names.Nodup
  text : ∀ name ∈ names, ∀ c ∈ name, c ≠ ' ' ∧ c ≠ '\n' ∧ c ≠ 0
  pages : ∀ c ∈ pageCounters, c.name ∈ names

lemma strtoul_eq (s : CString) : strtoul s = (strtoulEnd s).1 := by
  rw [strtoul, strtoulEnd]
  cases scanUnsigned s with
  | none => rfl
  | some scanned => rfl

section Rows

variable {names : List CString} (hnames : RowNames names) (count : CString → ℕ)
include hnames

lemma rows_vmstatText : rows ' ' (vmstatText names count)
    = names.map fun name => (name, UInt64.ofNat (count name)) := by
  have hlines : getlines (vmstatText names count)
      = names.map fun name =>
          name ++ (' ' : UInt8) :: (decimal (count name % 2 ^ 64) ++ [('\n' : UInt8)]) := by
    rw [vmstatText, getlines_flatMap, List.map_map]
    · simp [Function.comp_def]
    · intro line hline c hc
      obtain ⟨name, hname, rfl⟩ := List.mem_map.1 hline
      rcases List.mem_append.1 hc with hc | hc
      · exact (hnames.text name hname c hc).2
      · rcases List.mem_cons.1 hc with rfl | hc
        · decide
        · have hdigit := isdigit_of_mem_decimal _ c hc
          constructor <;> rintro rfl <;> revert hdigit <;> decide
  rw [rows, hlines, List.filterMap_map]
  rw [List.filterMap_eq_map_iff_forall_eq_some.2]
  intro name hname
  have hname : ∀ c ∈ name, c ≠ ' ' := fun c hc => (hnames.text name hname c hc).1
  have hblank : (' ' : UInt8) ∉ name := fun hmem => hname _ hmem rfl
  have hstop : ∀ c ∈ ((' ' : UInt8) :: (decimal (count name % 2 ^ 64) ++ [('\n' : UInt8)])).head?,
      decide (c ≠ ' ') = false := by
    rintro c hc
    simp [← Option.some.inj hc]
  have htake := (takeWhile_digits_append (fun c hc => decide_eq_true (hname c hc)) hstop).1
  have hnumber : strtoul (decimal (count name % 2 ^ 64) ++ [('\n' : UInt8)])
      = UInt64.ofNat (count name) := by
    have hend : ∀ c ∈ [('\n' : UInt8)].head?, isdigit c = false := by decide +kernel
    have hlt : natOfDigits 10 (decimal (count name % 2 ^ 64)) < 2 ^ 64 := by
      rw [natOfDigits_decimal]
      exact Nat.mod_lt _ (by decide)
    rw [strtoul_eq, ← List.nil_append (decimal _ ++ _), strtoulEnd_digits (by simp)
      (isdigit_of_mem_decimal _) (decimal_ne_nil _) hend hlt, natOfDigits_decimal]
    exact UInt64.ofNat_mod_size
  simp only [Function.comp_apply, strchr_append hblank, htake]
  rw [strchr, if_pos rfl, Option.map_some, List.tail_cons, hnumber]

lemma lastRow?_vmstatText (name : CString) :
    (lastRow? (rows ' ' (vmstatText names count)) name).getD 0 = shown names count name := by
  have hmem : ∀ value, (name, value) ∈ rows ' ' (vmstatText names count) ↔
      name ∈ names ∧ value = UInt64.ofNat (count name) := by
    intro value
    rw [rows_vmstatText hnames, List.mem_map]
    constructor
    · rintro ⟨name', hname', heq⟩
      obtain ⟨rfl, rfl⟩ := Prod.mk.inj heq
      exact ⟨hname', rfl⟩
    · rintro ⟨hname, rfl⟩
      exact ⟨name, hname, rfl⟩
  cases hrow : lastRow? (rows ' ' (vmstatText names count)) name with
  | none =>
    have hnone := lastRow?_eq_none_iff.1 hrow
    rw [rows_vmstatText hnames, List.map_map] at hnone
    have hnot : name ∉ names := by simpa [Function.comp_def] using hnone
    rw [shown, if_neg hnot]
    rfl
  | some value =>
    obtain ⟨hname, rfl⟩ := (hmem value).1 (mem_of_lastRow?_eq_some hrow)
    rw [shown, if_pos hname]
    rfl

/-- The rows of the pages are always there. -/
lemma lastRow?_pages {c : PageCounter} (hc : c ∈ pageCounters) :
    lastRow? (rows ' ' (vmstatText names count)) c.name = some (UInt64.ofNat (count c.name)) := by
  have hname := hnames.pages c hc
  have hshown := lastRow?_vmstatText hnames count c.name
  cases hrow : lastRow? (rows ' ' (vmstatText names count)) c.name with
  | none =>
    have hnone := lastRow?_eq_none_iff.1 hrow
    rw [rows_vmstatText hnames, List.map_map] at hnone
    exact absurd hname (by simpa [Function.comp_def] using hnone)
  | some value =>
    rw [hrow, shown, if_pos hname, Option.getD_some] at hshown
    rw [hshown]

end Rows

/-! ### A reading -/

/-- The rows that are stored as they are, among those that are reported. -/
def pagingRows : List (ProcTableStruct VmField) := [
  ⟨ascii "pgfault", .pgfault⟩,
  ⟨ascii "pgmajfault", .pgmajfault⟩,
  ⟨ascii "pgfree", .pgfree⟩,
  ⟨ascii "pgscan_direct_dma", .pgscanDirectDma⟩,
  ⟨ascii "pgscan_direct_high", .pgscanDirectHigh⟩,
  ⟨ascii "pgscan_direct_normal", .pgscanDirectNormal⟩,
  ⟨ascii "pgscan_kswapd_dma", .pgscanKswapdDma⟩,
  ⟨ascii "pgscan_kswapd_high", .pgscanKswapdHigh⟩,
  ⟨ascii "pgscan_kswapd_normal", .pgscanKswapdNormal⟩]

lemma pagingRows_stored : ∀ p ∈ pagingRows,
    p ∈ vmemTable ∧ p.slot ∉ overwritten ∧ p.slot ∉ lostFields := by
  decide +kernel

/-- The object holds what the kernel has counted. -/
structure Shows (names : List CString) (count : CString → ℕ) (data : ProcVmemData) : Prop where
  reachable : VmemReachable data
  rows : ∀ p ∈ pagingRows, data p.slot = shown names count p.name
  pages : ∀ c ∈ pageCounters, data c.slot = UInt64.ofNat (count c.name)
  pgsteal : data .pgsteal = shown names count (ascii "pgsteal")

/-- The first counters of the pairs do not show the mark of an unset one. -/
def Unmarked (count : CString → ℕ) : Prop :=
  ∀ kind : StatKind, UInt64.ofNat (count kind.firstName) ≠ -1

/-- A number of its own is kept. -/
lemma fillZones_pgsteal_of_ne {data : ProcVmemData} (h : data .pgsteal ≠ 0) :
    fillZones data .pgsteal = data .pgsteal := by
  have hbefore : ∃ data', ChangesOnly [.pgalloc, .pgrefill, .pgscan] data data' ∧
      fillZones data = fillIfZero .pgsteal
        (forAllZones .pgstealDma .pgstealDma32 .pgstealNormal .pgstealHigh) data' := by
    refine ⟨_, ?_, rfl⟩
    refine ChangesOnly.trans ?_ (.fillIfZero (by decide) _)
    refine ChangesOnly.trans ?_ (.fillIfZero (by decide) _)
    exact .fillIfZero (by decide) _
  obtain ⟨data', hchanges, heq⟩ := hbefore
  have hkept : data' .pgsteal = data .pgsteal := hchanges .pgsteal (by decide)
  rw [heq, fillIfZero, if_neg (hkept ▸ h), hkept]

/-- `pgsteal` holds the last row of its name, and 0 without one. -/
lemma procVmemRead_pgsteal_eq {files : ProcFiles} {content : List UInt8}
    (hvmstat : files.vmstat = some content) {data data' : ProcVmemData}
    (hdata : VmemReachable data) (hread : procVmemRead files data = .ok data') :
    data' .pgsteal = (lastRow? (rows ' ' content) (ascii "pgsteal")).getD 0 := by
  have htable : (⟨ascii "pgsteal", .pgsteal⟩ : ProcTableStruct VmField) ∈ vmemTable := by
    decide +kernel
  have hstored : (rows ' ' content).foldl (storeRow vmemTable) (vmemReset data) .pgsteal
      = (lastRow? (rows ' ' content) (ascii "pgsteal")).getD 0 :=
    foldl_storeRow_vmemTable htable (by decide) (rows ' ' content) (vmemReset data)
  have hlost : ∀ field ∈ lostFields,
      (rows ' ' content).foldl (storeRow vmemTable) (vmemReset data) field = 0 := by
    intro field hfield
    rw [← procVmemRead_of_not_overwritten hvmstat hread (lost_not_overwritten field hfield)]
    exact (VmemReachable.read files hdata hread).lost field hfield
  obtain ⟨data'', hread', hchanges⟩ := procVmemRead_eq_ok hvmstat data
  rw [hread] at hread'
  cases hread'
  rw [hchanges .pgsteal (by decide), ← hstored]
  by_cases hzero : (rows ' ' content).foldl (storeRow vmemTable) (vmemReset data) .pgsteal = 0
  · rw [fillZones_pgsteal hzero, hzero, forAllZones, hlost .pgstealDma (by decide),
      hlost .pgstealDma32 (by decide), hlost .pgstealNormal (by decide),
      hlost .pgstealHigh (by decide)]
    rfl
  · exact fillZones_pgsteal_of_ne hzero

section Read

variable {names : List CString} (hnames : RowNames names) {files : ProcFiles}
  {count : CString → ℕ} {data : ProcVmemData}
include hnames

/-- A reading shows the counters, if a member without a row has not been set before. -/
lemma exists_shows (hvmstat : files.vmstat = some (vmstatText names count))
    (hmark : Unmarked count) (hdata : VmemReachable data)
    (hbefore : ∀ p ∈ pagingRows, p.name ∉ names → data p.slot = 0) :
    ∃ data', procVmemRead files data = .ok data' ∧ Shows names count data' := by
  obtain ⟨data', hread, hslot⟩ := procVmemRead_slot hvmstat data
  refine ⟨data', hread, .read files hdata hread, ?_, ?_, ?_⟩
  · intro p hp
    obtain ⟨htable, hnot, hlost⟩ := pagingRows_stored p hp
    rw [procVmemRead_of_not_overwritten hvmstat hread hnot, foldl_storeRow_vmemTable htable hlost,
      vmemReset_of_not_overwritten data hnot, ← lastRow?_vmstatText hnames count p.name]
    cases hrow : lastRow? (rows ' ' (vmstatText names count)) p.name with
    | some value => rfl
    | none =>
      have hnone := lastRow?_eq_none_iff.1 hrow
      rw [rows_vmstatText hnames, List.map_map] at hnone
      exact hbefore p hp (by simpa [Function.comp_def] using hnone)
  · intro c hc
    have hfirst : ∀ kind : StatKind, ∃ c ∈ pageCounters, c.name = kind.firstName := by
      rintro (_ | _)
      · exact ⟨⟨ascii "pgpgin", .pgpgin, .page, 0⟩, by simp [pageCounters], rfl⟩
      · exact ⟨⟨ascii "pswpin", .pswpin, .swap, 0⟩, by simp [pageCounters], rfl⟩
    have hgiven : ∀ kind, givenByVmstat (vmstatText names count) kind = true := by
      intro kind
      obtain ⟨c, hc, hname⟩ := hfirst kind
      have hrow := lastRow?_pages hnames count hc
      rw [hname] at hrow
      rw [givenByVmstat, hrow]
      exact decide_eq_true (hmark kind)
    have hnumber : statNumber? (vmstatText names count) files.statLines c = none := by
      rw [statNumber?, linesRead_of_found (by rw [hgiven, hgiven]; rfl), Latch.last?_nil]
    rw [hslot c hc, foundInFiles, hgiven, Bool.true_or, if_pos rfl, hnumber,
      lastRow?_pages hnames count hc]
    rfl
  · rw [procVmemRead_pgsteal_eq hvmstat hdata hread, lastRow?_vmstatText hnames]

end Read

/-! ### What is reported -/

/-- The events of a name between two readings, none where there is no row. -/
def events (names : List CString) (before after : CString → ℕ) (name : CString) : ℕ :=
  if name ∈ names then after name - before name else 0

/-- A number that is reported, and the names of the events that it counts. -/
structure PagingNumber where
  value : PagingData → UInt64
  rows : List CString

def pagingNumbers : List PagingNumber := [
  ⟨(·.dpgpgin), [ascii "pgpgin"]⟩,
  ⟨(·.dpgpgout), [ascii "pgpgout"]⟩,
  ⟨(·.dpgfault), [ascii "pgfault"]⟩,
  ⟨(·.dpgfree), [ascii "pgfree"]⟩,
  ⟨(·.dpgmajfault), [ascii "pgmajfault"]⟩,
  ⟨(·.dpgscand), [ascii "pgscan_direct_dma", ascii "pgscan_direct_high",
    ascii "pgscan_direct_normal"]⟩,
  ⟨(·.dpgscank), [ascii "pgscan_kswapd_dma", ascii "pgscan_kswapd_high",
    ascii "pgscan_kswapd_normal"]⟩,
  ⟨(·.dpgsteal), [ascii "pgsteal"]⟩,
  ⟨(·.dpswpin), [ascii "pswpin"]⟩,
  ⟨(·.dpswpout), [ascii "pswpout"]⟩]

section Events

variable {names : List CString} {before after : CString → ℕ}

/-- A counter that wraps around still tells the events in between. -/
lemma shown_sub_shown (h : ∀ name, before name ≤ after name) (name : CString) :
    shown names after name - shown names before name
      = UInt64.ofNat (events names before after name) := by
  rw [shown, shown, events]
  split_ifs
  · exact (UInt64.ofNat_sub (h name)).symm
  · rfl

end Events

/-- The numbers that are reported are those of the events between the readings, modulo `2 ^ 64`,
however the counters wrap around and whatever `/proc/stat` holds. -/
theorem checkPaging_events {options : PagingOptions} {names : List CString}
    (hnames : RowNames names) {before after : CString → ℕ}
    (hadvances : ∀ name, before name ≤ after name) (hbefore : Unmarked before)
    (hafter : Unmarked after) {files files' : ProcFiles}
    (hfiles : files.vmstat = some (vmstatText names before))
    (hfiles' : files'.vmstat = some (vmstatText names after))
    {status : ℕ} {myThreshold : Thresholds}
    (hthreshold : setThresholdsRounded none options.warning options.critical
      = (status, some myThreshold))
    (hstatus : status ≠ npRangeUnparseable) :
    ∃ report, checkPaging options files files' = .ok (some report) ∧
      (∀ number ∈ pagingNumbers, number.value report.paging
        = UInt64.ofNat (number.rows.map (events names before after)).sum) ∧
      report.paging.summary = UInt64.ofNat (if options.swappingOnly
        then events names before after (ascii "pswpin")
          + events names before after (ascii "pswpout")
        else events names before after (ascii "pgmajfault")) ∧
      report.status = getStatus (.ofUInt64 report.paging.summary) myThreshold := by
  obtain ⟨vmem, hread, hshows⟩ := exists_shows hnames hfiles hbefore .new fun _ _ _ => rfl
  obtain ⟨vmem', hread', hshows'⟩ := exists_shows hnames hfiles' hafter hshows.reachable
    fun p hp hname => by rw [hshows.rows p hp, shown, if_neg hname]
  have hrow : ∀ p ∈ pagingRows, vmem' p.slot - vmem p.slot
      = UInt64.ofNat (events names before after p.name) := by
    intro p hp
    rw [hshows.rows p hp, hshows'.rows p hp, shown_sub_shown hadvances]
  have hpage : ∀ c ∈ pageCounters, vmem' c.slot - vmem c.slot
      = UInt64.ofNat (events names before after c.name) := by
    intro c hc
    rw [hshows.pages c hc, hshows'.pages c hc, ← UInt64.ofNat_sub (hadvances c.name), events,
      if_pos (hnames.pages c hc)]
  have hpgsteal : vmem' .pgsteal - vmem .pgsteal
      = UInt64.ofNat (events names before after (ascii "pgsteal")) := by
    rw [hshows.pgsteal, hshows'.pgsteal, shown_sub_shown hadvances]
  simp only [pagingRows, List.forall_mem_cons] at hrow
  simp only [pageCounters, List.forall_mem_cons] at hpage
  obtain ⟨hpgfault, hpgmajfault, hpgfree, hdma, hhigh, hnormal, hkdma, hkhigh, hknormal, -⟩ := hrow
  obtain ⟨hpgpgin, hpgpgout, hpswpin, hpswpout, -⟩ := hpage
  -- the differences of the sums are the sums of the differences
  have hthree : ∀ a b c a' b' c' : UInt64,
      a' + b' + c' - (a + b + c) = (a' - a) + ((b' - b) + (c' - c)) := by
    intro a b c a' b' c'
    grind
  rw [checkPaging, hthreshold]
  simp only [hstatus, if_false, getPagingStatus, hread, hread', Except.ok_bind]
  refine ⟨_, rfl, ?_, ?_, rfl⟩
  · simp only [pagingNumbers, List.forall_mem_cons, List.map_cons, List.map_nil, List.sum_cons,
      List.sum_nil, add_zero]
    refine ⟨hpgpgin, hpgpgout, hpgfault, hpgfree, hpgmajfault, ?_, ?_, hpgsteal, hpswpin, hpswpout,
      fun _ h => absurd h (List.not_mem_nil)⟩
    · rw [UInt64.ofNat_add, UInt64.ofNat_add, ← hdma, ← hhigh, ← hnormal]
      exact hthree _ _ _ _ _ _
    · rw [UInt64.ofNat_add, UInt64.ofNat_add, ← hkdma, ← hkhigh, ← hknormal]
      exact hthree _ _ _ _ _ _
  · cases options.swappingOnly with
    | true =>
      rw [if_pos rfl, if_pos rfl, UInt64.ofNat_add, ← hpswpin, ← hpswpout]
      rfl
    | false =>
      rw [if_neg Bool.false_ne_true, if_neg Bool.false_ne_true]
      exact hpgmajfault

/-- The events of every name go from `before` to `before + 7` past the end of the counters. -/
theorem checkPaging_events_wrap :
    let names := pageCounters.map (·.name)
    let before : CString → ℕ := fun _ => 2 ^ 64 - 3
    let after : CString → ℕ := fun _ => 2 ^ 64 + 4
    let files : ProcFiles := ⟨none, some (vmstatText names before), none⟩
    let files' : ProcFiles := ⟨none, some (vmstatText names after), none⟩
    ∃ report, checkPaging ⟨false, true, none, none⟩ files files' = .ok (some report) ∧
      (∀ number ∈ pagingNumbers, number.value report.paging
        = UInt64.ofNat (number.rows.map (events names before after)).sum) ∧
      report.paging.summary = UInt64.ofNat (if true
        then events names before after (ascii "pswpin")
          + events names before after (ascii "pswpout")
        else events names before after (ascii "pgmajfault")) ∧
      report.status = getStatus (.ofUInt64 report.paging.summary) ⟨none, none⟩ := by
  intro names before after files files'
  have hnames : RowNames names :=
    ⟨by decide +kernel, by decide +kernel, fun c hc => List.mem_map_of_mem hc⟩
  exact checkPaging_events hnames (fun _ => by decide) (fun _ => by decide +kernel)
    (fun _ => by decide +kernel) rfl rfl rfl (by decide)

end NagiosPlugins
