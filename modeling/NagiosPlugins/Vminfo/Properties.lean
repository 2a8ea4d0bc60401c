import NagiosPlugins.Data.Except
import NagiosPlugins.Vminfo.Basic

/-!
# Storing the rows of `/proc/vmstat`

A row is stored if the binary search finds its name in the table. The table is not sorted by
`strcmp` around `pgsteal`, so five of its names are never found.
-/

namespace NagiosPlugins

open Libc

/-! ### The search in the table -/

/-- The fields whose names the binary search misses. -/
def lostFields : List VmField :=
  [.pgstealDma, .pgstealDma32, .pgstealHigh, .pgstealNormal, .pgstealDirectDma]

lemma findSlot_vmemTable : ∀ p ∈ vmemTable,
    findSlot vmemTable p.name = if p.slot ∈ lostFields then none else some p.slot := by
  decide +kernel

lemma length_name_lt : ∀ p ∈ vmemTable, p.name.length < namebufSize := by decide +kernel

lemma slots_nodup : (vmemTable.map (·.slot)).Nodup := by decide +kernel

lemma eq_of_slot_eq {p q : ProcTableStruct VmField} (hp : p ∈ vmemTable) (hq : q ∈ vmemTable)
    (h : p.slot = q.slot) : p = q :=
  List.inj_on_of_nodup_map slots_nodup hp hq h

/-- No name leads to a lost field. -/
lemma findSlot_ne_lost {field : VmField} (h : field ∈ lostFields) (name : CString) :
    findSlot vmemTable name ≠ some field := by
  intro hfound
  have hlost := findSlot_vmemTable _ (findSlot_eq_some hfound)
  rw [if_pos h, hfound] at hlost
  cases hlost

/-! ### What the steps behind the search may change -/

/-- Only members in `fields` have changed. -/
def ChangesOnly (fields : List VmField) (data data' : ProcVmemData) : Prop :=
  ∀ field ∉ fields, data' field = data field

namespace ChangesOnly

variable {fields : List VmField} {data data' data'' : ProcVmemData}

lemma refl (fields : List VmField) (data : ProcVmemData) : ChangesOnly fields data data :=
  fun _ _ => rfl

lemma trans (h : ChangesOnly fields data data') (h' : ChangesOnly fields data' data'') :
    ChangesOnly fields data data'' :=
  fun field hfield => (h' field hfield).trans (h field hfield)

lemma update {field : VmField} (hfield : field ∈ fields) (value : UInt64) :
    ChangesOnly fields data (Function.update data field value) := by
  intro field' hfield'
  refine Function.update_of_ne ?_ _ _
  rintro rfl
  exact hfield' hfield

lemma fillIfZero {field : VmField} (hfield : field ∈ fields) (sum : ProcVmemData → UInt64) :
    ChangesOnly fields data (fillIfZero field sum data) := by
  rw [NagiosPlugins.fillIfZero]
  split_ifs
  · exact update hfield _
  · exact refl _ _

lemma assignTwo {a b : VmField} (ha : a ∈ fields) (hb : b ∈ fields) (values : List UInt64) :
    ChangesOnly fields data (assignTwo a b values data) := by
  match values with
  | [] => exact refl _ _
  | [x] => exact update ha x
  | x :: y :: _ => exact (update ha x).trans (update hb y)

/-- A member that is still zero becomes the sum. -/
lemma fillIfZero_self (h : ChangesOnly fields data data') {field : VmField}
    (hfield : field ∉ fields) (hzero : data field = 0) (sum : ProcVmemData → UInt64) :
    NagiosPlugins.fillIfZero field sum data' field = sum data' := by
  have hzero' : data' field = 0 := (h field hfield).trans hzero
  rw [NagiosPlugins.fillIfZero, if_pos hzero', Function.update_self]

/-- The sum over the zones is still the same. -/
lemma forAllZones (h : ChangesOnly fields data data') {dma dma32 normal high : VmField}
    (hzones : ∀ zone ∈ [dma, dma32, normal, high], zone ∉ fields) :
    forAllZones dma dma32 normal high data' = forAllZones dma dma32 normal high data := by
  simp only [List.forall_mem_cons] at hzones
  obtain ⟨hdma, hdma32, hnormal, hhigh, -⟩ := hzones
  rw [NagiosPlugins.forAllZones, h dma hdma, h dma32 hdma32, h normal hnormal, h high hhigh,
    NagiosPlugins.forAllZones]

end ChangesOnly

def zoneSums : List VmField := [.pgalloc, .pgrefill, .pgscan, .pgsteal]

def pagesAndSwaps : List VmField := [.pgpgin, .pgpgout, .pswpin, .pswpout]

lemma fillZones_changesOnly (data : ProcVmemData) : ChangesOnly zoneSums data (fillZones data) := by
  rw [fillZones]
  refine ChangesOnly.trans ?_ (.fillIfZero (by decide) _)
  refine ChangesOnly.trans ?_ (.fillIfZero (by decide) _)
  refine ChangesOnly.trans ?_ (.fillIfZero (by decide) _)
  exact .fillIfZero (by decide) _

/-- Without a number of its own, `pgsteal` becomes the sum of the zones. -/
lemma fillZones_pgsteal {data : ProcVmemData} (h : data .pgsteal = 0) :
    fillZones data .pgsteal
      = forAllZones .pgstealDma .pgstealDma32 .pgstealNormal .pgstealHigh data := by
  have hbefore : ∃ data', ChangesOnly [.pgalloc, .pgrefill, .pgscan] data data' ∧
      fillZones data = fillIfZero .pgsteal
        (forAllZones .pgstealDma .pgstealDma32 .pgstealNormal .pgstealHigh) data' := by
    refine ⟨_, ?_, rfl⟩
    refine ChangesOnly.trans ?_ (.fillIfZero (by decide) _)
    refine ChangesOnly.trans ?_ (.fillIfZero (by decide) _)
    exact .fillIfZero (by decide) _
  obtain ⟨data', hchanges, heq⟩ := hbefore
  rw [heq, hchanges.fillIfZero_self (by decide) h]
  exact hchanges.forAllZones (by decide)

lemma statLine_changesOnly (line : CString) (foundPgpg foundPswp : Bool) (data : ProcVmemData) :
    ChangesOnly pagesAndSwaps data (statLine line foundPgpg foundPswp data).2.2 := by
  have hpages : ChangesOnly pagesAndSwaps data
      (assignTwo .pgpgin .pgpgout (sscanfTwo (ascii "page") line) data) :=
    .assignTwo (by decide) (by decide) _
  have hswaps : ∀ data, ChangesOnly pagesAndSwaps data
      (assignTwo .pswpin .pswpout (sscanfTwo (ascii "swap") line) data) :=
    fun data => .assignTwo (by decide) (by decide) _
  rw [statLine]
  simp only
  split_ifs
  · exact hpages
  · exact hpages.trans (hswaps _)
  · exact hpages.trans (hswaps _)

lemma statLoop_changesOnly (lines : List CString) (foundPgpg foundPswp : Bool)
    (data : ProcVmemData) :
    ChangesOnly pagesAndSwaps data (statLoop lines foundPgpg foundPswp data).2.2 := by
  induction lines generalizing foundPgpg foundPswp data with
  | nil => exact .refl _ _
  | cons line lines ih =>
    have hline := statLine_changesOnly line foundPgpg foundPswp data
    rw [statLoop]
    simp only
    split_ifs
    · exact hline
    · exact hline.trans (ih _ _ _)

lemma readProcStat_changesOnly (stat : Option (List UInt8)) (foundPgpg foundPswp : Bool)
    (data : ProcVmemData) :
    ChangesOnly pagesAndSwaps data (readProcStat stat foundPgpg foundPswp data) := by
  have hclear : ∀ {a b : VmField} (found : Bool) (data : ProcVmemData), a ∈ pagesAndSwaps →
      b ∈ pagesAndSwaps → ChangesOnly pagesAndSwaps data
        (if found then data else Function.update (Function.update data a 0) b 0) := by
    intro a b found data ha hb
    cases found with
    | true => exact .refl _ _
    | false => exact (ChangesOnly.update ha 0).trans (.update hb 0)
  simp only [readProcStat]
  cases stat with
  | none => exact (hclear _ _ (by decide) (by decide)).trans (hclear _ _ (by decide) (by decide))
  | some content =>
    apply (statLoop_changesOnly (getlines content) foundPgpg foundPswp data).trans
    exact (hclear _ _ (by decide) (by decide)).trans (hclear _ _ (by decide) (by decide))

/-- A read stores the rows, fills in the sums of the zones and then sees to `/proc/stat`. -/
lemma procVmemRead_eq_ok {files : ProcFiles} {content : List UInt8}
    (hvmstat : files.vmstat = some content) (data : ProcVmemData) :
    ∃ data', procVmemRead files data = .ok data' ∧ ChangesOnly pagesAndSwaps
      (fillZones ((rows ' ' content).foldl (storeRow vmemTable) (vmemReset data))) data' := by
  rw [procVmemRead, hvmstat, procparser_eq, Except.ok_bind]
  simp only
  split_ifs
  · exact ⟨_, rfl, .refl _ _⟩
  · exact ⟨_, rfl, readProcStat_changesOnly _ _ _ _⟩

/-! ### Any number of reads -/

/-- The states of an object after any number of reads. -/
inductive VmemReachable : ProcVmemData → Prop
  | new : VmemReachable procVmemNew
  | read {data data' : ProcVmemData} (files : ProcFiles) (h : VmemReachable data)
      (hread : procVmemRead files data = .ok data') : VmemReachable data'

/-- The members that post-processing may overwrite. -/
def overwritten : List VmField := zoneSums ++ pagesAndSwaps

/-- What is not overwritten comes from the rows or from the read before. -/
lemma procVmemRead_of_not_overwritten {files : ProcFiles} {content : List UInt8}
    (hvmstat : files.vmstat = some content) {data data' : ProcVmemData}
    (hread : procVmemRead files data = .ok data') {field : VmField}
    (hfield : field ∉ overwritten) :
    data' field = (rows ' ' content).foldl (storeRow vmemTable) (vmemReset data) field := by
  rw [overwritten, List.mem_append, not_or] at hfield
  obtain ⟨data'', hread', hchanges⟩ := procVmemRead_eq_ok hvmstat data
  rw [hread'] at hread
  cases hread
  rw [hchanges field hfield.2, fillZones_changesOnly _ field hfield.1]

lemma vmemReset_of_not_overwritten (data : ProcVmemData) {field : VmField}
    (hfield : field ∉ overwritten) : vmemReset data field = data field := by
  cases field <;> first | rfl | exact absurd (by decide) hfield

lemma lost_not_overwritten : ∀ field ∈ lostFields, field ∉ overwritten := by decide

/-- A lost field is never written. -/
lemma VmemReachable.lost {data : ProcVmemData} (h : VmemReachable data) :
    ∀ field ∈ lostFields, data field = 0 := by
  induction h with
  | new => exact fun _ _ => rfl
  | @read data data' files _ hread ih =>
    intro field hfield
    have hnot := lost_not_overwritten field hfield
    cases hvmstat : files.vmstat with
    | none =>
      rw [procVmemRead, hvmstat] at hread
      cases hread
    | some content =>
      rw [procVmemRead_of_not_overwritten hvmstat hread hnot,
        foldl_storeRow_of_forall_ne fun row _ => findSlot_ne_lost hfield row.1,
        vmemReset_of_not_overwritten data hnot, ih field hfield]

/-! ### The rows after a read -/

/-- The value in the row of a name, 0 if there is none. -/
def rowValue (content : List UInt8) (name : CString) : UInt64 :=
  (((rows ' ' content).find? fun row => row.1 = name).map Prod.snd).getD 0

/-- Every row of the table whose member is not overwritten has been stored, and without a row
`pgsteal` its value is the sum of the zones. -/
def RowsStored (content : List UInt8) (data : ProcVmemData) : Prop :=
  (∀ p ∈ vmemTable, p.slot ∉ overwritten → ∀ value, (p.name, value) ∈ rows ' ' content →
    data p.slot = value) ∧
  (ascii "pgsteal" ∉ (rows ' ' content).map Prod.fst →
    procVmemGetPgsteal (some data) = rowValue content (ascii "pgsteal_dma")
      + rowValue content (ascii "pgsteal_dma32") + rowValue content (ascii "pgsteal_normal")
      + rowValue content (ascii "pgsteal_high"))

/-- The names that the binary search misses. -/
def lostNames : List CString :=
  [ascii "pgsteal_dma", ascii "pgsteal_dma32", ascii "pgsteal_high", ascii "pgsteal_normal",
    ascii "pgsteal_direct_dma"]

lemma mem_lostNames_iff : ∀ p ∈ vmemTable, p.name ∈ lostNames ↔ p.slot ∈ lostFields := by
  decide +kernel

lemma lostNames_subset : lostNames ⊆ vmemTable.map (·.name) := by decide +kernel

lemma rowValue_eq_zero {content : List UInt8} {name : CString}
    (h : ∀ value, (name, value) ∈ rows ' ' content → value = 0) : rowValue content name = 0 := by
  rw [rowValue]
  cases hfind : (rows ' ' content).find? fun row => row.1 = name with
  | none => rfl
  | some row =>
    obtain ⟨name', value⟩ := row
    have hname : name' = name := by simpa using List.find?_some hfind
    exact h value (hname ▸ List.mem_of_find?_eq_some hfind)

section Read

variable {files : ProcFiles} {content : List UInt8} {data data' : ProcVmemData}

/-- A row is stored, unless its name is lost. -/
lemma procVmemRead_row (hvmstat : files.vmstat = some content)
    (hread : procVmemRead files data = .ok data')
    (hnodup : ((rows ' ' content).map Prod.fst).Nodup) {p : ProcTableStruct VmField}
    (hp : p ∈ vmemTable) (hnot : p.slot ∉ overwritten) (hslot : p.slot ∉ lostFields)
    {value : UInt64} (hvalue : (p.name, value) ∈ rows ' ' content) : data' p.slot = value := by
  have hfound : findSlot vmemTable p.name = some p.slot := by
    rw [findSlot_vmemTable p hp, if_neg hslot]
  rw [procVmemRead_of_not_overwritten hvmstat hread hnot]
  refine foldl_storeRow_of_mem hnodup hvalue (length_name_lt p hp) hfound ?_ _
  intro name' hname'
  exact congrArg (·.name) (eq_of_slot_eq (findSlot_eq_some hname') hp rfl)

/-- Without a row `pgsteal` there is no sum of the zones either, as those are lost. -/
lemma procVmemRead_pgsteal (hvmstat : files.vmstat = some content)
    (hread : procVmemRead files data = .ok data')
    (hpgsteal : ascii "pgsteal" ∉ (rows ' ' content).map Prod.fst)
    (hlost : ∀ field ∈ lostFields, data' field = 0) : procVmemGetPgsteal (some data') = 0 := by
  have hmem : (⟨ascii "pgsteal", .pgsteal⟩ : ProcTableStruct VmField) ∈ vmemTable := by
    decide +kernel
  have hrows : (rows ' ' content).foldl (storeRow vmemTable) (vmemReset data) .pgsteal = 0 := by
    refine foldl_storeRow_of_forall_ne ?_ _
    intro row hrow hfound
    have hname : row.1 = ascii "pgsteal" :=
      congrArg (·.name) (eq_of_slot_eq (findSlot_eq_some hfound) hmem rfl)
    exact hpgsteal (hname ▸ List.mem_map_of_mem hrow)
  have hslot : ∀ field ∈ lostFields,
      (rows ' ' content).foldl (storeRow vmemTable) (vmemReset data) field = 0 := by
    intro field hfield
    rw [← procVmemRead_of_not_overwritten hvmstat hread (lost_not_overwritten field hfield)]
    exact hlost field hfield
  obtain ⟨data'', hread', hchanges⟩ := procVmemRead_eq_ok hvmstat data
  rw [hread] at hread'
  cases hread'
  rw [procVmemGetPgsteal, hchanges .pgsteal (by decide), fillZones_pgsteal hrows, forAllZones,
    hslot .pgstealDma (by decide), hslot .pgstealDma32 (by decide),
    hslot .pgstealNormal (by decide), hslot .pgstealHigh (by decide)]
  rfl

end Read

/-- The rows are stored exactly if every row with a lost name has the value 0. -/
theorem rowsStored_iff {data : ProcVmemData} (h : VmemReachable data) (files : ProcFiles)
    {content : List UInt8} (hvmstat : files.vmstat = some content)
    (hnodup : ((rows ' ' content).map Prod.fst).Nodup) :
    ∃ data', procVmemRead files data = .ok data' ∧ (RowsStored content data' ↔
      ∀ name ∈ lostNames, ∀ value, (name, value) ∈ rows ' ' content → value = 0) := by
  obtain ⟨data', hread, -⟩ := procVmemRead_eq_ok hvmstat data
  have hlost : ∀ field ∈ lostFields, data' field = 0 := (VmemReachable.read files h hread).lost
  refine ⟨data', hread, ?_⟩
  constructor
  · rintro ⟨hstored, -⟩ name hname value hvalue
    obtain ⟨p, hp, rfl⟩ := List.mem_map.1 (lostNames_subset hname)
    have hslot := (mem_lostNames_iff p hp).1 hname
    rw [← hstored p hp (lost_not_overwritten _ hslot) value hvalue]
    exact hlost _ hslot
  · intro hzero
    constructor
    · intro p hp hnot value hvalue
      by_cases hslot : p.slot ∈ lostFields
      · rw [hlost _ hslot, hzero p.name ((mem_lostNames_iff p hp).2 hslot) value hvalue]
      · exact procVmemRead_row hvmstat hread hnodup hp hnot hslot hvalue
    · intro hpgsteal
      rw [procVmemRead_pgsteal hvmstat hread hpgsteal hlost,
        rowValue_eq_zero (hzero _ (by decide)), rowValue_eq_zero (hzero _ (by decide)),
        rowValue_eq_zero (hzero _ (by decide)), rowValue_eq_zero (hzero _ (by decide))]
      rfl

/-- A file with a single row. -/
def stealFiles : ProcFiles where
  envProcvmstat := none
  vmstat := some (ascii "pgsteal_dma 5\n")
  stat := none

/-- The row is not found: its member and the sum of the zones stay 0. -/
theorem stealFiles_not_stored :
    rows ' ' (ascii "pgsteal_dma 5\n") = [(ascii "pgsteal_dma", 5)] ∧
      ∃ data', procVmemRead stealFiles procVmemNew = .ok data' ∧
        procVmemGetPgsteal (some data') = 0 ∧
        ¬ RowsStored (ascii "pgsteal_dma 5\n") data' := by
  have hrows : rows ' ' (ascii "pgsteal_dma 5\n") = [(ascii "pgsteal_dma", 5)] := by
    decide +kernel
  refine ⟨hrows, _, rfl, by decide +kernel, ?_⟩
  rintro ⟨hstored, -⟩
  have hrow := hstored ⟨ascii "pgsteal_dma", .pgstealDma⟩ (by decide +kernel) (by decide) 5
    (by rw [hrows]; exact List.mem_singleton_self _)
  exact absurd hrow (by decide +kernel)

/-- A file without a lost name. -/
def faultFiles : ProcFiles where
  envProcvmstat := none
  vmstat := some (ascii "pgfault 7\npgsteal_direct_high 2\n")
  stat := none

theorem rowsStored_faultFiles :
    ∃ data', procVmemRead faultFiles procVmemNew = .ok data' ∧
      RowsStored (ascii "pgfault 7\npgsteal_direct_high 2\n") data' := by
  have hrows : rows ' ' (ascii "pgfault 7\npgsteal_direct_high 2\n")
      = [(ascii "pgfault", 7), (ascii "pgsteal_direct_high", 2)] := by
    decide +kernel
  have hlost : ∀ name ∈ lostNames, ∀ value, (name, value) ∈ rows ' '
      (ascii "pgfault 7\npgsteal_direct_high 2\n") → value = 0 := by
    intro name hname value hvalue
    have hnames : ∀ row ∈ [(ascii "pgfault", (7 : UInt64)), (ascii "pgsteal_direct_high", 2)],
        row.1 ∉ lostNames := by decide +kernel
    rw [hrows] at hvalue
    exact absurd hname (hnames _ hvalue)
  obtain ⟨data', hread, hiff⟩ := rowsStored_iff .new faultFiles rfl (by rw [hrows]; decide +kernel)
  exact ⟨data', hread, hiff.2 hlost⟩

end NagiosPlugins
