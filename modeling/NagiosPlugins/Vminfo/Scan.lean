import NagiosPlugins.Vminfo.Properties

/-!
# Scanned pages

The pages scanned directly and by kswapd. Their zones `dma32` are part of `pgscan`, and of neither
of the two counters.
-/

namespace NagiosPlugins

open Libc

/-- `proc_vmem_get_pgscan`; the object may be NULL. -/
def procVmemGetPgscan (p : Option ProcVmemData) : UInt64 :=
  match p with
  | none => 0
  | some data => data .pgscan

def procVmemGetPgscand (vmem : Option ProcVmemData) : UInt64 :=
  match vmem with
  | none => 0
  | some data => data .pgscanDirectDma + data .pgscanDirectHigh + data .pgscanDirectNormal

def procVmemGetPgscank (vmem : Option ProcVmemData) : UInt64 :=
  match vmem with
  | none => 0
  | some data => data .pgscanKswapdDma + data .pgscanKswapdHigh + data .pgscanKswapdNormal

/-! ### The rows of a member -/

/-- A member holds the value of the last row with its name, unless the search misses the name. -/
lemma foldl_storeRow_vmemTable {p : ProcTableStruct VmField} (hp : p ∈ vmemTable)
    (hlost : p.slot ∉ lostFields) (rs : List (CString × UInt64)) (data : ProcVmemData) :
    rs.foldl (storeRow vmemTable) data p.slot = (lastRow? rs p.name).getD (data p.slot) := by
  have hfound : findSlot vmemTable p.name = some p.slot := by
    rw [findSlot_vmemTable p hp, if_neg hlost]
  refine foldl_storeRow_eq_lastRow? (length_name_lt p hp) hfound (fun name' hname' => ?_) rs data
  exact congrArg (·.name) (eq_of_slot_eq (findSlot_eq_some hname') hp rfl)

/-- Without a number of its own, `pgscan` becomes the sum of the zones. -/
lemma fillZones_pgscan {data : ProcVmemData} (h : data .pgscan = 0) :
    fillZones data .pgscan
      = forAllZones .pgscanDirectDma .pgscanDirectDma32 .pgscanDirectNormal .pgscanDirectHigh data
        + forAllZones .pgscanKswapdDma .pgscanKswapdDma32 .pgscanKswapdNormal .pgscanKswapdHigh
            data := by
  have hbefore : ∃ data', ChangesOnly [.pgalloc, .pgrefill] data data' ∧
      ChangesOnly [.pgsteal] (fillIfZero .pgscan (fun data =>
        forAllZones .pgscanDirectDma .pgscanDirectDma32 .pgscanDirectNormal .pgscanDirectHigh data
          + forAllZones .pgscanKswapdDma .pgscanKswapdDma32 .pgscanKswapdNormal .pgscanKswapdHigh
              data) data') (fillZones data) := by
    refine ⟨_, ?_, .fillIfZero (by decide) _⟩
    refine ChangesOnly.trans ?_ (.fillIfZero (by decide) _)
    exact .fillIfZero (by decide) _
  obtain ⟨data', hchanges, hbehind⟩ := hbefore
  rw [hbehind .pgscan (by decide), hchanges.fillIfZero_self (by decide) h,
    hchanges.forAllZones (by decide), hchanges.forAllZones (by decide)]

/-! ### The counters -/

/-- The counter of scanned pages is the sum of the direct and the kswapd one. -/
def ScansAddUp (vmem : Option ProcVmemData) : Prop :=
  procVmemGetPgscan vmem = procVmemGetPgscand vmem + procVmemGetPgscank vmem

instance (vmem : Option ProcVmemData) : Decidable (ScansAddUp vmem) :=
  inferInstanceAs (Decidable (_ = _))

/-- Without a number of its own, `pgscan` exceeds the two counters by the zones `dma32`. -/
lemma procVmemRead_pgscan {files : ProcFiles} {content : List UInt8}
    (hvmstat : files.vmstat = some content)
    (hpgscan : ∀ value, (ascii "pgscan", value) ∈ rows ' ' content → value = 0)
    (data : ProcVmemData) :
    ∃ data', procVmemRead files data = .ok data' ∧
      procVmemGetPgscan (some data') = procVmemGetPgscand (some data')
        + procVmemGetPgscank (some data')
        + (data' .pgscanDirectDma32 + data' .pgscanKswapdDma32) := by
  obtain ⟨data', hread, hchanges⟩ := procVmemRead_eq_ok hvmstat data
  refine ⟨data', hread, ?_⟩
  have hmem : (⟨ascii "pgscan", .pgscan⟩ : ProcTableStruct VmField) ∈ vmemTable := by
    decide +kernel
  have hzero : (rows ' ' content).foldl (storeRow vmemTable) (vmemReset data) .pgscan = 0 := by
    rw [foldl_storeRow_vmemTable hmem (by decide)]
    cases hlast : lastRow? (rows ' ' content) (ascii "pgscan") with
    | none => rfl
    | some value => exact hpgscan value (mem_of_lastRow?_eq_some hlast)
  have hslot : ∀ field ∉ overwritten, (rows ' ' content).foldl (storeRow vmemTable)
      (vmemReset data) field = data' field :=
    fun field hfield => (procVmemRead_of_not_overwritten hvmstat hread hfield).symm
  rw [procVmemGetPgscan, hchanges .pgscan (by decide), fillZones_pgscan hzero]
  simp only [forAllZones, hslot .pgscanDirectDma (by decide),
    hslot .pgscanDirectDma32 (by decide), hslot .pgscanDirectNormal (by decide),
    hslot .pgscanDirectHigh (by decide), hslot .pgscanKswapdDma (by decide),
    hslot .pgscanKswapdDma32 (by decide), hslot .pgscanKswapdNormal (by decide),
    hslot .pgscanKswapdHigh (by decide), procVmemGetPgscand, procVmemGetPgscank]
  ac_rfl

/-- The pages scanned in the zone `dma32`: what the last row says, or what was known before. -/
def scannedDma32 (content : List UInt8) (data : ProcVmemData) : UInt64 :=
  (lastRow? (rows ' ' content) (ascii "pgscan_direct_dma32")).getD (data .pgscanDirectDma32)
    + (lastRow? (rows ' ' content) (ascii "pgscan_kswapd_dma32")).getD (data .pgscanKswapdDma32)

lemma scannedDma32_eq {files : ProcFiles} {content : List UInt8}
    (hvmstat : files.vmstat = some content) {data data' : ProcVmemData}
    (hread : procVmemRead files data = .ok data') :
    data' .pgscanDirectDma32 + data' .pgscanKswapdDma32 = scannedDma32 content data := by
  have hdirect : (⟨ascii "pgscan_direct_dma32", .pgscanDirectDma32⟩ : ProcTableStruct VmField)
      ∈ vmemTable := by decide +kernel
  have hkswapd : (⟨ascii "pgscan_kswapd_dma32", .pgscanKswapdDma32⟩ : ProcTableStruct VmField)
      ∈ vmemTable := by decide +kernel
  rw [procVmemRead_of_not_overwritten hvmstat hread (by decide),
    procVmemRead_of_not_overwritten hvmstat hread (by decide),
    foldl_storeRow_vmemTable hdirect (by decide), foldl_storeRow_vmemTable hkswapd (by decide)]
  rfl

/-- The counters add up exactly if nothing was scanned in the zone `dma32`. -/
theorem scansAddUp_iff (files : ProcFiles) {content : List UInt8}
    (hvmstat : files.vmstat = some content)
    (hpgscan : ∀ value, (ascii "pgscan", value) ∈ rows ' ' content → value = 0)
    (data : ProcVmemData) :
    ∃ data', procVmemRead files data = .ok data' ∧
      (ScansAddUp (some data') ↔ scannedDma32 content data = 0) := by
  obtain ⟨data', hread, hsum⟩ := procVmemRead_pgscan hvmstat hpgscan data
  refine ⟨data', hread, ?_⟩
  rw [← scannedDma32_eq hvmstat hread, ScansAddUp, hsum]
  exact UInt64.add_eq_left

/-- Pages scanned directly, in two zones. -/
def scanRows : List UInt8 := ascii "pgscan_direct_dma32 5\npgscan_direct_normal 7\n"

def scanFiles : ProcFiles where
  envProcvmstat := none
  vmstat := some scanRows
  stat := none

lemma pgscan_scanRows : ∀ value, (ascii "pgscan", value) ∈ rows ' ' scanRows → value = 0 := by
  have hnames : ∀ row ∈ rows ' ' scanRows, row.1 ≠ ascii "pgscan" := by decide +kernel
  exact fun value hvalue => absurd rfl (hnames _ hvalue)

theorem scansAddUp_scanFiles :
    ∃ data', procVmemRead scanFiles procVmemNew = .ok data' ∧
      (ScansAddUp (some data') ↔ scannedDma32 scanRows procVmemNew = 0) :=
  scansAddUp_iff scanFiles rfl pgscan_scanRows procVmemNew

/-- The pages of the zone `dma32` are missing in the sum. -/
theorem scanFiles_not_scansAddUp :
    (∀ value, (ascii "pgscan", value) ∈ rows ' ' scanRows → value = 0) ∧
      ∃ data', procVmemRead scanFiles procVmemNew = .ok data' ∧ ¬ ScansAddUp (some data') :=
  ⟨pgscan_scanRows, _, rfl, by decide +kernel⟩

end NagiosPlugins
