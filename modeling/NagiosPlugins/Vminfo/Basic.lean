import NagiosPlugins.Procparser

/-!
# Virtual memory statistics

The part of `lib/vminfo.c` that reads `/proc/vmstat`.
-/

namespace NagiosPlugins

open Libc

/-- The members of `proc_vmem_data_t`, without their prefix `vm_`. -/
inductive VmField where
  | nrDirty
  | nrWriteback
  | nrPagecache
  | nrPageTablePages
  | nrReverseMaps
  | nrMapped
  | nrSlab
  | pgpgin
  | pgpgout
  | pswpin
  | pswpout
  | pgalloc
  | pgfree
  | pgactivate
  | pgdeactivate
  | pgfault
  | pgmajfault
  | pgscan
  | pgrefill
  | pgsteal
  | kswapdSteal
  | pageoutrun
  | allocstall
  | pgrotated
  | pgallocDma
  | pgallocDma32
  | pgallocHigh
  | pgallocNormal
  | pgrefillDma
  | pgrefillDma32
  | pgrefillHigh
  | pgrefillNormal
  | pgscanDirectDma
  | pgscanDirectDma32
  | pgscanDirectHigh
  | pgscanDirectNormal
  | pgscanKswapdDma
  | pgscanKswapdDma32
  | pgscanKswapdHigh
  | pgscanKswapdNormal
  | pgstealDma
  | pgstealDma32
  | pgstealHigh
  | pgstealNormal
  | pgstealDirectDma
  | pgstealDirectDma32
  | pgstealDirectHigh
  | pgstealDirectNormal
  | kswapdInodesteal
  | nrUnstable
  | pginodesteal
  | slabsScanned
  deriving DecidableEq, Repr

abbrev ProcVmemData := VmField → UInt64

/-- `proc_vmem_new`: the memory of a new object is zero. -/
def procVmemNew : ProcVmemData := fun _ => 0

/-- `vmem_table`. -/
def vmemTable : List (ProcTableStruct VmField) := [
  ⟨ascii "allocstall", .allocstall⟩,
  ⟨ascii "kswapd_inodesteal", .kswapdInodesteal⟩,
  ⟨ascii "kswapd_steal", .kswapdSteal⟩,
  ⟨ascii "nr_dirty", .nrDirty⟩,
  ⟨ascii "nr_mapped", .nrMapped⟩,
  ⟨ascii "nr_page_table_pages", .nrPageTablePages⟩,
  ⟨ascii "nr_pagecache", .nrPagecache⟩,
  ⟨ascii "nr_reverse_maps", .nrReverseMaps⟩,
  ⟨ascii "nr_slab", .nrSlab⟩,
  ⟨ascii "nr_unstable", .nrUnstable⟩,
  ⟨ascii "nr_writeback", .nrWriteback⟩,
  ⟨ascii "pageoutrun", .pageoutrun⟩,
  ⟨ascii "pgactivate", .pgactivate⟩,
  ⟨ascii "pgalloc", .pgalloc⟩,
  ⟨ascii "pgalloc_dma", .pgallocDma⟩,
  ⟨ascii "pgalloc_dma32", .pgallocDma32⟩,
  ⟨ascii "pgalloc_high", .pgallocHigh⟩,
  ⟨ascii "pgalloc_normal", .pgallocNormal⟩,
  ⟨ascii "pgdeactivate", .pgdeactivate⟩,
  ⟨ascii "pgfault", .pgfault⟩,
  ⟨ascii "pgfree", .pgfree⟩,
  ⟨ascii "pginodesteal", .pginodesteal⟩,
  ⟨ascii "pgmajfault", .pgmajfault⟩,
  ⟨ascii "pgpgin", .pgpgin⟩,
  ⟨ascii "pgpgout", .pgpgout⟩,
  ⟨ascii "pgrefill", .pgrefill⟩,
  ⟨ascii "pgrefill_dma", .pgrefillDma⟩,
  ⟨ascii "pgrefill_dma32", .pgrefillDma32⟩,
  ⟨ascii "pgrefill_high", .pgrefillHigh⟩,
  ⟨ascii "pgrefill_normal", .pgrefillNormal⟩,
  ⟨ascii "pgrotated", .pgrotated⟩,
  ⟨ascii "pgscan", .pgscan⟩,
  ⟨ascii "pgscan_direct_dma", .pgscanDirectDma⟩,
  ⟨ascii "pgscan_direct_dma32", .pgscanDirectDma32⟩,
  ⟨ascii "pgscan_direct_high", .pgscanDirectHigh⟩,
  ⟨ascii "pgscan_direct_normal", .pgscanDirectNormal⟩,
  ⟨ascii "pgscan_kswapd_dma", .pgscanKswapdDma⟩,
  ⟨ascii "pgscan_kswapd_dma32", .pgscanKswapdDma32⟩,
  ⟨ascii "pgscan_kswapd_high", .pgscanKswapdHigh⟩,
  ⟨ascii "pgscan_kswapd_normal", .pgscanKswapdNormal⟩,
  ⟨ascii "pgsteal", .pgsteal⟩,
  ⟨ascii "pgsteal_dma", .pgstealDma⟩,
  ⟨ascii "pgsteal_dma32", .pgstealDma32⟩,
  ⟨ascii "pgsteal_high", .pgstealHigh⟩,
  ⟨ascii "pgsteal_normal", .pgstealNormal⟩,
  ⟨ascii "pgsteal_direct_dma", .pgstealDirectDma⟩,
  ⟨ascii "pgsteal_direct_dma32", .pgstealDirectDma32⟩,
  ⟨ascii "pgsteal_direct_high", .pgstealDirectHigh⟩,
  ⟨ascii "pgsteal_direct_normal", .pgstealDirectNormal⟩,
  ⟨ascii "pswpin", .pswpin⟩,
  ⟨ascii "pswpout", .pswpout⟩,
  ⟨ascii "slabs_scanned", .slabsScanned⟩]

/-- The files that are read, unless they cannot be opened, and the value of
`NPL_TEST_PATH_PROCVMSTAT`. -/
structure ProcFiles where
  envProcvmstat : Option String
  vmstat : Option (List UInt8)
  stat : Option (List UInt8)

def getPathProcVmstat (files : ProcFiles) : String := files.envProcvmstat.getD "/proc/vmstat"

/-- The state before the rows are stored. -/
def vmemReset (data : ProcVmemData) : ProcVmemData
  | .pgalloc | .pgrefill | .pgscan | .pgsteal => 0
  | .pgpgin | .pgpgout | .pswpin | .pswpout => -1
  | field => data field

/-- `if (!data->vm_x) data->vm_x = sum`. -/
def fillIfZero (field : VmField) (sum : ProcVmemData → UInt64) (data : ProcVmemData) :
    ProcVmemData :=
  if data field = 0 then Function.update data field (sum data) else data

/-- `FOR_ALL_ZONES`. -/
def forAllZones (dma dma32 normal high : VmField) (data : ProcVmemData) : UInt64 :=
  data dma + data dma32 + data normal + data high

def fillZones (data : ProcVmemData) : ProcVmemData :=
  let data := fillIfZero .pgalloc
    (forAllZones .pgallocDma .pgallocDma32 .pgallocNormal .pgallocHigh) data
  let data := fillIfZero .pgrefill
    (forAllZones .pgrefillDma .pgrefillDma32 .pgrefillNormal .pgrefillHigh) data
  let data := fillIfZero .pgscan (fun data =>
    forAllZones .pgscanDirectDma .pgscanDirectDma32 .pgscanDirectNormal .pgscanDirectHigh data
      + forAllZones .pgscanKswapdDma .pgscanKswapdDma32 .pgscanKswapdNormal .pgscanKswapdHigh
        data) data
  fillIfZero .pgsteal
    (forAllZones .pgstealDma .pgstealDma32 .pgstealNormal .pgstealHigh) data

/-- The values that `sscanf` assigns to two members. -/
def assignTwo (a b : VmField) (values : List UInt64) (data : ProcVmemData) : ProcVmemData :=
  match values with
  | [] => data
  | [x] => Function.update data a x
  | x :: y :: _ => Function.update (Function.update data a x) b y

/-- What one line of `/proc/stat` does to `found_pgpg_data`, `found_pswp_data` and the data. -/
def statLine (line : CString) (foundPgpg foundPswp : Bool) (data : ProcVmemData) :
    Bool × Bool × ProcVmemData :=
  let pages := sscanfTwo (ascii "page") line
  let data := assignTwo .pgpgin .pgpgout pages data
  if pages.length = 2 then (true, foundPswp, data)
  else
    let swaps := sscanfTwo (ascii "swap") line
    let data := assignTwo .pswpin .pswpout swaps data
    if swaps.length = 2 then (foundPgpg, true, data) else (foundPgpg, foundPswp, data)

/-- The loop over the lines of `/proc/stat`. -/
def statLoop : List CString → Bool → Bool → ProcVmemData → Bool × Bool × ProcVmemData
  | [], foundPgpg, foundPswp, data => (foundPgpg, foundPswp, data)
  | line :: lines, foundPgpg, foundPswp, data =>
    let (foundPgpg, foundPswp, data) := statLine line foundPgpg foundPswp data
    if foundPgpg && foundPswp then (foundPgpg, foundPswp, data)
    else statLoop lines foundPgpg foundPswp data

/-- Linux kernels before 2.5.40-bk4: paging and swapping are counted in `/proc/stat`. -/
def readProcStat (stat : Option (List UInt8)) (foundPgpg foundPswp : Bool)
    (data : ProcVmemData) : ProcVmemData :=
  let (foundPgpg, foundPswp, data) :=
    match stat with
    | none => (foundPgpg, foundPswp, data)
    | some content => statLoop (getlines content) foundPgpg foundPswp data
  let data := if foundPgpg then data else
    Function.update (Function.update data .pgpgout 0) .pgpgin 0
  if foundPswp then data else
    Function.update (Function.update data .pswpout 0) .pswpin 0

/-- `proc_vmem_read` on an object that is not NULL. -/
def procVmemRead (files : ProcFiles) (data : ProcVmemData) : Except Stop ProcVmemData := do
  let data ← procparser (getPathProcVmstat files) files.vmstat vmemTable ' ' (vmemReset data)
  let data := fillZones data
  if data .pgpgin ≠ -1 ∧ data .pswpin ≠ -1 then return data
  else
    let foundPgpgData : Bool := data .pgpgin ≠ -1
    let foundPswpData : Bool := data .pgpgin = -1 ∧ data .pswpin ≠ -1
    return readProcStat files.stat foundPgpgData foundPswpData data

/-- `proc_vmem_get_pgsteal`; the object may be NULL. -/
def procVmemGetPgsteal (p : Option ProcVmemData) : UInt64 :=
  match p with
  | none => 0
  | some data => data .pgsteal

end NagiosPlugins
