import NagiosPlugins.Perfdata.Basic
import NagiosPlugins.Procparser
import NagiosPlugins.Sysfs.Basic

/-!
# Memory statistics

The part of `lib/meminfo.c` that reads `/proc/meminfo`, and the percentages that `check_memory`
and `check_swap` compare with their thresholds.
-/

namespace NagiosPlugins

open Libc

/-- The members of `proc_sysmem_data_t`, without their prefix `kb_`. -/
inductive MemField where
  | mainBuffers
  | pageCache
  | mainFree
  | mainTotal
  | swapFree
  | swapTotal
  | mainShared
  | highTotal
  | lowFree
  | lowTotal
  | active
  | inactLaundry
  | inactDirty
  | inactClean
  | swapCached
  | slab
  | committedAs
  | dirty
  | inactive
  | slabReclaimable
  | anonPages
  | activeFile
  | inactiveFile
  | mainAvailable
  | mainCached
  | mainUsed
  deriving DecidableEq, Repr

abbrev ProcSysmemData := MemField → UInt64

/-- `proc_sysmem_new`: the memory of a new object is zero. -/
def procSysmemNew : ProcSysmemData := fun _ => 0

/-- `sysmem_table`. -/
def sysmemTable : List (ProcTableStruct MemField) := [
  ⟨ascii "Active", .active⟩,
  ⟨ascii "Active(file)", .activeFile⟩,
  ⟨ascii "AnonPages", .anonPages⟩,
  ⟨ascii "Buffers", .mainBuffers⟩,
  ⟨ascii "Cached", .pageCache⟩,
  ⟨ascii "Committed_AS", .committedAs⟩,
  ⟨ascii "Dirty", .dirty⟩,
  ⟨ascii "HighTotal", .highTotal⟩,
  ⟨ascii "Inact_clean", .inactClean⟩,
  ⟨ascii "Inact_dirty", .inactDirty⟩,
  ⟨ascii "Inact_laundry", .inactLaundry⟩,
  ⟨ascii "Inactive", .inactive⟩,
  ⟨ascii "Inactive(file)", .inactiveFile⟩,
  ⟨ascii "LowFree", .lowFree⟩,
  ⟨ascii "LowTotal", .lowTotal⟩,
  ⟨ascii "MemAvailable", .mainAvailable⟩,
  ⟨ascii "MemFree", .mainFree⟩,
  ⟨ascii "MemTotal", .mainTotal⟩,
  ⟨ascii "SReclaimable", .slabReclaimable⟩,
  ⟨ascii "Shmem", .mainShared⟩,
  ⟨ascii "Slab", .slab⟩,
  ⟨ascii "SwapCached", .swapCached⟩,
  ⟨ascii "SwapFree", .swapFree⟩,
  ⟨ascii "SwapTotal", .swapTotal⟩]

/-- What a read depends on: `/proc/meminfo`, unless it cannot be opened, the value of
`NPL_TEST_PATH_PROCMEMINFO`, what `linux_version` returns, and the other files. -/
structure MemFiles where
  envProcmeminfo : Option String
  meminfo : Option (List UInt8)
  linuxVersion : Except Stop UInt32
  sysfs : Sysfs

def getPathProcMeminfo (files : MemFiles) : String := files.envProcmeminfo.getD "/proc/meminfo"

/-- `MEMINFO_UNSET`, which is `~0UL`. -/
def meminfoUnset : UInt64 := -1

/-- `KERNEL_VERSION (a, b, c)`. -/
def kernelVersion (a b c : UInt32) : UInt32 := (a <<< 16) + (b <<< 8) + c

def pathVmMinFreeKb : CString := ascii "/proc/sys/vm/min_free_kbytes"

/-- The state before the rows are stored. -/
def sysmemReset (data : ProcSysmemData) : ProcSysmemData
  | .inactive | .lowTotal | .mainAvailable => meminfoUnset
  | field => data field

/-- `if (!data->kb_low_total)`: low is main, except with large-memory support. -/
def fillLow (data : ProcSysmemData) : ProcSysmemData :=
  if data .lowTotal = 0 then
    Function.update (Function.update data .lowTotal (data .mainTotal)) .lowFree (data .mainFree)
  else data

def fillInactive (data : ProcSysmemData) : ProcSysmemData :=
  if data .inactive = meminfoUnset then
    Function.update data .inactive (data .inactDirty + data .inactClean + data .inactLaundry)
  else data

/-- `mem_available`, which is computed with unsigned operands and kept in a `signed long`. -/
def memAvailable (data : ProcSysmemData) (watermarkLow : UInt64) : Int64 :=
  (data .mainFree - watermarkLow + data .inactiveFile + data .activeFile
    - min ((data .inactiveFile + data .activeFile) / 2) watermarkLow + data .slabReclaimable
    - min (data .slabReclaimable / 2) watermarkLow).toInt64

/-- The fall-back for kernels without `MemAvailable`; `kbMinFree` is what the variable holds before
it is set. -/
def fillAvailable (files : MemFiles) (kbMinFree : UInt64) (data : ProcSysmemData) :
    Except Stop ProcSysmemData := do
  if data .mainAvailable = meminfoUnset then
    let version ← files.linuxVersion
    if version < kernelVersion 2 6 27 then
      return Function.update data .mainAvailable (data .mainFree)
    else
      let (_, kbMinFree) ← sysfsparserGetvalue files.sysfs kbMinFree pathVmMinFreeKb
      let watermarkLow := kbMinFree * 5 / 4
      let available := memAvailable data watermarkLow
      let available := if available < 0 then 0 else available
      return Function.update data .mainAvailable available.toUInt64
  else return data

/-- The derived values. -/
def fillDerived (data : ProcSysmemData) : ProcSysmemData :=
  let data := Function.update data .mainCached (data .pageCache + data .slabReclaimable)
  Function.update data .mainUsed
    (data .mainTotal - data .mainFree - data .mainCached - data .mainBuffers)

/-- `proc_sysmem_read` on an object that is not NULL. -/
def procSysmemRead (files : MemFiles) (kbMinFree : UInt64) (data : ProcSysmemData) :
    Except Stop ProcSysmemData := do
  let data ← procparser (getPathProcMeminfo files) files.meminfo sysmemTable ':' (sysmemReset data)
  let data ← fillAvailable files kbMinFree (fillInactive (fillLow data))
  return fillDerived data

/-! ### The members as others see them -/

/-- `proc_sysmem_get`; the object may be NULL. -/
def procSysmemGet (field : MemField) (p : Option ProcSysmemData) : UInt64 :=
  match p with
  | none => 0
  | some data => data field

def procSysmemGetMainAvailable := procSysmemGet .mainAvailable

def procSysmemGetMainTotal := procSysmemGet .mainTotal

def procSysmemGetMainUsed := procSysmemGet .mainUsed

def procSysmemGetSwapTotal := procSysmemGet .swapTotal

def procSysmemGetSwapUsed (sysmem : Option ProcSysmemData) : UInt64 :=
  match sysmem with
  | none => 0
  | some data => data .swapTotal - data .swapFree

/-- What `check_memory` compares with its thresholds; `available` is the option `-a`. -/
def checkMemoryPercent (available : Bool) (sysmem : Option ProcSysmemData) : Double :=
  let kbMemMonitored :=
    if available then procSysmemGetMainAvailable sysmem else procSysmemGetMainUsed sysmem
  memPercent kbMemMonitored (procSysmemGetMainTotal sysmem)

/-- `percent_used`, which `check_swap` compares with its thresholds. It is computed like
`mem_percent`. -/
def checkSwapPercent (sysmem : Option ProcSysmemData) : Double :=
  memPercent (procSysmemGetSwapUsed sysmem) (procSysmemGetSwapTotal sysmem)

end NagiosPlugins
