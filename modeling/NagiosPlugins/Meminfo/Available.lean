import NagiosPlugins.Meminfo.Rows
import NagiosPlugins.Sysfs.Lines

/-!
# Available memory

Without a row `MemAvailable`, the available memory is estimated as the kernel does it. The sum is
taken modulo 2 ^ 64 and read as a signed number, which is the sum over the integers as long as the
quantities are of a sensible size.
-/

namespace NagiosPlugins

open Libc

/-- The quantities that the estimate depends on, in kB. -/
structure MemQuantities where
  free : UInt64
  inactiveFile : UInt64
  activeFile : UInt64
  reclaimable : UInt64
  minFree : UInt64

namespace MemQuantities

variable (q : MemQuantities)

def pageCache : ℤ := q.inactiveFile.toNat + q.activeFile.toNat

def watermarkLow : ℤ := 5 * q.minFree.toNat / 4

/-- The estimate of the kernel: what is free above the watermark, and what the page cache and the
slab can give. -/
def estimate : ℤ :=
  q.free.toNat - q.watermarkLow + q.pageCache - min (q.pageCache / 2) q.watermarkLow
    + q.reclaimable.toNat - min ((q.reclaimable.toNat : ℤ) / 2) q.watermarkLow

/-- All quantities are below 2 ^ 60 kB. -/
structure Sensible : Prop where
  free_lt : q.free.toNat < 2 ^ 60
  inactiveFile_lt : q.inactiveFile.toNat < 2 ^ 60
  activeFile_lt : q.activeFile.toNat < 2 ^ 60
  reclaimable_lt : q.reclaimable.toNat < 2 ^ 60
  minFree_lt : q.minFree.toNat < 2 ^ 60

variable {q}

lemma estimate_le : q.estimate ≤ q.free.toNat + q.pageCache + q.reclaimable.toNat := by
  rw [estimate, watermarkLow, pageCache]
  omega

lemma Sensible.toNat_watermarkLow (h : q.Sensible) :
    ((q.minFree * 5 / 4).toNat : ℤ) = q.watermarkLow := by
  have hlt := h.minFree_lt
  have hfive : q.minFree.toNat * 5 < 2 ^ 64 := by omega
  have hmul : (q.minFree * 5).toNat = q.minFree.toNat * 5 := by
    rw [UInt64.toNat_mul]
    exact Nat.mod_eq_of_lt hfive
  rw [UInt64.toNat_div, hmul, watermarkLow, Nat.mul_comm]
  rfl

lemma Sensible.toNat_half_pageCache (h : q.Sensible) :
    (((q.inactiveFile + q.activeFile) / 2).toNat : ℤ) = q.pageCache / 2 := by
  have hinactive := h.inactiveFile_lt
  have hactive := h.activeFile_lt
  rw [UInt64.toNat_div, toNat_add_of_lt (by omega)]
  rfl

/-- The available memory is the estimate, unless that is negative, and not more than what is free,
in the page cache or reclaimable. -/
structure IsEstimate (q : MemQuantities) (available : UInt64) : Prop where
  eq_max : (available.toNat : ℤ) = max 0 q.estimate
  le : (available.toNat : ℤ) ≤ q.free.toNat + q.pageCache + q.reclaimable.toNat

lemma isEstimate_of_eq {available : UInt64} (h : (available.toNat : ℤ) = max 0 q.estimate) :
    q.IsEstimate available := by
  refine ⟨h, ?_⟩
  rw [h]
  apply max_le _ estimate_le
  rw [pageCache]
  omega

lemma Sensible.le_estimate (h : q.Sensible) : -2 ^ 63 ≤ q.estimate := by
  obtain ⟨hfree, hinactive, hactive, hreclaimable, hmin⟩ := h
  rw [estimate, watermarkLow, pageCache]
  omega

lemma Sensible.estimate_lt (h : q.Sensible) : q.estimate < 2 ^ 63 := by
  obtain ⟨hfree, hinactive, hactive, hreclaimable, -⟩ := h
  have hle := estimate_le (q := q)
  rw [pageCache] at hle
  omega

end MemQuantities

/-- The quantities as members. -/
def memQuantities (data : ProcSysmemData) (minFree : UInt64) : MemQuantities where
  free := data .mainFree
  inactiveFile := data .inactiveFile
  activeFile := data .activeFile
  reclaimable := data .slabReclaimable
  minFree := minFree

/-- Nothing is lost modulo 2 ^ 64. -/
lemma toInt_memAvailable {data : ProcSysmemData} {minFree : UInt64}
    (h : (memQuantities data minFree).Sensible) :
    (memAvailable data (minFree * 5 / 4)).toInt = (memQuantities data minFree).estimate := by
  have hlow : ((minFree * 5 / 4).toNat : ℤ) = _ := h.toNat_watermarkLow
  have hpages : (((data .inactiveFile + data .activeFile) / 2).toNat : ℤ) = _ :=
    h.toNat_half_pageCache
  have hslab : ((data .slabReclaimable / 2).toNat : ℤ) = (data .slabReclaimable).toNat / 2 := by
    rw [UInt64.toNat_div]
    rfl
  have hsum : memAvailable data (minFree * 5 / 4)
      = Int64.ofInt (memQuantities data minFree).estimate := by
    rw [memAvailable, MemQuantities.estimate, ← hlow, ← hpages]
    simp only [UInt64.toInt64_add, UInt64.toInt64_sub]
    simp only [toInt64_eq_ofInt, ← Int64.ofInt_add, ← Int64.ofInt_sub, toNat_min, Nat.cast_min]
    rw [hslab, MemQuantities.pageCache, ← add_assoc]
    rfl
  rw [hsum]
  exact Int64.toInt_ofInt_of_le h.le_estimate h.estimate_lt

/-! ### A read -/

section Read

variable {files : MemFiles} {content : List UInt8} {data : ProcSysmemData}

/-- The quantities, as the rows say. -/
def reportedQuantities (content : List UInt8) (data : ProcSysmemData) (minFree : UInt64) :
    MemQuantities where
  free := reported content "MemFree" (data .mainFree)
  inactiveFile := reported content "Inactive(file)" (data .inactiveFile)
  activeFile := reported content "Active(file)" (data .activeFile)
  reclaimable := reported content "SReclaimable" (data .slabReclaimable)
  minFree := minFree

/-- A read has to estimate the available memory, and can: there is no row for it, the kernel is at
least 2.6.27, `min_free_kbytes` can be read, and all quantities are sensible. -/
structure Estimates (files : MemFiles) (content : List UInt8) (data : ProcSysmemData)
    (minFree : UInt64) : Prop where
  noRow : ascii "MemAvailable" ∉ (rows ':' content).map Prod.fst
  version : ∃ version, files.linuxVersion = .ok version ∧ kernelVersion 2 6 27 ≤ version
  readable : ∀ value, sysfsparserGetvalue files.sysfs value pathVmMinFreeKb = .ok (0, minFree)
  sensible : (reportedQuantities content data minFree).Sensible

lemma memQuantities_sysmemFilled (content : List UInt8) (data : ProcSysmemData)
    (minFree : UInt64) :
    memQuantities (sysmemFilled content data) minFree
      = reportedQuantities content data minFree := by
  have hfree : sysmemFilled content data .mainFree
      = reported content "MemFree" (data .mainFree) :=
    sysmemFilled_eq (by decide +kernel) (by simp [filled]) _ _
  have hinactive : sysmemFilled content data .inactiveFile
      = reported content "Inactive(file)" (data .inactiveFile) :=
    sysmemFilled_eq (by decide +kernel) (by simp [filled]) _ _
  have hactive : sysmemFilled content data .activeFile
      = reported content "Active(file)" (data .activeFile) :=
    sysmemFilled_eq (by decide +kernel) (by simp [filled]) _ _
  have hreclaimable : sysmemFilled content data .slabReclaimable
      = reported content "SReclaimable" (data .slabReclaimable) :=
    sysmemFilled_eq (by decide +kernel) (by simp [filled]) _ _
  rw [memQuantities, hfree, hinactive, hactive, hreclaimable, reportedQuantities]

/-- A row is passed on. -/
lemma fillAvailable_of_set {kbMinFree : UInt64} (hset : data .mainAvailable ≠ meminfoUnset) :
    fillAvailable files kbMinFree data = .ok data :=
  if_neg hset

/-- Without a row, the estimate is not let below zero. -/
lemma fillAvailable_of_unset {kbMinFree minFree : UInt64}
    (hunset : data .mainAvailable = meminfoUnset)
    (hversion : ∃ version, files.linuxVersion = .ok version ∧ kernelVersion 2 6 27 ≤ version)
    (hreadable : sysfsparserGetvalue files.sysfs kbMinFree pathVmMinFreeKb = .ok (0, minFree))
    (hsensible : (memQuantities data minFree).Sensible) :
    ∃ available, fillAvailable files kbMinFree data
        = .ok (Function.update data .mainAvailable available) ∧
      (available.toNat : ℤ) = max 0 (memQuantities data minFree).estimate := by
  obtain ⟨version, hversion, hle⟩ := hversion
  let available := memAvailable data (minFree * 5 / 4)
  refine ⟨(if available < 0 then 0 else available).toUInt64, ?_, ?_⟩
  · rw [fillAvailable, if_pos hunset, hversion, Except.ok_bind, if_neg (UInt32.not_lt.2 hle),
      hreadable, Except.ok_bind]
    rfl
  · rw [toNat_toUInt64_clamp, toInt_memAvailable hsensible]

/-- Without a row, the available memory is the estimate of the kernel. With a row, it is the number
of the row. -/
theorem procSysmemRead_mainAvailable (hmeminfo : files.meminfo = some content)
    (kbMinFree : UInt64) (data : ProcSysmemData) :
    (∀ minFree, Estimates files content data minFree →
      ∃ data', procSysmemRead files kbMinFree data = .ok data' ∧
        (reportedQuantities content data minFree).IsEstimate
          (procSysmemGetMainAvailable (some data'))) ∧
    ∀ value, lastRow? (rows ':' content) (ascii "MemAvailable") = some value →
      value ≠ meminfoUnset →
      ∃ data', procSysmemRead files kbMinFree data = .ok data' ∧
        procSysmemGetMainAvailable (some data') = value := by
  constructor
  · intro minFree h
    have hunset : sysmemFilled content data .mainAvailable = meminfoUnset := by
      rw [sysmemFilled_mainAvailable, reported, lastRow?_eq_none_iff.2 h.noRow]
      rfl
    have hsensible := h.sensible
    rw [← memQuantities_sysmemFilled] at hsensible ⊢
    obtain ⟨available, hfill, heq⟩ :=
      fillAvailable_of_unset hunset h.version (h.readable kbMinFree) hsensible
    refine ⟨fillDerived (Function.update (sysmemFilled content data) .mainAvailable available),
      ?_, ?_⟩
    · rw [procSysmemRead_eq hmeminfo, hfill, Except.ok_bind]
    · simpa [procSysmemGetMainAvailable, procSysmemGet] using MemQuantities.isEstimate_of_eq heq
  · intro value hrow hvalue
    have hset : sysmemFilled content data .mainAvailable = value := by
      rw [sysmemFilled_mainAvailable, reported, hrow]
      rfl
    refine ⟨fillDerived (sysmemFilled content data), ?_, ?_⟩
    · rw [procSysmemRead_eq hmeminfo, fillAvailable_of_set (by rwa [hset]), Except.ok_bind]
    · simp [procSysmemGetMainAvailable, procSysmemGet, hset]

end Read

/-- What an old kernel says, and one that knows the available memory. -/
def oldMeminfo : List UInt8 := ascii "MemFree: 9\nActive(file): 7\n"

def newMeminfo : List UInt8 := ascii "MemFree: 9\nMemAvailable: 12\n"

def memFilesOf (content : List UInt8) : MemFiles where
  envProcmeminfo := none
  meminfo := some content
  linuxVersion := .ok (kernelVersion 2 6 32)
  sysfs := ⟨fun _ => some (ascii "4\n"), false, none⟩

lemma estimates_oldMeminfo : Estimates (memFilesOf oldMeminfo) oldMeminfo procSysmemNew 4 where
  noRow := by decide +kernel
  version := ⟨_, rfl, by decide⟩
  readable value := sysfsparserGetvalue_signedDecimal (i := 4) (by decide) rfl value
  sensible := by
    constructor <;> decide +kernel

theorem procSysmemRead_mainAvailable_oldMeminfo :
    (∃ data', procSysmemRead (memFilesOf oldMeminfo) 0 procSysmemNew = .ok data' ∧
      (reportedQuantities oldMeminfo procSysmemNew 4).IsEstimate
        (procSysmemGetMainAvailable (some data'))) ∧
    ∃ data', procSysmemRead (memFilesOf newMeminfo) 0 procSysmemNew = .ok data' ∧
      procSysmemGetMainAvailable (some data') = 12 := by
  have hrow : lastRow? (rows ':' newMeminfo) (ascii "MemAvailable") = some 12 := by
    decide +kernel
  exact ⟨(procSysmemRead_mainAvailable rfl 0 procSysmemNew).1 4 estimates_oldMeminfo,
    (procSysmemRead_mainAvailable rfl 0 procSysmemNew).2 12 hrow (by decide)⟩

end NagiosPlugins
