import NagiosPlugins.Libc.Arith
import NagiosPlugins.Meminfo.Rows

/-!
# Used memory

The used memory is what the total leaves when the free memory, the caches and the buffers are
taken off. Nothing keeps these from adding up to more than the total.
-/

namespace NagiosPlugins

open Libc

/-- A number between 0 and 100. -/
def IsPercentage (x : Double) : Prop := ∃ percent ∈ Set.Icc (0 : ℚ) 100, x = .fin percent

/-- Used memory and used swap lie within their totals, and so do the percentages of them that
`check_memory` and `check_swap` compare with their thresholds. -/
structure UsedWithinTotal (sysmem : Option ProcSysmemData) : Prop where
  main : procSysmemGetMainUsed sysmem ≤ procSysmemGetMainTotal sysmem
  swap : procSysmemGetSwapUsed sysmem ≤ procSysmemGetSwapTotal sysmem
  mainPercent : IsPercentage (checkMemoryPercent false sysmem)
  swapPercent : IsPercentage (checkSwapPercent sysmem)

lemma isPercentage_memPercent {part total : UInt64} (h : part ≤ total) :
    IsPercentage (memPercent part total) := by
  rw [memPercent]
  split_ifs with hzero
  · have hle : (part.toNat : ℚ) ≤ total.toNat := Nat.cast_le.2 (UInt64.le_iff_toNat_le.1 h)
    have hpos : (0 : ℚ) < total.toNat := by
      have hne : total.toNat ≠ 0 := fun heq => hzero (UInt64.toNat_inj.1 heq)
      exact Nat.cast_pos.2 (Nat.pos_of_ne_zero hne)
    refine ⟨_, ⟨?_, ?_⟩, rfl⟩
    · positivity
    · rw [div_le_iff₀ hpos]
      linarith
  · exact ⟨0, ⟨le_rfl, by norm_num⟩, rfl⟩

/-- The percentages follow from the two differences. -/
lemma usedWithinTotal_of_le {sysmem : Option ProcSysmemData}
    (hmain : procSysmemGetMainUsed sysmem ≤ procSysmemGetMainTotal sysmem)
    (hswap : procSysmemGetSwapUsed sysmem ≤ procSysmemGetSwapTotal sysmem) :
    UsedWithinTotal sysmem :=
  ⟨hmain, hswap, isPercentage_memPercent hmain, isPercentage_memPercent hswap⟩

/-- What is not used, as the rows say: free memory, caches and buffers. -/
def notUsed (content : List UInt8) (data : ProcSysmemData) : UInt64 :=
  reported content "MemFree" (data .mainFree)
    + (reported content "Cached" (data .pageCache)
      + reported content "SReclaimable" (data .slabReclaimable))
    + reported content "Buffers" (data .mainBuffers)

section Read

variable {files : MemFiles} {content : List UInt8} {kbMinFree : UInt64}
  {data data' : ProcSysmemData}

/-- The used memory is the total less what is not used. -/
lemma procSysmemRead_main (hmeminfo : files.meminfo = some content)
    (hread : procSysmemRead files kbMinFree data = .ok data') :
    procSysmemGetMainUsed (some data')
        = reported content "MemTotal" (data .mainTotal) - notUsed content data ∧
      procSysmemGetMainTotal (some data') = reported content "MemTotal" (data .mainTotal) := by
  have htotal : data' .mainTotal = reported content "MemTotal" (data .mainTotal) :=
    procSysmemRead_reported hmeminfo hread (by decide +kernel) (by simp [filled])
  have hfree : data' .mainFree = reported content "MemFree" (data .mainFree) :=
    procSysmemRead_reported hmeminfo hread (by decide +kernel) (by simp [filled])
  have hcached : data' .pageCache = reported content "Cached" (data .pageCache) :=
    procSysmemRead_reported hmeminfo hread (by decide +kernel) (by simp [filled])
  have hreclaimable : data' .slabReclaimable
      = reported content "SReclaimable" (data .slabReclaimable) :=
    procSysmemRead_reported hmeminfo hread (by decide +kernel) (by simp [filled])
  have hbuffers : data' .mainBuffers = reported content "Buffers" (data .mainBuffers) :=
    procSysmemRead_reported hmeminfo hread (by decide +kernel) (by simp [filled])
  refine ⟨?_, htotal⟩
  rw [procSysmemGetMainUsed, procSysmemGet, procSysmemRead_mainUsed hmeminfo hread, htotal, hfree,
    hcached, hreclaimable, hbuffers, notUsed]
  exact sub_three_eq _ _ _ _

lemma procSysmemRead_swap (hmeminfo : files.meminfo = some content)
    (hread : procSysmemRead files kbMinFree data = .ok data') :
    procSysmemGetSwapUsed (some data') = reported content "SwapTotal" (data .swapTotal)
        - reported content "SwapFree" (data .swapFree) ∧
      procSysmemGetSwapTotal (some data') = reported content "SwapTotal" (data .swapTotal) := by
  have htotal : data' .swapTotal = reported content "SwapTotal" (data .swapTotal) :=
    procSysmemRead_reported hmeminfo hread (by decide +kernel) (by simp [filled])
  have hfree : data' .swapFree = reported content "SwapFree" (data .swapFree) :=
    procSysmemRead_reported hmeminfo hread (by decide +kernel) (by simp [filled])
  rw [procSysmemGetSwapUsed, procSysmemGetSwapTotal, procSysmemGet, htotal, hfree]
  exact ⟨rfl, rfl⟩

/-- With the free swap within its total, what is used lies within the totals exactly if what is
not used does, in the arithmetic of an `unsigned long`. -/
theorem usedWithinTotal_iff (hmeminfo : files.meminfo = some content)
    (hswap : reported content "SwapFree" (data .swapFree)
      ≤ reported content "SwapTotal" (data .swapTotal))
    (hread : procSysmemRead files kbMinFree data = .ok data') :
    UsedWithinTotal (some data')
      ↔ notUsed content data ≤ reported content "MemTotal" (data .mainTotal) := by
  obtain ⟨hused, htotal⟩ := procSysmemRead_main hmeminfo hread
  constructor
  · intro h
    have hle := h.main
    rw [hused, htotal] at hle
    exact sub_le_iff.1 hle
  · intro h
    obtain ⟨hswapUsed, hswapTotal⟩ := procSysmemRead_swap hmeminfo hread
    apply usedWithinTotal_of_le
    · rw [hused, htotal]
      exact sub_le_iff.2 h
    · rw [hswapUsed, hswapTotal]
      exact sub_le_iff.2 hswap

end Read

/-- A machine with half of its memory used. -/
def halfUsed : List UInt8 := ascii "MemTotal: 8\nMemFree: 4\nMemAvailable: 4\n"

/-- A container whose cache counts memory of others. -/
def sharedCache : List UInt8 := ascii "MemTotal: 8\nMemFree: 4\nMemAvailable: 6\nCached: 5\n"

def newKernel (content : List UInt8) : MemFiles where
  envProcmeminfo := none
  meminfo := some content
  linuxVersion := .ok (kernelVersion 6 1 0)
  sysfs := ⟨fun _ => none, false, none⟩

theorem usedWithinTotal_halfUsed :
    ∃ data', procSysmemRead (newKernel halfUsed) 0 procSysmemNew = .ok data' ∧
      (UsedWithinTotal (some data') ↔
        notUsed halfUsed procSysmemNew ≤ reported halfUsed "MemTotal" 0) := by
  have hread : ∃ data', procSysmemRead (newKernel halfUsed) 0 procSysmemNew = .ok data' :=
    ⟨_, rfl⟩
  obtain ⟨data', hread⟩ := hread
  exact ⟨data', hread, usedWithinTotal_iff rfl (by decide +kernel) hread⟩

/-- The used memory wraps around. -/
theorem sharedCache_not_usedWithinTotal :
    reported sharedCache "MemFree" 0 ≤ reported sharedCache "MemTotal" 0 ∧
      reported sharedCache "SwapFree" 0 ≤ reported sharedCache "SwapTotal" 0 ∧
      ∃ data', procSysmemRead (newKernel sharedCache) 0 procSysmemNew = .ok data' ∧
        ¬ UsedWithinTotal (some data') := by
  refine ⟨by decide +kernel, by decide +kernel, _, rfl, ?_⟩
  intro h
  exact absurd h.main (by decide +kernel)

end NagiosPlugins
