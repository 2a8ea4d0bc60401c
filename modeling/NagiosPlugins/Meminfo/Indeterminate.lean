import NagiosPlugins.Cputopology.KernelMax
import NagiosPlugins.Meminfo.Available

/-!
# Variables that were never set

The estimate of the available memory depends on what `kb_min_free` held before, if there is nothing
to read in `min_free_kbytes`.
-/

namespace NagiosPlugins

open Libc

/-! ### The estimate as a function of the watermark -/

/-- What the watermark takes off the memory. -/
def takenOff (pages slab w : ℕ) : ℕ := w + min (pages / 2) w + min (slab / 2) w

@[simp] lemma takenOff_zero (pages slab : ℕ) : takenOff pages slab 0 = 0 := by simp [takenOff]

lemma takenOff_succ (pages slab w : ℕ) :
    takenOff pages slab w < takenOff pages slab (w + 1) ∧
      takenOff pages slab (w + 1) ≤ takenOff pages slab w + 3 := by
  rw [takenOff, takenOff]
  omega

lemma takenOff_mono (pages slab : ℕ) {v w : ℕ} (h : v ≤ w) :
    takenOff pages slab v ≤ takenOff pages slab w := by
  rw [takenOff, takenOff]
  omega

/-- A `signed long` that is not let below zero. -/
def clamp (x : ℤ) : ℤ := max 0 (x.bmod (2 ^ 64))

lemma clamp_of_mem {x : ℤ} (hlo : -2 ^ 63 ≤ x) (hhi : x < 2 ^ 63) : clamp x = max 0 x := by
  rw [clamp, Int.bmod_eq_of_le (by omega) (by omega)]

/-- No watermark up to a bound makes a difference if and only if nothing is available, and nothing
wraps around. -/
lemma clamp_takenOff_congr_iff {pages slab W : ℕ} (hW : 0 < W) {A : ℤ} (hlo : -2 ^ 63 ≤ A)
    (hhi : A < 2 ^ 63) :
    (∀ w ≤ W, clamp (A - takenOff pages slab w) = clamp A) ↔
      A ≤ 0 ∧ takenOff pages slab W - A ≤ 2 ^ 63 := by
  constructor
  · intro h
    have hA := clamp_of_mem hlo hhi
    have hnonpos : A ≤ 0 := by
      by_contra hpos
      have hone := h 1 hW
      obtain ⟨hlt, hle⟩ := takenOff_succ pages slab 0
      simp only [takenOff_zero, Nat.zero_add] at hlt hle
      rw [hA, clamp_of_mem (by omega) (by omega)] at hone
      omega
    refine ⟨hnonpos, ?_⟩
    by_contra hlarge
    -- the first watermark at which the difference wraps around
    have hex : ∃ w, ¬ (takenOff pages slab w - A ≤ 2 ^ 63) := ⟨W, hlarge⟩
    obtain ⟨v, hv⟩ : ∃ v, Nat.find hex = v + 1 := by
      apply Nat.exists_eq_succ_of_ne_zero
      intro hzero
      have hspec := Nat.find_spec hex
      rw [hzero, takenOff_zero] at hspec
      omega
    have hspec := Nat.find_spec hex
    have hbefore := not_not.1 (Nat.find_min hex (m := v) (by omega))
    have hvW : v + 1 ≤ W := hv ▸ Nat.find_min' hex hlarge
    have hconst := h (v + 1) hvW
    obtain ⟨-, hle⟩ := takenOff_succ pages slab v
    rw [hv] at hspec
    rw [hA, clamp, Int.bmod_def] at hconst
    omega
  · rintro ⟨hnonpos, hsmall⟩ w hw
    have hle := takenOff_mono pages slab hw
    rw [clamp_of_mem hlo hhi, clamp_of_mem (by omega) (by omega)]
    omega

/-! ### The quantities -/

namespace MemQuantities

variable (q : MemQuantities)

/-- What is free, in the file cache and reclaimable, modulo 2 ^ 64 and with a sign. -/
def reclaimableSum : ℤ :=
  (q.free + q.inactiveFile + q.activeFile + q.reclaimable).toInt64.toInt

/-- The file cache, modulo 2 ^ 64. -/
def fileCache : ℕ := (q.inactiveFile + q.activeFile).toNat

/-- No watermark makes a difference, whatever `minFree` is: there is nothing that it could be taken
off, and not even the greatest one wraps around. -/
def EstimateFixed : Prop :=
  q.reclaimableSum ≤ 0 ∧
    takenOff q.fileCache q.reclaimable.toNat (2 ^ 62 - 1) - q.reclaimableSum ≤ 2 ^ 63

end MemQuantities

/-! ### The members -/

/-- What is taken off as an unsigned number. -/
lemma takenOff_mod (pages slab watermarkLow : UInt64) :
    (watermarkLow + min (pages / 2) watermarkLow + min (slab / 2) watermarkLow).toNat
      = takenOff pages.toNat slab.toNat watermarkLow.toNat % 2 ^ 64 := by
  have htwo : (2 : UInt64).toNat = 2 := rfl
  rw [takenOff, UInt64.toNat_add, UInt64.toNat_add, Nat.mod_add_mod, toNat_min, toNat_min,
    UInt64.toNat_div, UInt64.toNat_div, htwo]

lemma memAvailable_eq_sub (data : ProcSysmemData) (watermarkLow : UInt64) :
    memAvailable data watermarkLow
      = (data .mainFree + data .inactiveFile + data .activeFile + data .slabReclaimable
        - (watermarkLow + min ((data .inactiveFile + data .activeFile) / 2) watermarkLow
          + min (data .slabReclaimable / 2) watermarkLow)).toInt64 := by
  rw [memAvailable]
  congr 1
  simp only [UInt64.sub_eq_add_neg, UInt64.neg_add]
  ac_rfl

lemma clamp_memAvailable (data : ProcSysmemData) (watermarkLow : UInt64) :
    max 0 (memAvailable data watermarkLow).toInt
      = clamp ((memQuantities data 0).reclaimableSum
        - takenOff (memQuantities data 0).fileCache (data .slabReclaimable).toNat
          watermarkLow.toNat) := by
  have hsum : (memQuantities data 0).reclaimableSum
      = (data .mainFree + data .inactiveFile + data .activeFile
        + data .slabReclaimable).toInt64.toInt := rfl
  have hcache : (memQuantities data 0).fileCache
      = (data .inactiveFile + data .activeFile).toNat := rfl
  have hsize : Int64.size = 2 ^ 64 := rfl
  rw [clamp, memAvailable_eq_sub, UInt64.toInt64_sub, Int64.toInt_sub, ← hsum,
    toInt64_eq_ofInt (_ + _), Int64.toInt_ofInt, takenOff_mod, ← hcache, Int.natCast_mod,
    hsize, Int.emod_bmod, Int.sub_bmod_bmod]

/-- Every watermark below 2 ^ 62 is a quarter of a multiple of five. -/
lemma exists_watermark {w : ℕ} (hw : w < 2 ^ 62) :
    ∃ kbMinFree : UInt64, (kbMinFree * 5 / 4).toNat = w := by
  refine ⟨UInt64.ofNat (4 * w * 14757395258967641293), ?_⟩
  rw [UInt64.toNat_div, UInt64.toNat_mul, UInt64.toNat_ofNat']
  have hfive : (5 : UInt64).toNat = 5 := rfl
  have hfour : (4 : UInt64).toNat = 4 := rfl
  rw [hfive, hfour]
  omega

lemma watermark_lt (kbMinFree : UInt64) : (kbMinFree * 5 / 4).toNat < 2 ^ 62 := by
  have hlt := (kbMinFree * 5).toNat_lt
  have hfour : (4 : UInt64).toNat = 4 := rfl
  rw [UInt64.toNat_div, hfour]
  omega

lemma clamp_memAvailable_congr_iff {data : ProcSysmemData} :
    (∀ kbMinFree kbMinFree' : UInt64,
        max 0 (memAvailable data (kbMinFree * 5 / 4)).toInt
          = max 0 (memAvailable data (kbMinFree' * 5 / 4)).toInt)
      ↔ (memQuantities data 0).EstimateFixed := by
  have hlo : -2 ^ 63 ≤ (memQuantities data 0).reclaimableSum := Int64.le_toInt _
  have hhi : (memQuantities data 0).reclaimableSum < 2 ^ 63 := Int64.toInt_lt _
  have hreclaimable : (memQuantities data 0).reclaimable = data .slabReclaimable := rfl
  rw [MemQuantities.EstimateFixed, ← clamp_takenOff_congr_iff (by norm_num) hlo hhi,
    hreclaimable]
  simp only [clamp_memAvailable]
  constructor
  · intro h w hw
    obtain ⟨kbMinFree, hkb⟩ := exists_watermark (show w < 2 ^ 62 by omega)
    have hzero : ((0 : UInt64) * 5 / 4).toNat = 0 := rfl
    have heq := h kbMinFree 0
    rwa [hkb, hzero, takenOff_zero, Nat.cast_zero, sub_zero] at heq
  · intro h kbMinFree kbMinFree'
    have hlt := watermark_lt kbMinFree
    have hlt' := watermark_lt kbMinFree'
    rw [h _ (by omega), h _ (by omega)]

/-! ### The fall-back -/

section FallBack

variable {files : MemFiles} {data : ProcSysmemData}

/-- The available memory, as a read leaves it; `kbMinFree` is what the variable holds before it is
set. -/
def mainAvailableRead (files : MemFiles) (kbMinFree : UInt64) (data : ProcSysmemData) :
    Except Stop UInt64 := do
  let data ← procSysmemRead files kbMinFree data
  return procSysmemGetMainAvailable (some data)

lemma mainAvailableRead_eq {content : List UInt8} (hmeminfo : files.meminfo = some content)
    (kbMinFree : UInt64) (data : ProcSysmemData) :
    mainAvailableRead files kbMinFree data
      = fillAvailable files kbMinFree (sysmemFilled content data) >>= fun data =>
          .ok (data .mainAvailable) := by
  rw [mainAvailableRead, procSysmemRead_eq hmeminfo]
  cases fillAvailable files kbMinFree (sysmemFilled content data) with
  | error e => rfl
  | ok data =>
    simp only [Except.ok_bind, procSysmemGetMainAvailable, procSysmemGet]
    rw [fillDerived_of_ne (by decide) (by decide)]
    rfl

/-- The available memory has to be estimated, for the member that the rows leave. -/
def IsEstimated (files : MemFiles) (mainAvailable : UInt64) : Prop :=
  mainAvailable = meminfoUnset ∧
    ∃ version, files.linuxVersion = .ok version ∧ kernelVersion 2 6 27 ≤ version

lemma fillAvailable_congr_of_not (h : ¬ IsEstimated files (data .mainAvailable))
    (kbMinFree kbMinFree' : UInt64) :
    fillAvailable files kbMinFree data = fillAvailable files kbMinFree' data := by
  rw [fillAvailable, fillAvailable]
  split_ifs with hunset
  · cases hversion : files.linuxVersion with
    | error e => rfl
    | ok version =>
      have hlt : version < kernelVersion 2 6 27 := by
        rw [← UInt32.not_le]
        exact fun hle => h ⟨hunset, version, hversion, hle⟩
      rw [Except.ok_bind, Except.ok_bind, if_pos hlt, if_pos hlt]
  · rfl

/-- With nothing to read, the estimate is made with what the variable holds. -/
lemma fillAvailable_of_not_hasContent (h : IsEstimated files (data .mainAvailable))
    (hfile : ¬ files.sysfs.HasContent pathVmMinFreeKb) (kbMinFree : UInt64) :
    ∃ available, fillAvailable files kbMinFree data
        = .ok (Function.update data .mainAvailable available) ∧
      (available.toNat : ℤ) = max 0 (memAvailable data (kbMinFree * 5 / 4)).toInt := by
  obtain ⟨hunset, version, hversion, hle⟩ := h
  let available := memAvailable data (kbMinFree * 5 / 4)
  refine ⟨(if available < 0 then 0 else available).toUInt64, ?_, toNat_toUInt64_clamp _⟩
  rw [fillAvailable, if_pos hunset, hversion, Except.ok_bind, if_neg (UInt32.not_lt.2 hle),
    sysfsparserGetvalue_of_not hfile, Except.ok_bind]
  rfl

lemma fillAvailable_congr_of_hasContent (hfile : files.sysfs.HasContent pathVmMinFreeKb)
    (kbMinFree kbMinFree' : UInt64) :
    fillAvailable files kbMinFree data = fillAvailable files kbMinFree' data := by
  rw [fillAvailable, fillAvailable, sysfsparserGetvalue_congr hfile kbMinFree kbMinFree']

/-- With nothing to read, the estimate does not depend on the variable if and only if no watermark
makes a difference. -/
lemma fillAvailable_congr_iff (h : IsEstimated files (data .mainAvailable))
    (hfile : ¬ files.sysfs.HasContent pathVmMinFreeKb) :
    (∀ kbMinFree kbMinFree',
        (fillAvailable files kbMinFree data >>= fun data => .ok (data .mainAvailable))
          = (fillAvailable files kbMinFree' data >>= fun data => .ok (data .mainAvailable))) ↔
      (memQuantities data 0).EstimateFixed := by
  rw [← clamp_memAvailable_congr_iff]
  refine forall₂_congr fun kbMinFree kbMinFree' => ?_
  obtain ⟨available, hfill, heq⟩ := fillAvailable_of_not_hasContent h hfile kbMinFree
  obtain ⟨available', hfill', heq'⟩ := fillAvailable_of_not_hasContent h hfile kbMinFree'
  rw [hfill, hfill', Except.ok_bind, Except.ok_bind, Function.update_self, Function.update_self,
    ← heq, ← heq', Nat.cast_inj, UInt64.toNat_inj, Except.ok.injEq]

/-- The available memory does not depend on the variable if and only if it is not estimated, or
there is something to read, or no watermark makes a difference. -/
lemma mainAvailableRead_congr_iff :
    (∀ kbMinFree kbMinFree', mainAvailableRead files kbMinFree data
        = mainAvailableRead files kbMinFree' data) ↔
      ∀ content, files.meminfo = some content →
        IsEstimated files (reported content "MemAvailable" meminfoUnset) →
          files.sysfs.HasContent pathVmMinFreeKb ∨
            (reportedQuantities content data 0).EstimateFixed := by
  constructor
  · intro h content hmeminfo hestimated
    rw [← sysmemFilled_mainAvailable content data] at hestimated
    rw [← memQuantities_sysmemFilled, or_iff_not_imp_left]
    intro hfile
    rw [← fillAvailable_congr_iff hestimated hfile]
    intro kbMinFree kbMinFree'
    rw [← mainAvailableRead_eq hmeminfo, ← mainAvailableRead_eq hmeminfo]
    exact h kbMinFree kbMinFree'
  · intro h kbMinFree kbMinFree'
    cases hmeminfo : files.meminfo with
    | none =>
      rw [mainAvailableRead, mainAvailableRead, procSysmemRead, procSysmemRead, hmeminfo]
      rfl
    | some content =>
      rw [mainAvailableRead_eq hmeminfo, mainAvailableRead_eq hmeminfo]
      have hor := h content hmeminfo
      rw [← sysmemFilled_mainAvailable content data, ← memQuantities_sysmemFilled] at hor
      by_cases hestimated : IsEstimated files (sysmemFilled content data .mainAvailable)
      · by_cases hfile : files.sysfs.HasContent pathVmMinFreeKb
        · rw [fillAvailable_congr_of_hasContent hfile kbMinFree kbMinFree']
        · exact (fillAvailable_congr_iff hestimated hfile).2
            ((hor hestimated).resolve_left hfile) kbMinFree kbMinFree'
      · rw [fillAvailable_congr_of_not hestimated kbMinFree kbMinFree']

end FallBack

/-! ### Both values -/

/-- Two runs over the same files give the same, whatever the variables hold before they are set. -/
structure NoIndeterminate (files : MemFiles) (data : ProcSysmemData) : Prop where
  kernelMax : ∀ value value', getProcessorNumberKernelMax files.sysfs value
    = getProcessorNumberKernelMax files.sysfs value'
  available : ∀ kbMinFree kbMinFree', mainAvailableRead files kbMinFree data
    = mainAvailableRead files kbMinFree' data

/-- Nothing leaks if and only if there is something to read in `kernel_max`, and in
`min_free_kbytes` unless the available memory is not estimated or no watermark makes a
difference. -/
theorem noIndeterminate_iff (files : MemFiles) (data : ProcSysmemData) :
    NoIndeterminate files data ↔
      files.sysfs.HasContent (ascii pathSysCpu ++ ascii "/kernel_max") ∧
      ∀ content, files.meminfo = some content →
        IsEstimated files (reported content "MemAvailable" meminfoUnset) →
          files.sysfs.HasContent pathVmMinFreeKb ∨
            (reportedQuantities content data 0).EstimateFixed := by
  constructor
  · rintro ⟨hmax, havailable⟩
    exact ⟨getProcessorNumberKernelMax_congr_iff.1 hmax, mainAvailableRead_congr_iff.1 havailable⟩
  · rintro ⟨hmax, havailable⟩
    exact ⟨getProcessorNumberKernelMax_congr_iff.2 hmax, mainAvailableRead_congr_iff.2 havailable⟩

/-- Without any file, there are as many CPUs as the variable says. -/
theorem missingFile_not_noIndeterminate :
    ¬ NoIndeterminate ⟨none, none, .ok 0, ⟨fun _ => none, false, none⟩⟩ procSysmemNew := by
  rintro ⟨hmax, -⟩
  exact absurd (Except.ok.inj (hmax 0 1)) (by decide)

end NagiosPlugins
