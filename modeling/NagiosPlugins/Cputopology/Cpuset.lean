import Mathlib.Data.List.Basic
import NagiosPlugins.Data.BitFields

/-!
# Sets of CPUs

The macros of `include/cputopology.h` for libraries without dynamically allocated sets, and
`__cpuset_count_s` of `lib/cputopology.c`. A set is an array of mask words, which are as long as a
`size_t`.
-/

namespace NagiosPlugins

open BitFields

/-- `LONG_BIT`. -/
inductive LongBit where
  | bits32
  | bits64
  deriving DecidableEq, Repr

/-- `__NCPUBITS`. -/
def LongBit.ncpubits : LongBit → ℕ
  | .bits32 => 32
  | .bits64 => 64

/-- `sizeof (__cpu_mask)`. -/
def LongBit.maskSize : LongBit → ℕ
  | .bits32 => 4
  | .bits64 => 8

@[simp] lemma LongBit.eight_mul_maskSize (b : LongBit) : 8 * b.maskSize = b.ncpubits := by
  cases b <;> rfl

lemma LongBit.ncpubits_pos (b : LongBit) : 0 < b.ncpubits := by cases b <;> decide

/-- `__cpu_mask`. -/
abbrev CpuMask (b : LongBit) := BitVec b.ncpubits

/-- `cpu_set_t`. -/
abbrev CpuSet (b : LongBit) := List (CpuMask b)

variable {b : LongBit}

/-- `CPU_ZERO_S`. -/
def cpuZeroS (setsize : ℕ) (set : CpuSet b) : CpuSet b :=
  set.mapIdx fun i word => if i < setsize / b.maskSize then 0 else word

/-- `CPU_SET_S`; `8 * setsize` is a `size_t`. -/
def cpuSetS (cpu setsize : ℕ) (set : CpuSet b) : CpuSet b :=
  if cpu < 8 * setsize % 2 ^ b.ncpubits then
    set.modify (cpu / b.ncpubits) fun word => word ||| (1 : CpuMask b) <<< (cpu % b.ncpubits)
  else set

/-- `(l & mask) + ((l >> shift) & mask)`. -/
def cpusetRound {w : ℕ} (shift : ℕ) (mask l : BitVec w) : BitVec w :=
  (l &&& mask) + ((l >>> shift) &&& mask)

/-- What `__cpuset_count_s` makes of one word. -/
def cpusetCountWord : (b : LongBit) → CpuMask b → CpuMask b
  | .bits64, l =>
    let l := cpusetRound 1 0x5555555555555555 l
    let l := cpusetRound 2 0x3333333333333333 l
    let l := cpusetRound 4 0x0f0f0f0f0f0f0f0f l
    let l := cpusetRound 8 0x00ff00ff00ff00ff l
    let l := cpusetRound 16 0x0000ffff0000ffff l
    cpusetRound 32 0x00000000ffffffff l
  | .bits32, l =>
    let l := cpusetRound 1 0x55555555 l
    let l := cpusetRound 2 0x33333333 l
    let l := cpusetRound 4 0x0f0f0f0f l
    let l := cpusetRound 8 0x00ff00ff l
    cpusetRound 16 0x0000ffff l

/-- `__cpuset_count_s`, which is `CPU_COUNT_S`. -/
def cpusetCountS (setsize : ℕ) (set : CpuSet b) : Int32 :=
  (set.take (setsize / b.maskSize)).foldl
    (fun s l => if l = 0 then s else s + Int32.ofNat (cpusetCountWord b l).toNat) 0

/-- Is the bit of a CPU set? -/
def cpuIsset (set : CpuSet b) (cpu : ℕ) : Bool :=
  (set[cpu / b.ncpubits]?.getD 0).getLsbD (cpu % b.ncpubits)

/-! ### Counting -/

/-- A round adds pairs of fields, if the fields fill the word. -/
lemma toNat_cpusetRound {w n width : ℕ} (hw : 0 < w) (hwidth : 2 * w * n = width)
    {m : BitVec width} (hm : m.toNat = mask w n) (l : BitVec width) :
    (cpusetRound w m l).toNat = addPairs w n l.toNat := by
  have hlt : addPairs w n l.toNat < 2 ^ width := hwidth ▸ addPairs_lt hw n l.toNat
  rw [cpusetRound, BitVec.toNat_add, BitVec.toNat_and, BitVec.toNat_and, BitVec.toNat_ushiftRight,
    hm]
  exact Nat.mod_eq_of_lt hlt

lemma fieldSum_cpusetRound {w n width : ℕ} (hw : 0 < w) (hwidth : 2 * w * n = width)
    {m : BitVec width} (hm : m.toNat = mask w n) (l : BitVec width) :
    fieldSum (2 * w) n (cpusetRound w m l).toNat = fieldSum w (2 * n) l.toNat := by
  rw [toNat_cpusetRound hw hwidth hm, fieldSum_addPairs hw]

/-- The number of bits of a word that are set. -/
theorem toNat_cpusetCountWord (b : LongBit) (l : CpuMask b) :
    (cpusetCountWord b l).toNat = (List.range b.ncpubits).countP l.getLsbD := by
  have hbits : l.getLsbD = l.toNat.testBit := by
    funext i
    exact (BitVec.testBit_toNat l).symm
  rw [hbits, ← fieldSum_bits]
  cases b with
  | bits64 =>
    have hlast := (cpusetCountWord .bits64 l).isLt
    calc (cpusetCountWord .bits64 l).toNat
        = fieldSum (2 * 32) 1 (cpusetCountWord .bits64 l).toNat :=
          (Nat.mod_eq_of_lt hlast).symm
      _ = fieldSum (2 * 16) 2 _ := fieldSum_cpusetRound (by norm_num) rfl rfl _
      _ = fieldSum (2 * 8) 4 _ := fieldSum_cpusetRound (by norm_num) rfl rfl _
      _ = fieldSum (2 * 4) 8 _ := fieldSum_cpusetRound (by norm_num) rfl rfl _
      _ = fieldSum (2 * 2) 16 _ := fieldSum_cpusetRound (by norm_num) rfl rfl _
      _ = fieldSum (2 * 1) 32 _ := fieldSum_cpusetRound (by norm_num) rfl rfl _
      _ = fieldSum 1 64 l.toNat := fieldSum_cpusetRound (by norm_num) rfl rfl _
  | bits32 =>
    have hlast := (cpusetCountWord .bits32 l).isLt
    calc (cpusetCountWord .bits32 l).toNat
        = fieldSum (2 * 16) 1 (cpusetCountWord .bits32 l).toNat :=
          (Nat.mod_eq_of_lt hlast).symm
      _ = fieldSum (2 * 8) 2 _ := fieldSum_cpusetRound (by norm_num) rfl rfl _
      _ = fieldSum (2 * 4) 4 _ := fieldSum_cpusetRound (by norm_num) rfl rfl _
      _ = fieldSum (2 * 2) 8 _ := fieldSum_cpusetRound (by norm_num) rfl rfl _
      _ = fieldSum (2 * 1) 16 _ := fieldSum_cpusetRound (by norm_num) rfl rfl _
      _ = fieldSum 1 32 l.toNat := fieldSum_cpusetRound (by norm_num) rfl rfl _

lemma cpuIsset_cons_of_lt (word : CpuMask b) (set : CpuSet b) {cpu : ℕ} (h : cpu < b.ncpubits) :
    cpuIsset (word :: set) cpu = word.getLsbD cpu := by
  rw [cpuIsset, Nat.div_eq_of_lt h, Nat.mod_eq_of_lt h]
  rfl

lemma cpuIsset_cons_add (word : CpuMask b) (set : CpuSet b) (cpu : ℕ) :
    cpuIsset (word :: set) (b.ncpubits + cpu) = cpuIsset set cpu := by
  rw [cpuIsset, Nat.add_div_left _ b.ncpubits_pos, Nat.add_mod_left]
  rfl

/-- The words are counted one after the other. -/
lemma sum_cpusetCountWord (set : CpuSet b) :
    (set.map fun l => (cpusetCountWord b l).toNat).sum
      = (List.range (set.length * b.ncpubits)).countP (cpuIsset set) := by
  induction set with
  | nil => simp
  | cons word set ih =>
    have hfirst : (List.range b.ncpubits).countP (cpuIsset (word :: set))
        = (List.range b.ncpubits).countP word.getLsbD := by
      apply List.countP_congr
      intro cpu hcpu
      rw [cpuIsset_cons_of_lt word set (List.mem_range.1 hcpu)]
    have hrest : cpuIsset (word :: set) ∘ (b.ncpubits + ·) = cpuIsset set :=
      funext (cpuIsset_cons_add word set)
    rw [List.map_cons, List.sum_cons, ih, toNat_cpusetCountWord, List.length_cons, Nat.succ_mul,
      Nat.add_comm (set.length * _), List.range_add, List.countP_append, List.countP_map, hfirst,
      hrest]

/-- The sum of the counts, as an `int`. -/
lemma foldl_cpusetCount (set : CpuSet b) (n : ℕ) :
    set.foldl (fun s l => if l = 0 then s else s + Int32.ofNat (cpusetCountWord b l).toNat)
        (Int32.ofNat n)
      = Int32.ofNat (n + (set.map fun l => (cpusetCountWord b l).toNat).sum) := by
  induction set generalizing n with
  | nil => rfl
  | cons word set ih =>
    -- a word without bits adds nothing
    have hstep : (if word = 0 then Int32.ofNat n
        else Int32.ofNat n + Int32.ofNat (cpusetCountWord b word).toNat)
          = Int32.ofNat (n + (cpusetCountWord b word).toNat) := by
      rw [Int32.ofNat_add]
      split_ifs with hzero
      · have hcount : (cpusetCountWord b word).toNat = 0 := by
          rw [toNat_cpusetCountWord, List.countP_eq_zero, hzero]
          simp
        rw [hcount]
        exact (Int32.add_zero _).symm
      · rfl
    rw [List.foldl_cons, hstep, ih, List.map_cons, List.sum_cons, Nat.add_assoc]

/-- The function returns the number of bits that are set, as an `int`. -/
theorem cpusetCountS_eq (set : CpuSet b) :
    cpusetCountS (set.length * b.maskSize) set
      = Int32.ofNat ((List.range (set.length * b.ncpubits)).countP (cpuIsset set)) := by
  have hpos : 0 < b.maskSize := by cases b <;> decide
  rw [cpusetCountS, Nat.mul_div_cancel _ hpos, List.take_length, ← sum_cpusetCountWord]
  have hfold := foldl_cpusetCount set 0
  rwa [Nat.zero_add] at hfold

end NagiosPlugins
