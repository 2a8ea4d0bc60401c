import Mathlib.Data.Finset.Prod
import Mathlib.Data.Fintype.Prod
import NagiosPlugins.Common
import NagiosPlugins.Cputopology.Decode
import NagiosPlugins.Data.Except

/-!
# The topology of the CPUs

`get_cputopology_read` of `lib/cputopology.c`. A mask that cannot be parsed makes the largest
unsigned number of it, not zero, so that all divisions have a result.
-/

namespace NagiosPlugins

open Libc

/-- The numbers of sockets, of cores in a socket and of threads in a core. -/
structure Cputopology where
  nsockets : UInt32
  ncores : UInt32
  nthreads : UInt32
  deriving DecidableEq, Repr

/-- What `sysfsparser_getline` reads from the two files of each CPU, `none` being NULL, and what
`get_processor_number_online` returns at the turn of that CPU. -/
structure CpuFiles where
  threadSiblings : ℕ → Option HeapString
  coreSiblings : ℕ → Option HeapString
  online : ℕ → Int32

/-- `x / y` has no result for a zero `y`. -/
def divide (x y : UInt32) : Except Stop UInt32 := if y = 0 then .error .undefined else .ok (x / y)

/-- `CPU_ALLOC_SIZE`. -/
def cpuAllocSize (b : LongBit) (count : ℕ) : ℕ :=
  (count + b.ncpubits - 1) % 2 ^ b.ncpubits / b.ncpubits * b.maskSize

/-- `if (*n == 0) *n = 1;` -/
def atLeastOne (n : UInt32) : UInt32 := if n = 0 then 1 else n

variable {b : LongBit}

/-- The body of the loop over the CPUs: the numbers and the set. -/
def cputopologyStep (setsize : ℕ) (files : CpuFiles) (s : Cputopology × CpuSet b) (cpu : ℕ) :
    Except Stop (Cputopology × CpuSet b) :=
  match files.threadSiblings cpu with
  | none => .ok s
  | some threadSiblings => do
    let (count, set) := cpumaskParse setsize (some threadSiblings) s.2
    let nthreads := atLeastOne count.toUInt32
    let (count, set) := cpumaskParse setsize (files.coreSiblings cpu) set
    let ncores := atLeastOne (← divide count.toUInt32 nthreads)
    let ncpusOnline := files.online cpu
    let ncpus := if ncpusOnline > 0 then ncpusOnline.toUInt32 else 0
    let nsockets := atLeastOne (← divide (← divide ncpus nthreads) ncores)
    return (⟨nsockets, ncores, nthreads⟩, set)

/-- `get_cputopology_read`; `set` is what `CPU_ALLOC` returns. -/
def getCputopologyRead (maxcpus : ℕ) (set : Option (CpuSet b)) (files : CpuFiles) :
    Except Stop Cputopology :=
  match set with
  | none => .ok ⟨1, 1, 1⟩
  | some set => do
    let (t, _) ← (List.range maxcpus).foldlM (cputopologyStep (cpuAllocSize b maxcpus) files)
      (⟨1, 1, 1⟩, set)
    return t

/-! ### Divisions -/

lemma divide_eq_ok {y : UInt32} (h : y ≠ 0) (x : UInt32) : divide x y = .ok (x / y) := if_neg h

lemma ofNat_ne_zero {n : ℕ} (hpos : 0 < n) (hlt : n < 2 ^ 32) : UInt32.ofNat n ≠ 0 := by
  intro hzero
  have htoNat := congrArg UInt32.toNat hzero
  rw [UInt32.toNat_ofNat_of_lt' hlt] at htoNat
  exact hpos.ne' htoNat

lemma divide_ofNat {x y : ℕ} (hx : x < 2 ^ 32) (hpos : 0 < y) (hy : y < 2 ^ 32) :
    divide (UInt32.ofNat x) (UInt32.ofNat y) = .ok (UInt32.ofNat (x / y)) := by
  rw [divide_eq_ok (ofNat_ne_zero hpos hy), UInt32.ofNat_div hx hy]

lemma atLeastOne_ofNat {n : ℕ} (hpos : 0 < n) (hlt : n < 2 ^ 32) :
    atLeastOne (UInt32.ofNat n) = UInt32.ofNat n := if_neg (ofNat_ne_zero hpos hlt)

lemma atLeastOne_ne_zero (n : UInt32) : atLeastOne n ≠ 0 := by
  rw [atLeastOne]
  split_ifs with h
  · decide
  · exact h

lemma one_le_atLeastOne (n : UInt32) : 1 ≤ atLeastOne n := by
  rw [UInt32.le_iff_toNat_le]
  have hne : (atLeastOne n).toNat ≠ 0 := fun h => atLeastOne_ne_zero n (UInt32.toNat_inj.1 h)
  have hone : (1 : UInt32).toNat = 1 := rfl
  omega

/-- None of the numbers is zero. -/
def Cputopology.Positive (t : Cputopology) : Prop := 1 ≤ t.nsockets ∧ 1 ≤ t.ncores ∧ 1 ≤ t.nthreads

/-- A turn divides by nothing that is zero. -/
lemma cputopologyStep_ok (setsize : ℕ) (files : CpuFiles) (s : Cputopology × CpuSet b) (cpu : ℕ)
    (hs : s.1.Positive) :
    ∃ s', cputopologyStep setsize files s cpu = .ok s' ∧ s'.1.Positive := by
  rw [cputopologyStep]
  cases files.threadSiblings cpu with
  | none => exact ⟨s, rfl, hs⟩
  | some threadSiblings =>
    simp only [divide_eq_ok (atLeastOne_ne_zero _), Except.ok_bind]
    exact ⟨_, rfl, one_le_atLeastOne _, one_le_atLeastOne _, one_le_atLeastOne _⟩

lemma getCputopologyRead_ok (maxcpus : ℕ) (set : Option (CpuSet b)) (files : CpuFiles) :
    ∃ t, getCputopologyRead maxcpus set files = .ok t ∧ t.Positive := by
  have hstart : (⟨1, 1, 1⟩ : Cputopology).Positive := by
    rw [Cputopology.Positive]
    decide
  cases set with
  | none => exact ⟨_, rfl, hstart⟩
  | some set =>
    have hstep := cputopologyStep_ok (b := b) (cpuAllocSize b maxcpus) files
    obtain ⟨⟨t, set'⟩, hrun, ht⟩ :=
      Except.exists_foldlM (List.range maxcpus) hstep (⟨1, 1, 1⟩, set) hstart
    exact ⟨t, by rw [getCputopologyRead, hrun]; rfl, ht⟩

/-! ### Homogeneous machines -/

/-- A machine with `S` sockets of `C` cores of `T` threads, and its files. -/
structure Machine (b : LongBit) (S C T : ℕ) where
  maxcpus : ℕ
  maxcpus_lt : maxcpus < 2 ^ 31
  memory : CpuSet b
  memory_size : memory.length * b.maskSize = cpuAllocSize b maxcpus
  cpus : Finset ℕ
  nonempty : cpus.Nonempty
  lt_maxcpus : ∀ cpu ∈ cpus, cpu < maxcpus
  /-- The socket, the core in it and the thread in that. -/
  place : ℕ → Fin S × Fin C × Fin T
  bijOn : Set.BijOn place cpus Set.univ
  files : CpuFiles
  threadMask : ℕ → MaskText
  coreMask : ℕ → MaskText
  files_eq : ∀ cpu ∈ cpus,
    (∃ str, files.threadSiblings cpu = some str ∧ str.text = (threadMask cpu).render) ∧
    (∃ str, files.coreSiblings cpu = some str ∧ str.text = (coreMask cpu).render)
  no_files : ∀ cpu ∉ cpus, files.threadSiblings cpu = none
  online_eq : ∀ cpu ∈ cpus, (files.online cpu).toInt = cpus.card
  /-- Files under `/sys` are not longer than a page. -/
  digits_lt : ∀ cpu ∈ cpus, (threadMask cpu).digits.length < 2 ^ 29 ∧
    (coreMask cpu).digits.length < 2 ^ 29
  testBit_threadMask : ∀ cpu ∈ cpus, ∀ k, (threadMask cpu).number.testBit k = true ↔
    k ∈ cpus ∧ (place k).1 = (place cpu).1 ∧ (place k).2.1 = (place cpu).2.1
  testBit_coreMask : ∀ cpu ∈ cpus, ∀ k, (coreMask cpu).number.testBit k = true ↔
    k ∈ cpus ∧ (place k).1 = (place cpu).1

namespace Machine

variable {S C T : ℕ} (m : Machine b S C T)

/-- The CPUs in a part of the machine. -/
lemma card_filter_place (A : Finset (Fin S × Fin C × Fin T)) :
    (m.cpus.filter fun cpu => m.place cpu ∈ A).card = A.card := by
  apply Set.BijOn.finsetCard_eq m.place
  refine ⟨?_, ?_, ?_⟩
  · intro cpu hcpu
    exact (Finset.mem_filter.1 hcpu).2
  · exact m.bijOn.injOn.mono fun cpu hcpu => (Finset.mem_filter.1 hcpu).1
  · intro p hp
    obtain ⟨cpu, hcpu, rfl⟩ := m.bijOn.surjOn (Set.mem_univ p)
    exact ⟨cpu, Finset.mem_coe.2 (Finset.mem_filter.2 ⟨hcpu, hp⟩), rfl⟩

lemma card_cpus : m.cpus.card = S * (C * T) := by
  have h := m.card_filter_place Finset.univ
  simpa using h

lemma card_le : m.cpus.card ≤ m.maxcpus := by
  have hsub : m.cpus ⊆ Finset.range m.maxcpus :=
    fun cpu hcpu => Finset.mem_range.2 (m.lt_maxcpus cpu hcpu)
  simpa using Finset.card_le_card hsub

/-- The set has room for all possible CPUs. -/
lemma maxcpus_le : m.maxcpus ≤ 8 * cpuAllocSize b m.maxcpus ∧
    8 * cpuAllocSize b m.maxcpus < 2 ^ b.ncpubits := by
  have hlt := m.maxcpus_lt
  cases b <;> simp only [cpuAllocSize, LongBit.ncpubits, LongBit.maskSize] <;> omega

lemma fills {set : CpuSet b} (h : set.length = m.memory.length) :
    set.Fills (cpuAllocSize b m.maxcpus) := ⟨by rw [h, m.memory_size], m.maxcpus_le.2⟩

/-- A mask of the CPUs in a part of the machine is as large as that part. -/
lemma countP_testBit {x : ℕ} (A : Finset (Fin S × Fin C × Fin T))
    (hx : ∀ k, x.testBit k = true ↔ k ∈ m.cpus ∧ m.place k ∈ A) :
    (List.range (8 * cpuAllocSize b m.maxcpus)).countP x.testBit = A.card := by
  have hset : ((List.range (8 * cpuAllocSize b m.maxcpus)).filter x.testBit).toFinset
      = m.cpus.filter fun cpu => m.place cpu ∈ A := by
    ext k
    have hlt : k ∈ m.cpus → k < 8 * cpuAllocSize b m.maxcpus :=
      fun hk => lt_of_lt_of_le (m.lt_maxcpus k hk) m.maxcpus_le.1
    simp only [List.mem_toFinset, List.mem_filter, List.mem_range, Finset.mem_filter, hx]
    exact ⟨And.right, fun h => ⟨hlt h.1, h⟩⟩
  rw [List.countP_eq_length_filter, ← List.toFinset_card_of_nodup (List.nodup_range.filter _), hset,
    m.card_filter_place]

/-- A mask of the CPUs in a part of the machine decodes to the size of the part. -/
lemma cpumaskParse_part {mask : MaskText} {str : HeapString} (htext : str.text = mask.render)
    (hdigits : mask.digits.length < 2 ^ 29) (A : Finset (Fin S × Fin C × Fin T))
    (hbits : ∀ k, mask.number.testBit k = true ↔ k ∈ m.cpus ∧ m.place k ∈ A) {set : CpuSet b}
    (hset : set.length = m.memory.length) :
    ∃ set', cpumaskParse (cpuAllocSize b m.maxcpus) (some str) set = (Int32.ofNat A.card, set') ∧
      set'.length = m.memory.length := by
  obtain ⟨-, hcount⟩ := decodesExactly_cpumaskParse htext hdigits (m.fills hset)
  rw [m.countP_testBit A hbits] at hcount
  have hcard : A.card < 2 ^ 31 := by
    calc A.card = (m.cpus.filter fun cpu => m.place cpu ∈ A).card := (m.card_filter_place A).symm
      _ ≤ m.cpus.card := Finset.card_filter_le _ _
      _ ≤ m.maxcpus := m.card_le
      _ < 2 ^ 31 := m.maxcpus_lt
  refine ⟨_, Prod.ext ?_ rfl, ?_⟩
  · rw [← Int32.toInt_inj, hcount, Int32.toInt_ofNat_of_lt hcard]
  · rw [length_cpumaskParse htext hdigits, hset]

/-- The CPUs of the core of a CPU. -/
def corePart (p : Fin S × Fin C × Fin T) : Finset (Fin S × Fin C × Fin T) :=
  {p.1} ×ˢ ({p.2.1} ×ˢ Finset.univ)

/-- The CPUs of its socket. -/
def socketPart (p : Fin S × Fin C × Fin T) : Finset (Fin S × Fin C × Fin T) :=
  {p.1} ×ˢ Finset.univ

lemma card_corePart (p : Fin S × Fin C × Fin T) : (corePart p).card = T := by simp [corePart]

lemma card_socketPart (p : Fin S × Fin C × Fin T) : (socketPart p).card = C * T := by
  simp [socketPart]

include m in
lemma pos : 0 < S ∧ 0 < C ∧ 0 < T := by
  obtain ⟨cpu, -⟩ := m.nonempty
  exact ⟨(m.place cpu).1.pos, (m.place cpu).2.1.pos, (m.place cpu).2.2.pos⟩

include m in
lemma card_lt : S * (C * T) < 2 ^ 31 := m.card_cpus ▸ lt_of_le_of_lt m.card_le m.maxcpus_lt

include m in
lemma numbers_lt : S < 2 ^ 31 ∧ C < 2 ^ 31 ∧ T < 2 ^ 31 ∧ C * T < 2 ^ 31 := by
  obtain ⟨hS, hC, hT⟩ := m.pos
  have hsocket : C * T < 2 ^ 31 := lt_of_le_of_lt (Nat.le_mul_of_pos_left _ hS) m.card_lt
  refine ⟨?_, ?_, ?_, hsocket⟩
  · exact lt_of_le_of_lt (Nat.le_mul_of_pos_right _ (Nat.mul_pos hC hT)) m.card_lt
  · exact lt_of_le_of_lt (Nat.le_mul_of_pos_right _ hT) hsocket
  · exact lt_of_le_of_lt (Nat.le_mul_of_pos_left _ hC) hsocket

/-- The numbers of the machine. -/
def cputopology (S C T : ℕ) : Cputopology := ⟨UInt32.ofNat S, UInt32.ofNat C, UInt32.ofNat T⟩

/-- The number of CPUs that are online. -/
lemma toUInt32_online {cpu : ℕ} (hcpu : cpu ∈ m.cpus) :
    (if m.files.online cpu > 0 then (m.files.online cpu).toUInt32 else 0)
      = UInt32.ofNat (S * (C * T)) := by
  obtain ⟨hS, hC, hT⟩ := m.pos
  have hint : m.files.online cpu = Int32.ofNat (S * (C * T)) := by
    rw [← Int32.toInt_inj, m.online_eq cpu hcpu, m.card_cpus, Int32.toInt_ofNat_of_lt m.card_lt]
  have hpos : Int32.ofNat (S * (C * T)) > 0 := by
    rw [gt_iff_lt, Int32.lt_iff_toInt_lt, Int32.toInt_ofNat_of_lt m.card_lt]
    exact Int.natCast_pos.2 (Nat.mul_pos hS (Nat.mul_pos hC hT))
  rw [hint, if_pos hpos]
  exact Int32.toUInt32_ofNat'

include m in
/-- The cores of a socket, the cores, and the sockets. -/
lemma divide_counts :
    divide (UInt32.ofNat (C * T)) (UInt32.ofNat T) = .ok (UInt32.ofNat C) ∧
    divide (UInt32.ofNat (S * (C * T))) (UInt32.ofNat T) = .ok (UInt32.ofNat (S * C)) ∧
    divide (UInt32.ofNat (S * C)) (UInt32.ofNat C) = .ok (UInt32.ofNat S) := by
  obtain ⟨-, hC, hT⟩ := m.pos
  obtain ⟨-, hClt, hTlt, hsocketLt⟩ := m.numbers_lt
  have hlt := m.card_lt
  have hcores : S * C ≤ S * (C * T) := Nat.mul_le_mul_left _ (Nat.le_mul_of_pos_right _ hT)
  refine ⟨?_, ?_, ?_⟩
  · rw [divide_ofNat (by omega) hT (by omega), Nat.mul_div_cancel _ hT]
  · rw [divide_ofNat (by omega) hT (by omega), ← Nat.mul_assoc, Nat.mul_div_cancel _ hT]
  · rw [divide_ofNat (by omega) hC (by omega), Nat.mul_div_cancel _ hC]

/-- The turn of a CPU of the machine. -/
lemma cputopologyStep_mem {cpu : ℕ} (hcpu : cpu ∈ m.cpus) (s : Cputopology × CpuSet b)
    (hset : s.2.length = m.memory.length) :
    ∃ set, cputopologyStep (cpuAllocSize b m.maxcpus) m.files s cpu = .ok (cputopology S C T, set) ∧
      set.length = m.memory.length := by
  obtain ⟨⟨threads, hthreads, hthreadsText⟩, cores, hcores, hcoresText⟩ := m.files_eq cpu hcpu
  obtain ⟨hthreadDigits, hcoreDigits⟩ := m.digits_lt cpu hcpu
  have hthreadBits : ∀ k, (m.threadMask cpu).number.testBit k = true ↔
      k ∈ m.cpus ∧ m.place k ∈ corePart (m.place cpu) := by
    intro k
    simp only [corePart, Finset.mem_product, Finset.mem_singleton, Finset.mem_univ, and_true]
    exact m.testBit_threadMask cpu hcpu k
  have hcoreBits : ∀ k, (m.coreMask cpu).number.testBit k = true ↔
      k ∈ m.cpus ∧ m.place k ∈ socketPart (m.place cpu) := by
    intro k
    simp only [socketPart, Finset.mem_product, Finset.mem_singleton, Finset.mem_univ, and_true]
    exact m.testBit_coreMask cpu hcpu k
  obtain ⟨set₁, hparse₁, hset₁⟩ :=
    m.cpumaskParse_part hthreadsText hthreadDigits _ hthreadBits hset
  obtain ⟨set₂, hparse₂, hset₂⟩ := m.cpumaskParse_part hcoresText hcoreDigits _ hcoreBits hset₁
  rw [card_corePart] at hparse₁
  rw [card_socketPart] at hparse₂
  obtain ⟨hS, hC, hT⟩ := m.pos
  obtain ⟨hSlt, hClt, hTlt, -⟩ := m.numbers_lt
  obtain ⟨hcoreCount, hcpuCount, hsocketCount⟩ := m.divide_counts
  refine ⟨set₂, ?_, hset₂⟩
  rw [cputopologyStep, hthreads, hcores]
  simp only [hparse₁, hparse₂, m.toUInt32_online hcpu, Int32.toUInt32_ofNat', Except.ok_bind,
    atLeastOne_ofNat hT (by omega), hcoreCount, atLeastOne_ofNat hC (by omega), hcpuCount,
    hsocketCount, atLeastOne_ofNat hS (by omega)]
  rfl

lemma cputopologyStep_notMem {cpu : ℕ} (hcpu : cpu ∉ m.cpus) (s : Cputopology × CpuSet b) :
    cputopologyStep (cpuAllocSize b m.maxcpus) m.files s cpu = .ok s := by
  rw [cputopologyStep, m.no_files cpu hcpu]

/-- Once a CPU of the machine has been read, the numbers are those of the machine. -/
lemma foldlM_cputopologyStep (cpus : List ℕ) (s : Cputopology × CpuSet b)
    (hset : s.2.length = m.memory.length)
    (hs : s.1 = cputopology S C T ∨ ∃ cpu ∈ cpus, cpu ∈ m.cpus) :
    ∃ set, cpus.foldlM (cputopologyStep (cpuAllocSize b m.maxcpus) m.files) s
      = .ok (cputopology S C T, set) := by
  induction cpus generalizing s with
  | nil =>
    rcases hs with hs | ⟨_, hmem, -⟩
    · exact ⟨s.2, congrArg Except.ok (Prod.ext hs rfl)⟩
    · exact absurd hmem List.not_mem_nil
  | cons cpu cpus ih =>
    rw [List.foldlM_cons]
    by_cases hcpu : cpu ∈ m.cpus
    · obtain ⟨set, hstep, hset'⟩ := m.cputopologyStep_mem hcpu s hset
      rw [hstep, Except.ok_bind]
      exact ih _ hset' (.inl rfl)
    · rw [m.cputopologyStep_notMem hcpu, Except.ok_bind]
      apply ih s hset
      refine hs.imp_right ?_
      rintro ⟨cpu', hmem, hcpu'⟩
      rcases List.mem_cons.1 hmem with rfl | hmem
      · exact absurd hcpu' hcpu
      · exact ⟨cpu', hmem, hcpu'⟩

lemma getCputopologyRead_eq :
    getCputopologyRead m.maxcpus (some m.memory) m.files = .ok (cputopology S C T) := by
  obtain ⟨cpu, hcpu⟩ := m.nonempty
  have hrange : cpu ∈ List.range m.maxcpus := List.mem_range.2 (m.lt_maxcpus cpu hcpu)
  obtain ⟨set, hrun⟩ := m.foldlM_cputopologyStep (List.range m.maxcpus) (⟨1, 1, 1⟩, m.memory) rfl
    (.inr ⟨cpu, hrange, hcpu⟩)
  rw [getCputopologyRead, hrun]
  rfl

end Machine

/-- No division fails and no number is zero, and for a homogeneous machine the numbers are the true
ones. -/
theorem cputopology_positive_and_exact (b : LongBit) :
    (∀ maxcpus (set : Option (CpuSet b)) files,
      ∃ t, getCputopologyRead maxcpus set files = .ok t ∧ t.Positive) ∧
    ∀ (S C T : ℕ) (m : Machine b S C T),
      ∃ t, getCputopologyRead m.maxcpus (some m.memory) m.files = .ok t ∧
        t.nsockets.toNat = S ∧ t.ncores.toNat = C ∧ t.nthreads.toNat = T := by
  refine ⟨getCputopologyRead_ok, ?_⟩
  intro S C T m
  have hsize : 2 ^ 31 ≤ UInt32.size := by decide
  obtain ⟨hS, hC, hT, -⟩ := m.numbers_lt
  refine ⟨_, m.getCputopologyRead_eq, ?_, ?_, ?_⟩
  · exact UInt32.toNat_ofNat_of_lt' (lt_of_lt_of_le hS hsize)
  · exact UInt32.toNat_ofNat_of_lt' (lt_of_lt_of_le hC hsize)
  · exact UInt32.toNat_ofNat_of_lt' (lt_of_lt_of_le hT hsize)

/-! ### Two sockets of two cores of two threads -/

/-- A mask of eight CPUs, in which the CPUs 4 to 7 are those that 0 to 3 share a core with. -/
def twiceText (digit : UInt8) (h : isxdigit digit) : MaskText where
  hexPrefix := false
  groups := [[digit, digit]]
  groups_ne_nil := List.cons_ne_nil _ _
  isGroup := by simp [h]

/-- The mask of a core, and that of its socket. -/
def siblingsText (cpu : ℕ) : MaskText :=
  if cpu % 4 = 0 then twiceText '1' rfl
  else if cpu % 4 = 1 then twiceText '2' rfl
  else if cpu % 4 = 2 then twiceText '4' rfl
  else twiceText '8' rfl

def packageText (cpu : ℕ) : MaskText :=
  if cpu % 4 < 2 then twiceText '3' rfl else twiceText 'c' rfl

def eightPlace (cpu : ℕ) : Fin 2 × Fin 2 × Fin 2 :=
  (Fin.ofNat 2 (cpu / 2), Fin.ofNat 2 cpu, Fin.ofNat 2 (cpu / 4))

lemma eightPlace_bijOn : Set.BijOn eightPlace (Finset.range 8) Set.univ := by
  have hinj : ∀ i < 8, ∀ j < 8, eightPlace i = eightPlace j → i = j := by decide
  have hsurj : ∀ p, ∃ cpu < 8, eightPlace cpu = p := by decide
  refine ⟨Set.mapsTo_univ _ _, ?_, ?_⟩
  · intro i hi j hj
    exact hinj i (by simpa using hi) j (by simpa using hj)
  · intro p _
    simpa using hsurj p

lemma testBit_iff_of_lt {n : ℕ} (hn : n < 2 ^ 8) {p : ℕ → Prop}
    (h : ∀ k < 8, n.testBit k = true ↔ p k) (k : ℕ) :
    n.testBit k = true ↔ k ∈ Finset.range 8 ∧ p k := by
  rw [Finset.mem_range]
  by_cases hk : k < 8
  · simp [hk, h k hk]
  · have hsmall : n < 2 ^ k := lt_of_lt_of_le hn (Nat.pow_le_pow_right (by norm_num) (not_lt.1 hk))
    simp [hk, Nat.testBit_lt_two_pow hsmall]

lemma testBit_siblingsText : ∀ cpu ∈ Finset.range 8, ∀ k,
    (siblingsText cpu).number.testBit k = true ↔ k ∈ Finset.range 8 ∧
      (eightPlace k).1 = (eightPlace cpu).1 ∧ (eightPlace k).2.1 = (eightPlace cpu).2.1 := by
  have hlt : ∀ cpu < 8, (siblingsText cpu).number < 2 ^ 8 := by decide +kernel
  have hbits : ∀ cpu < 8, ∀ k < 8, (siblingsText cpu).number.testBit k = true ↔
      (eightPlace k).1 = (eightPlace cpu).1 ∧ (eightPlace k).2.1 = (eightPlace cpu).2.1 := by
    decide +kernel
  intro cpu hcpu
  rw [Finset.mem_range] at hcpu
  exact testBit_iff_of_lt (hlt cpu hcpu) (hbits cpu hcpu)

lemma testBit_packageText : ∀ cpu ∈ Finset.range 8, ∀ k,
    (packageText cpu).number.testBit k = true ↔ k ∈ Finset.range 8 ∧
      (eightPlace k).1 = (eightPlace cpu).1 := by
  have hlt : ∀ cpu < 8, (packageText cpu).number < 2 ^ 8 := by decide +kernel
  have hbits : ∀ cpu < 8, ∀ k < 8, (packageText cpu).number.testBit k = true ↔
      (eightPlace k).1 = (eightPlace cpu).1 := by
    decide +kernel
  intro cpu hcpu
  rw [Finset.mem_range] at hcpu
  exact testBit_iff_of_lt (hlt cpu hcpu) (hbits cpu hcpu)

/-- Two sockets with two cores of two threads each; every core has the CPUs `n` and `n + 4`. -/
def eightThreads : Machine .bits64 2 2 2 where
  maxcpus := 8
  maxcpus_lt := by norm_num
  memory := [0]
  memory_size := by norm_num [cpuAllocSize, LongBit.maskSize, LongBit.ncpubits]
  cpus := Finset.range 8
  nonempty := ⟨0, by decide⟩
  lt_maxcpus := by decide
  place := eightPlace
  bijOn := eightPlace_bijOn
  files :=
    { threadSiblings := fun cpu => if cpu < 8 then some ⟨0, (siblingsText cpu).render⟩ else none
      coreSiblings := fun cpu => some ⟨0, (packageText cpu).render⟩
      online := fun _ => 8 }
  threadMask := siblingsText
  coreMask := packageText
  files_eq := by
    intro cpu hcpu
    exact ⟨⟨_, if_pos (Finset.mem_range.1 hcpu), rfl⟩, ⟨_, rfl, rfl⟩⟩
  no_files := by
    intro cpu hcpu
    exact if_neg fun hlt => hcpu (Finset.mem_range.2 hlt)
  online_eq := by decide
  digits_lt := by decide
  testBit_threadMask := testBit_siblingsText
  testBit_coreMask := testBit_packageText

theorem eightThreads_cputopology :
    ∃ t, getCputopologyRead 8 (some ([0] : CpuSet .bits64)) eightThreads.files = .ok t ∧
      t.nsockets.toNat = 2 ∧ t.ncores.toNat = 2 ∧ t.nthreads.toNat = 2 :=
  (cputopology_positive_and_exact .bits64).2 2 2 2 eightThreads

end NagiosPlugins
