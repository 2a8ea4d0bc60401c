import NagiosPlugins.Cputopology.Cpuset
import NagiosPlugins.Libc.Stdlib

/-!
# CPU masks

`cpumask_parse` of `lib/cputopology.c`. It walks from the last character of a string to the first,
and steps over a comma without a look at what is in front of it. In front of a string that begins
with a comma it reads out of bounds; no stop is modelled there, but a byte that can be any.
-/

namespace NagiosPlugins

open Libc

/-- A string, and the byte that a read in front of it finds, out of bounds. -/
structure HeapString where
  before : UInt8
  text : CString

/-- `char_to_val`; `none` is -1. -/
def charToVal (c : UInt8) : Option ℕ :=
  let cl := tolower c
  if ('0' : UInt8) ≤ c ∧ c ≤ ('9' : UInt8) then some (c - ('0' : UInt8)).toNat
  else if ('a' : UInt8) ≤ cl ∧ cl ≤ ('f' : UInt8) then some (cl + (10 - ('a' : UInt8))).toNat
  else none

variable {b : LongBit}

/-- An `int` as a `size_t`. -/
def sizeOfInt (b : LongBit) (i : Int32) : ℕ := (i.toInt % 2 ^ b.ncpubits).toNat

section Parse

variable (setsize : ℕ)

/-- The bits of one digit. -/
def cpumaskDigit (val : ℕ) (cpu : Int32) (set : CpuSet b) : CpuSet b :=
  let set := if val &&& 1 ≠ 0 then cpuSetS (sizeOfInt b cpu) setsize set else set
  let set := if val &&& 2 ≠ 0 then cpuSetS (sizeOfInt b (cpu + 1)) setsize set else set
  let set := if val &&& 4 ≠ 0 then cpuSetS (sizeOfInt b (cpu + 2)) setsize set else set
  if val &&& 8 ≠ 0 then cpuSetS (sizeOfInt b (cpu + 3)) setsize set else set

/-- The loop, over the characters from `*ptr` down to the first one: whether all of them could be
read, and the set. The number of the CPU wraps around, where C leaves an overflow undefined; from
2 ^ 29 digits on it does. -/
def cpumaskLoop (before : UInt8) : CString → Int32 → CpuSet b → Bool × CpuSet b
  | [], _, set => (true, set)
  | c :: s, cpu, set =>
    if c = ',' then
      match s with
      | [] =>
        match charToVal before with
        | none => (false, set)
        | some val => (true, cpumaskDigit setsize val cpu set)
      | c :: s =>
        match charToVal c with
        | none => (false, set)
        | some val => cpumaskLoop before s (cpu + 4) (cpumaskDigit setsize val cpu set)
    else
      match charToVal c with
      | none => (false, set)
      | some val => cpumaskLoop before s (cpu + 4) (cpumaskDigit setsize val cpu set)

/-- `cpumask_parse`: what it returns, and the set afterwards. -/
def cpumaskParse (str : Option HeapString) (set : CpuSet b) : Int32 × CpuSet b :=
  match str with
  | none => (-1, set)
  | some str =>
    let len := Int32.ofNat str.text.length
    let chars := str.text.take len.toInt.toNat
    let (before, chars) :=
      if 1 < len ∧ hasPrefix str.text (ascii "0x") then (('x' : UInt8), chars.drop 2)
      else (str.before, chars)
    let (ok, set) := cpumaskLoop setsize before chars.reverse 0 (cpuZeroS setsize set)
    if ok then (cpusetCountS setsize set, set) else (-1, set)

end Parse

/-! ### The text of a mask -/

/-- Groups of hexadecimal digits, and whether `0x` stands in front of them. -/
structure MaskText where
  hexPrefix : Bool
  groups : List (List UInt8)
  groups_ne_nil : groups ≠ []
  isGroup : ∀ g ∈ groups, g ≠ [] ∧ ∀ c ∈ g, isxdigit c

namespace MaskText

variable (m : MaskText)

def body : CString := List.intercalate [(',' : UInt8)] m.groups

def render : CString := (if m.hexPrefix then ascii "0x" else []) ++ m.body

def digits : List UInt8 := m.groups.flatten

/-- The number that the mask denotes. -/
def number : ℕ := natOfDigits 16 m.digits

end MaskText

/-! ### Bits -/

lemma charToVal_eq : ∀ c, isxdigit c → charToVal c = some (digitVal c) ∧ digitVal c < 16 := by
  decide +kernel

/-- The word after one of its bits has been set. -/
lemma getLsbD_or_one_shiftLeft {w : ℕ} (word : BitVec w) {i j : ℕ} (hj : j < w) :
    (word ||| (1 : BitVec w) <<< i).getLsbD j = (word.getLsbD j || decide (j = i)) := by
  rw [BitVec.getLsbD_or, BitVec.getLsbD_shiftLeft]
  congr 1
  rcases lt_trichotomy j i with h | rfl | h
  · simp [h, h.ne]
  · simp [hj, Nat.zero_lt_of_lt hj]
  · have hsub : j - i ≠ 0 := Nat.sub_ne_zero_of_lt h
    simp [hj, h.ne', BitVec.getLsbD_one, hsub]

/-- The set fills `setsize` bytes, and a `size_t` can number its bits. -/
structure CpuSet.Fills (set : CpuSet b) (setsize : ℕ) : Prop where
  size_eq : setsize = set.length * b.maskSize
  lt : 8 * setsize < 2 ^ b.ncpubits

namespace CpuSet.Fills

variable {set : CpuSet b} {setsize : ℕ}

lemma bits_eq (h : set.Fills setsize) : 8 * setsize = set.length * b.ncpubits := by
  rw [h.size_eq, ← b.eight_mul_maskSize]
  ring

lemma of_length_eq (h : set.Fills setsize) {set' : CpuSet b} (hlen : set'.length = set.length) :
    set'.Fills setsize := ⟨by rw [hlen, h.size_eq], h.lt⟩

end CpuSet.Fills

@[simp] lemma length_cpuSetS (cpu setsize : ℕ) (set : CpuSet b) :
    (cpuSetS cpu setsize set).length = set.length := by
  rw [cpuSetS]
  split_ifs
  · exact List.length_modify ..
  · rfl

/-- What a set holds after one bit has been set. -/
lemma cpuIsset_cpuSetS {setsize : ℕ} {set : CpuSet b} (h : set.Fills setsize) (cpu k : ℕ) :
    cpuIsset (cpuSetS cpu setsize set) k
      = (cpuIsset set k || decide (k = cpu ∧ cpu < 8 * setsize)) := by
  rw [cpuSetS, Nat.mod_eq_of_lt h.lt]
  by_cases hcpu : cpu < 8 * setsize
  · have hindex : cpu / b.ncpubits < set.length :=
      Nat.div_lt_of_lt_mul (by rwa [Nat.mul_comm, ← h.bits_eq])
    rw [if_pos hcpu, cpuIsset, cpuIsset, List.getElem?_modify]
    by_cases hword : cpu / b.ncpubits = k / b.ncpubits
    · obtain ⟨word, hget⟩ : ∃ word, set[k / b.ncpubits]? = some word :=
        ⟨_, List.getElem?_eq_getElem (hword ▸ hindex)⟩
      have hbit : k = cpu ↔ k % b.ncpubits = cpu % b.ncpubits := by
        constructor
        · rintro rfl
          rfl
        · intro hmod
          rw [← Nat.div_add_mod k b.ncpubits, ← Nat.div_add_mod cpu b.ncpubits, hword, hmod]
      have hk := Nat.mod_lt k b.ncpubits_pos
      simp only [hget, hword, hcpu, hbit, if_true, Option.getD_some, and_true]
      exact getLsbD_or_one_shiftLeft word hk
    · have hne : k ≠ cpu := by
        rintro rfl
        exact hword rfl
      simp [hword, hne]
  · simp [hcpu]

/-- Several bits, where `p` tells which of them are set. -/
lemma cpuIsset_foldl_cpuSetS {setsize : ℕ} {set : CpuSet b} (h : set.Fills setsize)
    (p : ℕ → Bool) (cpu : ℕ → ℕ) (js : List ℕ) (k : ℕ) :
    cpuIsset (js.foldl (fun set j => if p j then cpuSetS (cpu j) setsize set else set) set) k
      = (cpuIsset set k || js.any fun j => p j && decide (k = cpu j ∧ cpu j < 8 * setsize)) := by
  induction js generalizing set with
  | nil => simp
  | cons j js ih =>
    rw [List.foldl_cons, List.any_cons]
    cases hp : p j with
    | true =>
      rw [if_pos rfl, ih (h.of_length_eq (length_cpuSetS ..)), cpuIsset_cpuSetS h, Bool.true_and,
        Bool.or_assoc]
    | false => rw [if_neg Bool.false_ne_true, ih h, Bool.false_and, Bool.false_or]

lemma sizeOfInt_ofNat {n : ℕ} (h : n < 2 ^ 31) : sizeOfInt b (Int32.ofNat n) = n := by
  have hlt : (n : ℤ) < 2 ^ b.ncpubits := by
    cases b <;> simp only [LongBit.ncpubits] <;> omega
  rw [sizeOfInt, Int32.toInt_ofNat_of_lt h, Int.emod_eq_of_lt (Int.natCast_nonneg n) hlt,
    Int.toNat_natCast]

/-! ### Digits -/

section Digits

variable {setsize : ℕ}

lemma and_two_pow_ne_zero_iff (val i : ℕ) : val &&& 2 ^ i ≠ 0 ↔ val.testBit i = true := by
  rw [Nat.and_two_pow]
  cases val.testBit i <;> simp

/-- A digit sets its bits one after the other. -/
lemma cpumaskDigit_eq (val : ℕ) {n : ℕ} (hn : n + 3 < 2 ^ 31) (set : CpuSet b) :
    cpumaskDigit setsize val (Int32.ofNat n) set
      = (List.range 4).foldl
          (fun set j => if val.testBit j then cpuSetS (n + j) setsize set else set) set := by
  have hsize : ∀ j ≤ 3, sizeOfInt b (Int32.ofNat n + Int32.ofNat j) = n + j := by
    intro j hj
    rw [← Int32.ofNat_add, sizeOfInt_ofNat (by omega)]
  have h0 : sizeOfInt b (Int32.ofNat n) = n := sizeOfInt_ofNat (by omega)
  have h1 : sizeOfInt b (Int32.ofNat n + 1) = n + 1 := hsize 1 (by norm_num)
  have h2 : sizeOfInt b (Int32.ofNat n + 2) = n + 2 := hsize 2 (by norm_num)
  have h3 : sizeOfInt b (Int32.ofNat n + 3) = n + 3 := hsize 3 (by norm_num)
  have hbit : ∀ i, val &&& 2 ^ i ≠ 0 ↔ val.testBit i = true := and_two_pow_ne_zero_iff val
  have hb0 : val &&& 1 ≠ 0 ↔ val.testBit 0 = true := hbit 0
  have hb1 : val &&& 2 ≠ 0 ↔ val.testBit 1 = true := hbit 1
  have hb2 : val &&& 4 ≠ 0 ↔ val.testBit 2 = true := hbit 2
  have hb3 : val &&& 8 ≠ 0 ↔ val.testBit 3 = true := hbit 3
  have hrange : List.range 4 = [0, 1, 2, 3] := rfl
  simp only [cpumaskDigit, h0, h1, h2, h3, hb0, hb1, hb2, hb3, hrange, List.foldl_cons,
    List.foldl_nil, Nat.add_zero]

lemma length_cpumaskDigit (val : ℕ) {n : ℕ} (hn : n + 3 < 2 ^ 31) (set : CpuSet b) :
    (cpumaskDigit setsize val (Int32.ofNat n) set).length = set.length := by
  rw [cpumaskDigit_eq val hn]
  induction List.range 4 generalizing set with
  | nil => rfl
  | cons j js ih =>
    rw [List.foldl_cons, ih]
    split_ifs
    · exact length_cpuSetS ..
    · rfl

/-- A digit sets its four bits. -/
lemma cpuIsset_cpumaskDigit {set : CpuSet b} (h : set.Fills setsize) {val : ℕ} (hval : val < 16)
    {n : ℕ} (hn : n + 3 < 2 ^ 31) (k : ℕ) :
    cpuIsset (cpumaskDigit setsize val (Int32.ofNat n) set) k
      = (cpuIsset set k || (decide (n ≤ k ∧ k < 8 * setsize) && val.testBit (k - n))) := by
  rw [cpumaskDigit_eq val hn, cpuIsset_foldl_cpuSetS h]
  congr 1
  rw [Bool.eq_iff_iff]
  simp only [List.any_eq_true, List.mem_range, Bool.and_eq_true, decide_eq_true_eq]
  constructor
  · rintro ⟨j, -, hbit, rfl, hlt⟩
    rw [Nat.add_sub_cancel_left]
    exact ⟨⟨Nat.le_add_right n j, hlt⟩, hbit⟩
  · rintro ⟨⟨hle, hlt⟩, hbit⟩
    have hj : k - n < 4 := by
      by_contra hj
      have hsmall : val < 2 ^ (k - n) :=
        lt_of_lt_of_le hval (Nat.pow_le_pow_right (n := 2) (by norm_num) (not_lt.1 hj))
      rw [Nat.testBit_lt_two_pow hsmall] at hbit
      cases hbit
    exact ⟨k - n, hj, hbit, by omega, by omega⟩

/-- The bits of successive digits. -/
def cpumaskDigits (setsize : ℕ) : List UInt8 → Int32 → CpuSet b → CpuSet b
  | [], _, set => set
  | c :: ds, cpu, set =>
    cpumaskDigits setsize ds (cpu + 4) (cpumaskDigit setsize (digitVal c) cpu set)

/-- Each digit takes four bits. -/
lemma add_four_add_ofNat (c : UInt8) (ds : List UInt8) (cpu : Int32) :
    cpu + 4 + Int32.ofNat (4 * ds.length) = cpu + Int32.ofNat (4 * (c :: ds).length) := by
  rw [List.length_cons, Nat.mul_succ, Nat.add_comm, Int32.ofNat_add, Int32.add_assoc]
  rfl

lemma cpumaskDigits_append (ds es : List UInt8) (cpu : Int32) (set : CpuSet b) :
    cpumaskDigits setsize (ds ++ es) cpu set
      = cpumaskDigits setsize es (cpu + Int32.ofNat (4 * ds.length))
          (cpumaskDigits setsize ds cpu set) := by
  induction ds generalizing cpu set with
  | nil => simp [cpumaskDigits]
  | cons c ds ih =>
    rw [List.cons_append, cpumaskDigits, ih, add_four_add_ofNat c]
    rfl

lemma length_cpumaskDigits {ds : List UInt8} {n : ℕ} (hn : n + 4 * ds.length ≤ 2 ^ 31)
    (set : CpuSet b) :
    (cpumaskDigits setsize ds (Int32.ofNat n) set).length = set.length := by
  induction ds generalizing n set with
  | nil => rfl
  | cons c ds ih =>
    rw [List.length_cons] at hn
    have hnext : Int32.ofNat n + 4 = Int32.ofNat (n + 4) := (Int32.ofNat_add n 4).symm
    rw [cpumaskDigits, hnext, ih (by omega), length_cpumaskDigit _ (by omega)]

/-- The digits set the bits of the number that they denote, the digit of least weight first. -/
lemma cpuIsset_cpumaskDigits {set : CpuSet b} (h : set.Fills setsize) {ds : List UInt8}
    (hds : ∀ c ∈ ds, isxdigit c) {n : ℕ} (hn : n + 4 * ds.length ≤ 2 ^ 31) (k : ℕ) :
    cpuIsset (cpumaskDigits setsize ds (Int32.ofNat n) set) k
      = (cpuIsset set k || (decide (n ≤ k ∧ k < 8 * setsize)
          && (natOfDigits 16 ds.reverse).testBit (k - n))) := by
  induction ds generalizing n set with
  | nil => simp [cpumaskDigits, natOfDigits]
  | cons c ds ih =>
    obtain ⟨hc, hds⟩ := List.forall_mem_cons.1 hds
    obtain ⟨-, hval⟩ := charToVal_eq c hc
    rw [List.length_cons] at hn
    have hnext : Int32.ofNat n + 4 = Int32.ofNat (n + 4) := (Int32.ofNat_add n 4).symm
    have hlen : (cpumaskDigit setsize (digitVal c) (Int32.ofNat n) set).length = set.length :=
      length_cpumaskDigit _ (by omega) set
    have hnumber : natOfDigits 16 (c :: ds).reverse
        = 2 ^ 4 * natOfDigits 16 ds.reverse + digitVal c := by
      rw [List.reverse_cons, natOfDigits_append, List.length_singleton, pow_one, mul_comm]
      congr 1
      exact Nat.zero_add _
    rw [cpumaskDigits, hnext, ih (h.of_length_eq hlen) hds (by omega),
      cpuIsset_cpumaskDigit h hval (by omega), hnumber, Bool.or_assoc]
    congr 1
    rw [Nat.testBit_two_pow_mul_add _ (by omega)]
    by_cases hk : k - n < 4
    · have hfar : ¬ n + 4 ≤ k := by omega
      simp [hk, hfar]
    · have hsmall : digitVal c < 2 ^ (k - n) :=
        lt_of_lt_of_le hval (Nat.pow_le_pow_right (n := 2) (by norm_num) (not_lt.1 hk))
      have hnear : n + 4 ≤ k ↔ n ≤ k := by omega
      simp [hk, Nat.testBit_lt_two_pow hsmall, hnear, Nat.sub_sub]

end Digits

/-! ### The loop -/

section Loop

variable {setsize : ℕ} {before : UInt8}

lemma ne_comma_of_isxdigit : ∀ c, isxdigit c → c ≠ ',' := by decide +kernel

/-- A digit sets its bits. -/
lemma cpumaskLoop_digit {c : UInt8} (hc : isxdigit c) (s : CString) (cpu : Int32)
    (set : CpuSet b) :
    cpumaskLoop setsize before (c :: s) cpu set
      = cpumaskLoop setsize before s (cpu + 4) (cpumaskDigit setsize (digitVal c) cpu set) := by
  have hne := ne_comma_of_isxdigit c hc
  obtain ⟨hval, -⟩ := charToVal_eq c hc
  cases s <;> simp [cpumaskLoop, hne, hval]

/-- Digits are read one after the other. -/
lemma cpumaskLoop_digits {ds : List UInt8} (hds : ∀ c ∈ ds, isxdigit c) (s : CString)
    (cpu : Int32) (set : CpuSet b) :
    cpumaskLoop setsize before (ds ++ s) cpu set
      = cpumaskLoop setsize before s (cpu + Int32.ofNat (4 * ds.length))
          (cpumaskDigits setsize ds cpu set) := by
  induction ds generalizing cpu set with
  | nil => simp [cpumaskDigits]
  | cons c ds ih =>
    obtain ⟨hc, hds⟩ := List.forall_mem_cons.1 hds
    rw [List.cons_append, cpumaskLoop_digit hc, ih hds, add_four_add_ofNat c]
    rfl

/-- A comma in front of a digit is skipped. -/
lemma cpumaskLoop_comma {c : UInt8} (hc : isxdigit c) (s : CString) (cpu : Int32)
    (set : CpuSet b) :
    cpumaskLoop setsize before ((',' : UInt8) :: c :: s) cpu set
      = cpumaskLoop setsize before (c :: s) cpu set := by
  obtain ⟨hval, -⟩ := charToVal_eq c hc
  rw [cpumaskLoop_digit hc, cpumaskLoop, if_pos rfl]
  simp only [hval]

lemma intercalate_cons_cons (g g' : List UInt8) (groups : List (List UInt8)) :
    List.intercalate [(',' : UInt8)] (g :: g' :: groups)
      = g ++ (',' : UInt8) :: List.intercalate [(',' : UInt8)] (g' :: groups) := by
  simp [List.intercalate]

/-- The groups are read from the last to the first. -/
lemma cpumaskLoop_groups (setsize : ℕ) (before : UInt8) {groups : List (List UInt8)}
    (hne : groups ≠ []) (hgroups : ∀ g ∈ groups, g ≠ [] ∧ ∀ c ∈ g, isxdigit c) (s : CString)
    (cpu : Int32) (set : CpuSet b) :
    cpumaskLoop setsize before ((List.intercalate [(',' : UInt8)] groups).reverse ++ s) cpu set
      = cpumaskLoop setsize before s (cpu + Int32.ofNat (4 * groups.flatten.length))
          (cpumaskDigits setsize groups.flatten.reverse cpu set) := by
  induction groups generalizing s cpu set with
  | nil => exact absurd rfl hne
  | cons g groups ih =>
    obtain ⟨⟨hg, hdigits⟩, hgroups⟩ := List.forall_mem_cons.1 hgroups
    have hreverse : ∀ c ∈ g.reverse, isxdigit c := fun c hc => hdigits c (List.mem_reverse.1 hc)
    cases groups with
    | nil =>
      have hsingle : List.intercalate [(',' : UInt8)] [g] = g := by simp [List.intercalate]
      rw [hsingle, cpumaskLoop_digits hreverse]
      simp
    | cons g' groups =>
      obtain ⟨c, g'', hg''⟩ := List.exists_cons_of_ne_nil (List.reverse_ne_nil_iff.2 hg)
      have hc : isxdigit c := hreverse c (by simp [hg''])
      have hlen : cpu + Int32.ofNat (4 * (g' :: groups).flatten.length)
            + Int32.ofNat (4 * g.reverse.length)
          = cpu + Int32.ofNat (4 * (g :: g' :: groups).flatten.length) := by
        rw [Int32.add_assoc, ← Int32.ofNat_add, List.flatten_cons (l := g), List.length_append,
          List.length_reverse]
        congr 2
        ring
      have hdigitsEq : (g :: g' :: groups).flatten.reverse
          = (g' :: groups).flatten.reverse ++ g.reverse := by
        rw [List.flatten_cons (l := g), List.reverse_append]
      rw [intercalate_cons_cons, List.reverse_append, List.reverse_cons, List.append_assoc,
        List.append_assoc, ih (List.cons_ne_nil _ _) hgroups, List.singleton_append, hg'',
        List.cons_append, cpumaskLoop_comma hc, ← List.cons_append, ← hg'',
        cpumaskLoop_digits hreverse, hlen, hdigitsEq, cpumaskDigits_append, List.length_reverse]

end Loop

end NagiosPlugins
