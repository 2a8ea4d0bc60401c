import NagiosPlugins.Cputopology.Mask

/-!
# What a mask decodes to

`cpumask_parse` sets the bits of the number that a mask denotes, as far as the set has room for
them, and counts them. The set has to consist of whole words, and the number of a CPU has to fit
into an `int`.
-/

namespace NagiosPlugins

open Libc

variable {b : LongBit}

/-! ### The characters of a mask -/

namespace MaskText

variable (m : MaskText)

lemma isxdigit_of_mem_digits {c : UInt8} (hc : c ∈ m.digits) : isxdigit c := by
  obtain ⟨g, hg, hc⟩ := List.mem_flatten.1 hc
  exact (m.isGroup g hg).2 c hc

lemma mem_intercalate {groups : List (List UInt8)} {c : UInt8}
    (hc : c ∈ List.intercalate [(',' : UInt8)] groups) : c ∈ groups.flatten ∨ c = ',' := by
  induction groups with
  | nil => simp [List.intercalate] at hc
  | cons g groups ih =>
    cases groups with
    | nil =>
      left
      simpa [List.intercalate] using hc
    | cons g' groups =>
      rw [intercalate_cons_cons, List.mem_append, List.mem_cons] at hc
      rw [List.flatten_cons, List.mem_append]
      rcases hc with hc | hc | hc
      · exact .inl (.inl hc)
      · exact .inr hc
      · exact (ih hc).imp_left .inr

/-- There are fewer commas than digits. -/
lemma length_intercalate_le {groups : List (List UInt8)} (hgroups : ∀ g ∈ groups, g ≠ []) :
    (List.intercalate [(',' : UInt8)] groups).length ≤ 2 * groups.flatten.length := by
  induction groups with
  | nil => simp [List.intercalate]
  | cons g groups ih =>
    obtain ⟨hg, hgroups⟩ := List.forall_mem_cons.1 hgroups
    have hpos := List.length_pos_of_ne_nil hg
    cases groups with
    | nil =>
      simp [List.intercalate]
      omega
    | cons g' groups =>
      have hrest := ih hgroups
      rw [intercalate_cons_cons, List.flatten_cons, List.length_append, List.length_append,
        List.length_cons]
      omega

lemma length_render_lt (h : m.digits.length < 2 ^ 29) : m.render.length < 2 ^ 31 := by
  have hbody : m.body.length ≤ 2 * m.digits.length :=
    length_intercalate_le fun g hg => (m.isGroup g hg).1
  have hprefix : (if m.hexPrefix then ascii "0x" else []).length ≤ 2 := by
    cases m.hexPrefix <;> decide
  rw [render, List.length_append]
  omega

lemma body_ne_nil : m.body ≠ [] := by
  obtain ⟨g, groups, hgroups⟩ := List.exists_cons_of_ne_nil m.groups_ne_nil
  have hg := (m.isGroup g (by simp [hgroups])).1
  rw [body, hgroups]
  cases groups with
  | nil => simpa [List.intercalate] using hg
  | cons g' groups => simp [List.intercalate, hg]

/-- Only the prefix can look like one. -/
lemma not_hasPrefix_body : hasPrefix m.body (ascii "0x") = false := by
  rw [Bool.eq_false_iff, Ne, hasPrefix_iff]
  intro hprefix
  have hx : ('x' : UInt8) ∈ m.body := hprefix.mem (by decide)
  rcases mem_intercalate hx with hdigit | hcomma
  · exact absurd (m.isxdigit_of_mem_digits hdigit) (by decide)
  · exact absurd hcomma (by decide)

/-- The loop reads the digits of the mask from the last to the first. -/
lemma cpumaskParse_render {str : HeapString} (htext : str.text = m.render)
    (hlen : m.render.length < 2 ^ 31) (setsize : ℕ) (set : CpuSet b) :
    cpumaskParse setsize (some str) set
      = let set := cpumaskDigits setsize m.digits.reverse 0 (cpuZeroS setsize set)
        (cpusetCountS setsize set, set) := by
  have hint : (Int32.ofNat m.render.length).toInt = m.render.length := Int32.toInt_ofNat_of_lt hlen
  have htake : m.render.take (Int32.ofNat m.render.length).toInt.toNat = m.render := by
    rw [hint, Int.toNat_natCast, List.take_length]
  have hloop : ∀ before, cpumaskLoop setsize before m.body.reverse 0 (cpuZeroS setsize set)
      = (true, cpumaskDigits setsize m.digits.reverse 0 (cpuZeroS setsize set)) := by
    intro before
    have hgroups := cpumaskLoop_groups setsize before m.groups_ne_nil m.isGroup [] 0
      (cpuZeroS setsize set)
    rwa [List.append_nil, cpumaskLoop] at hgroups
  rw [cpumaskParse]
  simp only [htext, htake]
  cases hprefix : m.hexPrefix with
  | true =>
    have hrender : m.render = ascii "0x" ++ m.body := by rw [render, hprefix, if_pos rfl]
    have hpos := List.length_pos_of_ne_nil m.body_ne_nil
    have hlong : 1 < Int32.ofNat m.render.length := by
      have hone : (1 : Int32).toInt = 1 := rfl
      have htwo : (ascii "0x").length = 2 := rfl
      rw [Int32.lt_iff_toInt_lt, hint, hone, hrender, List.length_append, htwo]
      omega
    have hfound : hasPrefix m.render (ascii "0x") = true := hrender ▸ hasPrefix_append _ _
    have hdrop : m.render.drop 2 = m.body := by rw [hrender]; rfl
    simp only [if_pos (And.intro hlong hfound), hdrop, hloop]
    rfl
  | false =>
    have hrender : m.render = m.body := by rw [render, hprefix]; rfl
    have hnot : ¬ (1 < Int32.ofNat m.body.length ∧ hasPrefix m.body (ascii "0x") = true) := by
      rw [m.not_hasPrefix_body]
      simp
    simp only [hrender, if_neg hnot, hloop]
    rfl

end MaskText

/-! ### The result -/

lemma length_cpuZeroS (setsize : ℕ) (set : CpuSet b) :
    (cpuZeroS setsize set).length = set.length := List.length_mapIdx

lemma cpuIsset_cpuZeroS {setsize : ℕ} {set : CpuSet b} (hsize : setsize = set.length * b.maskSize)
    (k : ℕ) : cpuIsset (cpuZeroS setsize set) k = false := by
  have hpos : 0 < b.maskSize := by cases b <;> decide
  rw [cpuIsset, cpuZeroS, hsize, Nat.mul_div_cancel _ hpos, List.getElem?_mapIdx]
  cases hget : set[k / b.ncpubits]? with
  | none => simp
  | some word =>
    have hindex : k / b.ncpubits < set.length := (List.getElem?_eq_some_iff.1 hget).1
    simp [hindex]

/-- The bits that are set are those of the number, as far as there is room, and they are
counted. -/
def DecodesExactly (m : MaskText) (setsize : ℕ) (result : Int32 × CpuSet b) : Prop :=
  (∀ k < 8 * setsize, cpuIsset result.2 k = m.number.testBit k) ∧
  result.1.toInt = (List.range (8 * setsize)).countP m.number.testBit

lemma natOfDigits_lt {ds : List UInt8} (hds : ∀ c ∈ ds, isxdigit c) :
    natOfDigits 16 ds < 2 ^ (4 * ds.length) := by
  induction ds using List.reverseRecOn with
  | nil => decide
  | append_singleton ds c ih =>
    have hc : digitVal c < 16 := (charToVal_eq c (hds c (by simp))).2
    have hone : natOfDigits 16 [c] = digitVal c := Nat.zero_add _
    have hlow := ih fun d hd => hds d (List.mem_append_left _ hd)
    have hpow : 2 ^ (4 * (ds ++ [c]).length) = 2 ^ (4 * ds.length) * 16 := by
      rw [List.length_append, List.length_singleton, Nat.mul_succ, pow_add]
      rfl
    rw [natOfDigits_append, List.length_singleton, pow_one, hone, hpow]
    omega

lemma length_cpumaskParse {m : MaskText} {str : HeapString} (htext : str.text = m.render)
    (hdigits : m.digits.length < 2 ^ 29) (setsize : ℕ) (set : CpuSet b) :
    (cpumaskParse setsize (some str) set).2.length = set.length := by
  have hlen : 0 + 4 * m.digits.reverse.length ≤ 2 ^ 31 := by
    rw [List.length_reverse]
    omega
  rw [m.cpumaskParse_render htext (m.length_render_lt hdigits)]
  exact (length_cpumaskDigits hlen _).trans (length_cpuZeroS setsize set)

lemma decodesExactly_cpumaskParse {m : MaskText} {str : HeapString} (htext : str.text = m.render)
    (hdigits : m.digits.length < 2 ^ 29) {setsize : ℕ} {set : CpuSet b} (h : set.Fills setsize) :
    DecodesExactly m setsize (cpumaskParse setsize (some str) set) := by
  rw [m.cpumaskParse_render htext (m.length_render_lt hdigits)]
  have hzero : (cpuZeroS setsize set).Fills setsize := h.of_length_eq (length_cpuZeroS setsize set)
  have hreverse : ∀ c ∈ m.digits.reverse, isxdigit c :=
    fun c hc => m.isxdigit_of_mem_digits (List.mem_reverse.1 hc)
  have hlen : 0 + 4 * m.digits.reverse.length ≤ 2 ^ 31 := by
    rw [List.length_reverse]
    omega
  have hbits : ∀ k < 8 * setsize,
      cpuIsset (cpumaskDigits setsize m.digits.reverse 0 (cpuZeroS setsize set)) k
        = m.number.testBit k := by
    intro k hk
    have hisset := cpuIsset_cpumaskDigits hzero hreverse hlen k
    rw [cpuIsset_cpuZeroS h.size_eq, List.reverse_reverse, Nat.sub_zero] at hisset
    rw [MaskText.number, show (0 : Int32) = Int32.ofNat 0 from rfl, hisset]
    simp [hk]
  refine ⟨hbits, ?_⟩
  have hsize : (cpumaskDigits setsize m.digits.reverse 0 (cpuZeroS setsize set)).length
      = set.length :=
    (length_cpumaskDigits hlen _).trans (length_cpuZeroS setsize set)
  have hcount := cpusetCountS_eq (cpumaskDigits setsize m.digits.reverse 0 (cpuZeroS setsize set))
  rw [hsize, ← h.size_eq, ← h.bits_eq] at hcount
  have hsame : (List.range (8 * setsize)).countP
        (cpuIsset (cpumaskDigits setsize m.digits.reverse 0 (cpuZeroS setsize set)))
      = (List.range (8 * setsize)).countP m.number.testBit := by
    apply List.countP_congr
    intro k hk
    rw [hbits k (List.mem_range.1 hk)]
  have hle : (List.range (8 * setsize)).countP m.number.testBit ≤ 4 * m.digits.length :=
    BitFields.countP_testBit_le (natOfDigits_lt fun c hc => m.isxdigit_of_mem_digits hc) _
  simp only
  rw [hcount, hsame, Int32.toInt_ofNat_of_lt (by omega)]

/-- Masks are decoded exactly into sets of whole words, and `__cpuset_count_s` counts the bits of
every array of words. -/
theorem decodesExactly_masks (b : LongBit) :
    (∀ (m : MaskText) (str : HeapString) (setsize : ℕ) (set : CpuSet b), str.text = m.render →
      m.digits.length < 2 ^ 29 → set.Fills setsize →
        DecodesExactly m setsize (cpumaskParse setsize (some str) set)) ∧
    ∀ set : CpuSet b, cpusetCountS (set.length * b.maskSize) set
      = Int32.ofNat ((List.range (8 * (set.length * b.maskSize))).countP (cpuIsset set)) := by
  constructor
  · intro m str setsize set htext hdigits h
    exact decodesExactly_cpumaskParse htext hdigits h
  · intro set
    have hbits : 8 * (set.length * b.maskSize) = set.length * b.ncpubits := by
      rw [← b.eight_mul_maskSize]
      ring
    rw [hbits]
    exact cpusetCountS_eq set

/-- The mask `0x3,0000c0f1`. -/
def groupedText : MaskText where
  hexPrefix := true
  groups := [ascii "3", ascii "0000c0f1"]
  groups_ne_nil := List.cons_ne_nil _ _
  isGroup := by decide +kernel

theorem groupedText_decodesExactly :
    DecodesExactly groupedText 8
        (cpumaskParse 8 (some ⟨0, ascii "0x3,0000c0f1"⟩) ([0xff] : CpuSet .bits64)) ∧
      DecodesExactly groupedText 8
        (cpumaskParse 8 (some ⟨0, ascii "0x3,0000c0f1"⟩) ([0, 0xff] : CpuSet .bits32)) :=
  ⟨(decodesExactly_masks .bits64).1 groupedText _ 8 [0xff] (by decide +kernel)
      (by decide +kernel) ⟨by decide, by decide⟩,
    (decodesExactly_masks .bits32).1 groupedText _ 8 [0, 0xff] (by decide +kernel)
      (by decide +kernel) ⟨by decide, by decide⟩⟩

/-! ### Odd sizes -/

/-- The mask `1`. -/
def oneText : MaskText where
  hexPrefix := false
  groups := [ascii "1"]
  groups_ne_nil := List.cons_ne_nil _ _
  isGroup := by decide +kernel

/-- The one sets one bit. -/
lemma cpumaskParse_oneText (before : UInt8) (setsize : ℕ) (set : CpuSet b) :
    (cpumaskParse setsize (some ⟨before, oneText.render⟩) set).2
      = cpuSetS (sizeOfInt b 0) setsize (cpuZeroS setsize set) := by
  have hlen : oneText.render.length < 2 ^ 31 := by decide
  have hdigits : oneText.digits.reverse = [('1' : UInt8)] := rfl
  have hone : digitVal ('1' : UInt8) = 1 := by decide
  rw [oneText.cpumaskParse_render rfl hlen, hdigits]
  simp only [cpumaskDigits, hone]
  rfl

/-- A set of one byte is not counted, and a set whose bits a `size_t` cannot number stays empty. -/
theorem one_not_decodesExactly :
    ¬ DecodesExactly oneText 1 (cpumaskParse 1 (some ⟨0, ascii "1"⟩) ([0] : CpuSet .bits64)) ∧
    ¬ DecodesExactly oneText (2 ^ 29)
      (cpumaskParse (2 ^ 29) (some ⟨0, oneText.render⟩)
        (List.replicate (2 ^ 27) 0 : CpuSet .bits32)) := by
  refine ⟨?_, ?_⟩
  · rintro ⟨-, hcount⟩
    revert hcount
    decide +kernel
  · rintro ⟨hbits, -⟩
    have h0 := hbits 0 (by norm_num)
    have hlim : 8 * 2 ^ 29 % 2 ^ LongBit.bits32.ncpubits = 0 := by decide
    have hset : ∀ (cpu : ℕ) (set : CpuSet .bits32), cpuSetS cpu (2 ^ 29) set = set := by
      intro cpu set
      rw [cpuSetS, hlim, if_neg (Nat.not_lt_zero cpu)]
    have hsize : 2 ^ 29 = (List.replicate (2 ^ 27) 0 : CpuSet .bits32).length
        * LongBit.bits32.maskSize := by
      rw [List.length_replicate]
      rfl
    have hone : oneText.number.testBit 0 = true := by decide
    rw [cpumaskParse_oneText, hset, cpuIsset_cpuZeroS hsize, hone] at h0
    cases h0

end NagiosPlugins
