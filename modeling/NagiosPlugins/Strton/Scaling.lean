import NagiosPlugins.Strton.Properties

/-!
# Suffixes and scaled values

Which suffixes a conversion accepts and by what it multiplies, in exact arithmetic.
-/

namespace NagiosPlugins

open Libc

/-! ### The suffixes -/

/-- The suffixes of ages in lower case, with the seconds that each stands for. -/
def ageSuffixes : List (UInt8 × ℕ) :=
  [('s', 1), ('m', 60), ('h', 3600), ('d', 86400), ('w', 604800), ('y', 31557600)]

/-- The suffixes of sizes in lower case, with their powers of 1000. -/
def sizeSuffixes : List (UInt8 × ℕ) :=
  [('b', 1000 ^ 0), ('k', 1000 ^ 1), ('m', 1000 ^ 2), ('g', 1000 ^ 3), ('t', 1000 ^ 4),
    ('p', 1000 ^ 5)]

/-- Behind a number exactly the suffixes, in either case, are accepted, each scales the number, and
everything else is refused with a message. -/
structure ScalesSuffixes (suffixes : List (UInt8 × ℕ)) (s : Stored) (converted : Converted) :
    Prop where
  accepts_iff : ∀ x rest, ReadsNumber s.text x rest → rest ≠ [] →
    (converted.code = 0 ↔ ∃ c n, rest = [c] ∧ (tolower c, n) ∈ suffixes)
  scales : ∀ q c n, ReadsNumber s.text (.fin q) [c] → (tolower c, n) ∈ suffixes →
    |q * n| < 2 ^ 63 → converted.result.toInt = if q * n < 0 then ⌈q * n⌉ else ⌊q * n⌋
  refuses : ∀ x rest, ReadsNumber s.text x rest → rest ≠ [] → converted.code ≠ 0 →
    converted.code = -1 ∧ converted.errmesg ≠ none
  no_number : (strtod s.text).2 = s.text →
    converted.code = -1 ∧ converted.errmesg ≠ none

/-- The `switch` of a multiplier knows the suffixes of a table, besides the missing one. -/
def Knows (factor : UInt8 → Option ℕ) (suffixes : List (UInt8 × ℕ)) : Prop :=
  ∀ c, c ≠ 0 →
    suffixes.filter (fun p => p.1 = tolower c) = (factor c).toList.map fun n => (tolower c, n)

instance (factor : UInt8 → Option ℕ) (suffixes : List (UInt8 × ℕ)) :
    Decidable (Knows factor suffixes) := inferInstanceAs (Decidable (∀ _, _ → _))

lemma ageFactor_knows : Knows ageFactor ageSuffixes := by decide +kernel

lemma sizeFactor_knows : Knows sizeFactor sizeSuffixes := by decide +kernel

section Scaling

variable (unspecified : Double → Int64) {factor : UInt8 → Option ℕ}
  {suffixes : List (UInt8 × ℕ)}

lemma Knows.mem_iff (h : Knows factor suffixes) {c : UInt8} (hc : c ≠ 0) (n : ℕ) :
    (tolower c, n) ∈ suffixes ↔ factor c = some n := by
  have hfilter : (tolower c, n) ∈ suffixes ↔
      (tolower c, n) ∈ suffixes.filter fun p => p.1 = tolower c := by
    simp [List.mem_filter]
  rw [hfilter, h c hc]
  simp [eq_comm]

/-- Behind a single suffix the string ends. -/
lemma ReadsNumber.bytes_singleton {s : Stored} {x : Double} {c : UInt8}
    (h : ReadsNumber s.text x [c]) :
    s.byte (stopIndex s [c]) = c ∧ s.byte (stopIndex s [c] + 1) = 0 ∧ c ≠ 0 := by
  obtain ⟨front, -, htext, -⟩ := h.text_eq
  obtain ⟨hsuffix, hbehind⟩ := h.bytes
  exact ⟨hsuffix, hbehind, Stored.ne_zero_of_mem (s := s) (by simp [htext])⟩

lemma toInt_scaledResult {q : ℚ} {n : ℕ} (h : |q * n| < 2 ^ 63) :
    (scaledResult unspecified Double.natMul (.fin q) n).toInt
      = if q * n < 0 then ⌈q * n⌉ else ⌊q * n⌋ := by
  obtain ⟨hlo, hhi⟩ := abs_lt.1 h
  have hvalue := Double.toInt_toInt64? (q := q * n) (by linarith) hhi
  obtain ⟨v, hv, htoInt⟩ := Option.map_eq_some_iff.1 hvalue
  have hmul : (Double.fin q).natMul n = .fin (q * n) := by rw [Double.natMul, mul_comm]
  rw [scaledResult, hmul, hv, Option.getD_some, htoInt]
  rfl

lemma scalesSuffixes_strtollint (hknows : Knows factor suffixes) (s : Stored) (result : Int64)
    (errmesg : Option CString) :
    ScalesSuffixes suffixes s
      (strtollint (multiplier unspecified Double.natMul factor) (some s) result errmesg) where
  accepts_iff := by
    intro x rest h hrest
    rw [code_eq_zero_iff]
    constructor
    · rintro ⟨x', rest', n, h', hfactor, hbehind⟩
      obtain ⟨rfl, rfl⟩ := h'.unique h
      obtain ⟨front, -, htext, -⟩ := h.text_eq
      obtain ⟨hbyte, hbyte'⟩ := h.bytes
      rcases rest' with _ | ⟨c, _ | ⟨d, rest⟩⟩
      · exact absurd rfl hrest
      · have hc : c ≠ 0 := Stored.ne_zero_of_mem (s := s) (by simp [htext])
        rw [hbyte] at hfactor
        exact ⟨c, n, rfl, (hknows.mem_iff hc n).2 hfactor⟩
      · have hd : d ≠ 0 := Stored.ne_zero_of_mem (s := s) (by simp [htext])
        exact absurd (hbyte'.symm.trans hbehind) hd
    · rintro ⟨c, n, rfl, hmem⟩
      obtain ⟨hbyte, hbehind, hc⟩ := h.bytes_singleton
      refine ⟨x, [c], n, h, ?_, hbehind⟩
      rw [hbyte]
      exact (hknows.mem_iff hc n).1 hmem
  scales := by
    intro q c n h hmem hlt
    obtain ⟨hbyte, hbehind, hc⟩ := h.bytes_singleton
    have hfactor : factor (s.byte (stopIndex s [c])) = some n := by
      rw [hbyte]
      exact (hknows.mem_iff hc n).1 hmem
    rw [strtollint_accepted unspecified _ result errmesg h hfactor hbehind]
    exact toInt_scaledResult unspecified hlt
  refuses := by
    intro x rest _ _ hcode
    exact refuses_of_code_ne_zero unspecified _ result errmesg hcode
  no_number := by
    intro hend
    have hreads : ¬ ∃ x rest, ReadsNumber s.text x rest := by
      rintro ⟨x, rest, h⟩
      rw [h.strtod_eq] at hend
      exact h.ne hend
    obtain ⟨message, heq⟩ :=
      strtollint_of_not_reads (multiplier unspecified Double.natMul factor) result errmesg hreads
    simp [heq]

end Scaling

/-- Suffixed ages and sizes are accepted exactly and scaled exactly. -/
theorem scalesSuffixes (unspecified : Double → Int64) (s : Stored) (result : Int64)
    (errmesg : Option CString) :
    ScalesSuffixes ageSuffixes s (agetollint unspecified (some s) result errmesg) ∧
      ScalesSuffixes sizeSuffixes s (sizetollint unspecified (some s) result errmesg) := by
  constructor
  · exact scalesSuffixes_strtollint unspecified ageFactor_knows s result errmesg
  · exact scalesSuffixes_strtollint unspecified sizeFactor_knows s result errmesg

end NagiosPlugins
