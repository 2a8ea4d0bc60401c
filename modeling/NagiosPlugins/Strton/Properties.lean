import NagiosPlugins.Strton.Basic

/-!
# What is accepted as an age or a size

A conversion is decided by the number that `strtod` reads, the byte at which it stops and the byte
behind that one. For a plain number the last one lies behind the terminator.
-/

namespace NagiosPlugins

open Libc

/-- `strtod` reads the number `x` without a range error, and `rest` follows it. -/
structure ReadsNumber (text : CString) (x : Double) (rest : CString) : Prop where
  strtod_eq : strtod text = (x, rest)
  ne : rest ≠ text
  inRange : x.rangeError = false

/-- A text that is one number. -/
def PlainNumber (text : CString) : Prop := ∃ x, ReadsNumber text x []

/-- The index at which `strtod` stops, when `rest` is left. -/
def stopIndex (s : Stored) (rest : CString) : ℕ := s.text.length - rest.length

/-! ### The outcomes of a conversion -/

section Outcomes

variable {s : Stored} {x : Double} {rest : CString}

lemma ReadsNumber.text_eq (h : ReadsNumber s.text x rest) :
    ∃ front, front ≠ [] ∧ s.text = front ++ rest ∧ stopIndex s rest = front.length := by
  have hsuffix := strtod_suffix s.text
  rw [h.strtod_eq] at hsuffix
  obtain ⟨front, hfront⟩ := hsuffix
  refine ⟨front, ?_, hfront.symm, ?_⟩
  · rintro rfl
    exact h.ne hfront
  · rw [stopIndex, ← hfront, List.length_append, Nat.add_sub_cancel]

lemma ReadsNumber.stopIndex_ne_zero (h : ReadsNumber s.text x rest) : stopIndex s rest ≠ 0 := by
  obtain ⟨front, hfront, -, hstop⟩ := h.text_eq
  rw [hstop]
  exact fun hzero => hfront (List.length_eq_zero_iff.1 hzero)

lemma ReadsNumber.byte_zero (h : ReadsNumber s.text x rest) : s.byte 0 ≠ 0 := by
  obtain ⟨front, hfront, htext, -⟩ := h.text_eq
  rw [Ne, Stored.byte_zero_eq_zero_iff, htext]
  simp [hfront]

/-- The byte behind the one at which `strtod` stops. -/
def byteBehind (s : Stored) : CString → UInt8
  | [] => s.following 0
  | _ :: rest => rest.head?.getD 0

lemma ReadsNumber.bytes (h : ReadsNumber s.text x rest) :
    s.byte (stopIndex s rest) = rest.head?.getD 0 ∧
      s.byte (stopIndex s rest + 1) = byteBehind s rest := by
  obtain ⟨front, -, htext, hstop⟩ := h.text_eq
  have hbyte := Stored.byte_of_text_eq htext
  rw [hstop]
  constructor
  · have h0 := hbyte 0
    rw [Nat.add_zero] at h0
    cases rest with
    | nil => simpa using h0
    | cons c rest => simpa using h0
  · have h1 := hbyte 1
    cases rest with
    | nil => simpa [byteBehind] using h1
    | cons c rest =>
      cases rest with
      | nil => simpa [byteBehind] using h1
      | cons d rest => simpa [byteBehind] using h1

variable (converter : Converter) (unspecified : Double → Int64) (scale : ℕ → Double → Double)
  {factor : UInt8 → Option ℕ} {n : ℕ} (result : Int64) (errmesg : Option CString)

lemma strtollint_of_reads (h : ReadsNumber s.text x rest) :
    strtollint converter (some s) result errmesg
      = let (res, result) := converter x (s.byte (stopIndex s rest)) result
        if res < 0 then
          ⟨-1, result, some (ascii "invalid suffix `" ++ s.byte (stopIndex s rest)
            :: ascii "' in `" ++ s.text ++ ascii "'")⟩
        else if s.byte (stopIndex s rest + 1) ≠ 0 then
          ⟨-1, result, some (ascii "invalid trailing character `"
            ++ s.byte (stopIndex s rest + 1) :: ascii "' in `" ++ s.text ++ ascii "'")⟩
        else ⟨0, result, errmesg⟩ := by
  have hread : ¬ x.rangeError ∧ s.text.length - rest.length ≠ 0 :=
    ⟨by simp [h.inRange], h.stopIndex_ne_zero⟩
  simp only [strtollint, if_neg h.byte_zero, h.strtod_eq, if_pos hread]
  rfl

lemma not_read {text : CString} (h : ¬ ∃ x rest, ReadsNumber text x rest)
    (hstrtod : strtod text = (x, rest)) :
    ¬ (¬ x.rangeError ∧ text.length - rest.length ≠ 0) := by
  rintro ⟨hrange, hstop⟩
  refine h ⟨x, rest, hstrtod, ?_, by simpa using hrange⟩
  rintro rfl
  exact hstop (Nat.sub_self _)

/-- The string does not start with a number that can be read. -/
lemma strtollint_of_not_reads (h : ¬ ∃ x rest, ReadsNumber s.text x rest) :
    ∃ message, strtollint converter (some s) result errmesg = ⟨-1, result, some message⟩ := by
  by_cases hempty : s.byte 0 = 0
  · simp only [strtollint, if_pos hempty]
    exact ⟨_, rfl⟩
  obtain ⟨⟨x, rest⟩, hstrtod⟩ : ∃ p, strtod s.text = p := ⟨_, rfl⟩
  simp only [strtollint, if_neg hempty, hstrtod, if_neg (not_read h hstrtod)]
  exact ⟨_, rfl⟩

/-- What `*result` becomes when the suffix is known. -/
def scaledResult (x : Double) (n : ℕ) : Int64 :=
  (scale n x).toInt64?.getD (unspecified (scale n x))

lemma strtollint_bad_suffix (h : ReadsNumber s.text x rest)
    (hfactor : factor (s.byte (stopIndex s rest)) = none) :
    ∃ message, strtollint (multiplier unspecified scale factor) (some s) result errmesg
      = ⟨-1, result, some message⟩ := by
  rw [strtollint_of_reads _ result errmesg h]
  simp only [multiplier, hfactor]
  exact ⟨_, rfl⟩

lemma strtollint_trailing (h : ReadsNumber s.text x rest)
    (hfactor : factor (s.byte (stopIndex s rest)) = some n)
    (hbehind : s.byte (stopIndex s rest + 1) ≠ 0) :
    ∃ message, strtollint (multiplier unspecified scale factor) (some s) result errmesg
      = ⟨-1, scaledResult unspecified scale x n, some message⟩ := by
  rw [strtollint_of_reads _ result errmesg h]
  simp only [multiplier, hfactor, if_pos hbehind]
  exact ⟨_, rfl⟩

lemma strtollint_accepted (h : ReadsNumber s.text x rest)
    (hfactor : factor (s.byte (stopIndex s rest)) = some n)
    (hbehind : s.byte (stopIndex s rest + 1) = 0) :
    strtollint (multiplier unspecified scale factor) (some s) result errmesg
      = ⟨0, scaledResult unspecified scale x n, errmesg⟩ := by
  rw [strtollint_of_reads _ result errmesg h]
  simp only [multiplier, hfactor, hbehind]
  rfl

/-- What `strtod` reads is unique. -/
lemma ReadsNumber.unique {text : CString} {y : Double} {rest' : CString}
    (h : ReadsNumber text x rest) (h' : ReadsNumber text y rest') : x = y ∧ rest = rest' :=
  Prod.mk.inj (h.strtod_eq.symm.trans h'.strtod_eq)

/-- A conversion fails in front of the suffix or at it, fails behind it, or succeeds. -/
lemma strtollint_cases (s : Stored) (factor : UInt8 → Option ℕ) :
    (∃ message, strtollint (multiplier unspecified scale factor) (some s) result errmesg
        = ⟨-1, result, some message⟩ ∧
      ∀ x rest, ReadsNumber s.text x rest → factor (s.byte (stopIndex s rest)) = none) ∨
    ∃ x rest n, ReadsNumber s.text x rest ∧ factor (s.byte (stopIndex s rest)) = some n ∧
      (s.byte (stopIndex s rest + 1) ≠ 0 ∧
        (∃ message, strtollint (multiplier unspecified scale factor) (some s) result errmesg
          = ⟨-1, scaledResult unspecified scale x n, some message⟩) ∨
      s.byte (stopIndex s rest + 1) = 0 ∧
        strtollint (multiplier unspecified scale factor) (some s) result errmesg
          = ⟨0, scaledResult unspecified scale x n, errmesg⟩) := by
  by_cases hreads : ∃ x rest, ReadsNumber s.text x rest
  · obtain ⟨x, rest, h⟩ := hreads
    cases hfactor : factor (s.byte (stopIndex s rest)) with
    | none =>
      obtain ⟨message, heq⟩ := strtollint_bad_suffix unspecified scale result errmesg h hfactor
      refine .inl ⟨message, heq, ?_⟩
      intro y rest' h'
      obtain ⟨-, rfl⟩ := h.unique h'
      exact hfactor
    | some n =>
      refine .inr ⟨x, rest, n, h, hfactor, ?_⟩
      by_cases hbehind : s.byte (stopIndex s rest + 1) = 0
      · exact .inr ⟨hbehind, strtollint_accepted unspecified scale result errmesg h hfactor hbehind⟩
      · exact .inl ⟨hbehind, strtollint_trailing unspecified scale result errmesg h hfactor hbehind⟩
  · obtain ⟨message, heq⟩ :=
      strtollint_of_not_reads (multiplier unspecified scale factor) result errmesg hreads
    exact .inl ⟨message, heq, fun x rest h => absurd ⟨x, rest, h⟩ hreads⟩

/-- Success needs a number, a known suffix and the end of the string behind it. -/
lemma code_eq_zero_iff :
    (strtollint (multiplier unspecified scale factor) (some s) result errmesg).code = 0 ↔
      ∃ x rest n, ReadsNumber s.text x rest ∧ factor (s.byte (stopIndex s rest)) = some n ∧
        s.byte (stopIndex s rest + 1) = 0 := by
  constructor
  · intro hcode
    rcases strtollint_cases unspecified scale result errmesg s factor with
      ⟨message, heq, -⟩ | ⟨x, rest, n, h, hfactor, ⟨-, message, heq⟩ | ⟨hbehind, -⟩⟩
    · rw [heq] at hcode
      cases hcode
    · rw [heq] at hcode
      cases hcode
    · exact ⟨x, rest, n, h, hfactor, hbehind⟩
  · rintro ⟨x, rest, n, h, hfactor, hbehind⟩
    rw [strtollint_accepted unspecified scale result errmesg h hfactor hbehind]

/-- A conversion that does not succeed gives a message. -/
lemma refuses_of_code_ne_zero
    (hcode : (strtollint (multiplier unspecified scale factor) (some s) result errmesg).code ≠ 0) :
    (strtollint (multiplier unspecified scale factor) (some s) result errmesg).code = -1 ∧
      (strtollint (multiplier unspecified scale factor) (some s) result errmesg).errmesg
        ≠ none := by
  rcases strtollint_cases unspecified scale result errmesg s factor with
    ⟨message, heq, -⟩ | ⟨x, rest, n, h, hfactor, ⟨-, message, heq⟩ | ⟨-, heq⟩⟩
  · simp [heq]
  · simp [heq]
  · rw [heq] at hcode
    exact absurd rfl hcode

end Outcomes

end NagiosPlugins
