import NagiosPlugins.Strton.Properties

/-!
# The byte behind the suffix

`strtollint` looks one byte ahead to reject trailing characters. Behind a plain number this byte is
not part of the string, and it is looked at only after `*result` has been written.
-/

namespace NagiosPlugins

open Libc

/-! ### Behind the terminator -/

/-- The code and the value are the same for all contents of the memory behind the string, and a
plain number is converted whatever these are. -/
def StopsAtTerminator (convert : Option Stored → Converted) (s : Stored) : Prop :=
  (∀ s', s'.text = s.text → (convert (some s')).code = (convert (some s)).code ∧
    (convert (some s')).result = (convert (some s)).result) ∧
  (PlainNumber s.text → ∀ s', s'.text = s.text → (convert (some s')).code = 0)

/-- In front of a rest no byte behind the terminator is looked at. -/
lemma strtollint_congr (converter : Converter) {s s' : Stored} (htext : s'.text = s.text)
    (hplain : ¬ PlainNumber s.text) (result : Int64) (errmesg : Option CString) :
    strtollint converter (some s') result errmesg
      = strtollint converter (some s) result errmesg := by
  by_cases hreads : ∃ x rest, ReadsNumber s.text x rest
  · obtain ⟨x, rest, h⟩ := hreads
    have h' : ReadsNumber s'.text x rest := htext ▸ h
    have hstop : stopIndex s' rest = stopIndex s rest := by rw [stopIndex, stopIndex, htext]
    have hrest : rest ≠ [] := by
      rintro rfl
      exact hplain ⟨x, h⟩
    have hlt : stopIndex s rest < s.text.length := by
      obtain ⟨front, -, hfront, hindex⟩ := h.text_eq
      have hpos := List.length_pos_of_ne_nil hrest
      rw [hindex, hfront, List.length_append]
      exact Nat.lt_add_of_pos_right hpos
    have hbyte : s'.byte (stopIndex s rest) = s.byte (stopIndex s rest) :=
      (Stored.byte_congr htext.symm hlt.le).symm
    have hbehind : s'.byte (stopIndex s rest + 1) = s.byte (stopIndex s rest + 1) :=
      (Stored.byte_congr htext.symm hlt).symm
    rw [strtollint_of_reads converter result errmesg h,
      strtollint_of_reads converter result errmesg h', hstop, hbyte, hbehind, htext]
  · have hzero : s'.byte 0 = s.byte 0 := (Stored.byte_congr htext.symm (Nat.zero_le _)).symm
    by_cases hempty : s.byte 0 = 0
    · simp only [strtollint, hzero, if_pos hempty]
    obtain ⟨⟨x, rest⟩, hstrtod⟩ : ∃ p, strtod s.text = p := ⟨_, rfl⟩
    simp only [strtollint, hzero, if_neg hempty, htext, hstrtod,
      if_neg (not_read hreads hstrtod)]

lemma stopsAtTerminator_strtollint_iff (unspecified : Double → Int64)
    (scale : ℕ → Double → Double) {factor : UInt8 → Option ℕ} (hzero : factor 0 = some 1)
    (s : Stored) (result : Int64) (errmesg : Option CString) :
    StopsAtTerminator
        (fun str => strtollint (multiplier unspecified scale factor) str result errmesg) s ↔
      ¬ PlainNumber s.text := by
  constructor
  · rintro ⟨-, haccepts⟩ hplain
    obtain ⟨x, h⟩ := hplain
    -- the string, followed by a byte that is not NUL
    let s' := s.withFollowing fun _ => 1
    have h' : ReadsNumber s'.text x [] := h
    obtain ⟨hsuffix, hbehind⟩ := h'.bytes
    have hfactor : factor (s'.byte (stopIndex s' [])) = some 1 := by
      rw [hsuffix]
      exact hzero
    have hne : s'.byte (stopIndex s' [] + 1) ≠ 0 := by
      rw [hbehind]
      show (1 : UInt8) ≠ 0
      simp
    obtain ⟨message, heq⟩ := strtollint_trailing unspecified scale result errmesg h' hfactor hne
    have hcode := haccepts ⟨x, h⟩ s' rfl
    simp only [heq] at hcode
    cases hcode
  · intro hplain
    refine ⟨?_, fun h => absurd h hplain⟩
    intro s' htext
    have heq := strtollint_congr (multiplier unspecified scale factor) htext hplain result errmesg
    exact ⟨congrArg Converted.code heq, congrArg Converted.result heq⟩

/-- The conversion stops at the terminator exactly if the string is not one number. -/
theorem stopsAtTerminator_iff (unspecified : Double → Int64) (s : Stored) (result : Int64)
    (errmesg : Option CString) :
    (StopsAtTerminator (fun str => agetollint unspecified str result errmesg) s ↔
      ¬ PlainNumber s.text) ∧
    (StopsAtTerminator (fun str => sizetollint unspecified str result errmesg) s ↔
      ¬ PlainNumber s.text) := by
  constructor
  · exact stopsAtTerminator_strtollint_iff unspecified Double.natMul (by decide) s result errmesg
  · exact stopsAtTerminator_strtollint_iff unspecified Double.natMul (by decide) s result errmesg

/-- The argument `5`, with the next argument `/tmp` behind it. -/
def storedFive : Stored where
  text := ascii "5"
  following i := (ascii "/tmp").getD i 0
  noNul := by decide

theorem five_not_stopsAtTerminator :
    ¬ StopsAtTerminator (fun str => agetollint (fun _ => 0) str 0 none) storedFive := by
  rintro ⟨-, haccepts⟩
  have hplain : PlainNumber storedFive.text :=
    ⟨.fin 5, by decide +kernel, by decide, by decide +kernel⟩
  have hcode : (agetollint (fun _ => 0) (some storedFive) 0 none).code = 0 :=
    haccepts hplain storedFive rfl
  exact absurd hcode (by decide +kernel)

/-! ### Behind a known suffix -/

/-- A known suffix, or none, follows the number, and something else follows that. -/
def TrailingAfterSuffix (factor : UInt8 → Option ℕ) (str : Option Stored) : Prop :=
  ∃ s x rest, str = some s ∧ ReadsNumber s.text x rest ∧
    (factor (s.byte (stopIndex s rest))).isSome ∧ s.byte (stopIndex s rest + 1) ≠ 0

/-- A rejected conversion leaves `*result` as it was. -/
def KeepsResult (convert : Int64 → Converted) : Prop :=
  ∀ result, (convert result).code = -1 → (convert result).result = result

lemma keepsResult_strtollint_iff (unspecified : Double → Int64)
    (scale : ℕ → Double → Double) (factor : UInt8 → Option ℕ) (str : Option Stored)
    (errmesg : Option CString) :
    KeepsResult
        (fun result => strtollint (multiplier unspecified scale factor) str result errmesg) ↔
      ¬ TrailingAfterSuffix factor str := by
  constructor
  · rintro hkeeps ⟨s, x, rest, rfl, h, hsome, hbehind⟩
    obtain ⟨n, hfactor⟩ := Option.isSome_iff_exists.1 hsome
    -- any other value than the new one is lost
    let result := scaledResult unspecified scale x n + 1
    obtain ⟨message, heq⟩ := strtollint_trailing unspecified scale result errmesg h hfactor hbehind
    have hresult := hkeeps result (congrArg Converted.code heq)
    simp only [heq] at hresult
    exact absurd (Int64.left_eq_add.1 hresult) (by decide)
  · intro htrailing result hcode
    cases str with
    | none => rfl
    | some s =>
      rcases strtollint_cases unspecified scale result errmesg s factor with
        ⟨message, heq, -⟩ | ⟨x, rest, n, h, hfactor, ⟨hbehind, -⟩ | ⟨-, heq⟩⟩
      · simp only [heq]
      · exact absurd ⟨s, x, rest, rfl, h, by rw [hfactor]; rfl, hbehind⟩ htrailing
      · simp only [heq] at hcode
        cases hcode

/-- A rejected conversion keeps `*result` exactly if it is not rejected for what follows a known
suffix. -/
theorem keepsResult_iff (unspecified : Double → Int64) (str : Option Stored)
    (errmesg : Option CString) :
    (KeepsResult (fun result => agetollint unspecified str result errmesg) ↔
      ¬ TrailingAfterSuffix ageFactor str) ∧
    (KeepsResult (fun result => sizetollint unspecified str result errmesg) ↔
      ¬ TrailingAfterSuffix sizeFactor str) := by
  constructor
  · exact keepsResult_strtollint_iff unspecified Double.natMul ageFactor str errmesg
  · exact keepsResult_strtollint_iff unspecified Double.natMul sizeFactor str errmesg

/-- The argument `1kx`, with zeros behind it. -/
def storedTrailing : Stored where
  text := ascii "1kx"
  following _ := 0
  noNul := by decide

theorem trailing_not_keepsResult :
    ¬ KeepsResult (fun result => sizetollint (fun _ => 0) (some storedTrailing) result none) := by
  intro hkeeps
  have hresult := hkeeps 7 (by decide +kernel)
  exact absurd hresult (by decide +kernel)

end NagiosPlugins
