import NagiosPlugins.Libc.Binary64
import NagiosPlugins.Thresholds.RangeSyntax

/-!
# Which thresholds are accepted

The range parser with the doubles that `strtod` returns. It reads two numbers from any string and
ignores the rest; text that is not a number counts as zero.
-/

namespace NagiosPlugins

open Libc

/-! ### Rounded ranges -/

/-- The range with the doubles that `strtod` returns. -/
def Range.rounded (r : Range) : Range :=
  { r with start := r.start.rounded, end_ := r.end_.rounded }

/-- `parse_range_string`; the order of the bounds is looked at after they are rounded. -/
def parseRangeStringRounded (str : CString) : Option Range :=
  if (readRange str).rounded.Ordered then some (readRange str).rounded else none

/-- `set_thresholds`. -/
def setThresholdsRounded (myThresholds : Option Thresholds)
    (warnString criticalString : Option CString) : ℕ × Option Thresholds :=
  let warning := warnString.map parseRangeStringRounded
  if warning = some none then (npRangeUnparseable, myThresholds)
  else
    let critical := criticalString.map parseRangeStringRounded
    if critical = some none then (npRangeUnparseable, myThresholds)
    else (0, some { warning := warning.join, critical := critical.join })

/-! ### The bounds of a string -/

/-- The string without its `@`. -/
def rangeBody (str : CString) : CString :=
  if str.head? = some ('@' : UInt8) then str.tail else str

/-- The start of the range as a `double`; `none` is the tilde. -/
def startBound (body : CString) : Option Double :=
  if (':' : UInt8) ∉ body then some (.fin 0)
  else if body.head? = some ('~' : UInt8) then none
  else some (strtod body).1.rounded

/-- What stands behind the first colon, or the whole string when it has none. -/
def stopText (body : CString) : CString :=
  match strchr body ':' with
  | none => body
  | some rest => rest.tail

/-- The end of the range as a `double`; `none` is the empty text. -/
def stopBound (body : CString) : Option Double :=
  if stopText body = [] then none else some (strtod (stopText body)).1.rounded

/-- The bounds are in order, infinite ones too, and neither is a NaN, unless the string leaves one
of them out. -/
def InOrder (str : CString) : Prop :=
  ∀ a ∈ startBound (rangeBody str), ∀ b ∈ stopBound (rangeBody str), a.le b = true

lemma rounded_fin_zero : (Double.fin 0).rounded = .fin 0 := by
  rw [Double.rounded, Double.nearest_zero]

lemma readRange_rounded_ordered (str : CString) :
    (readRange str).rounded.Ordered ↔ InOrder str := by
  obtain ⟨alertOn, halert⟩ : ∃ alertOn, parseAlertOn Range.defaults str
      = ({ Range.defaults with alertOn }, rangeBody str) := by
    simp only [parseAlertOn, rangeBody]
    split_ifs
    · exact ⟨.inside, rfl⟩
    · exact ⟨.outside, rfl⟩
  cases hs : strchr (rangeBody str) ':' with
  | none =>
    have hcolon := strchr_eq_none.mp hs
    simp only [readRange, halert, parseStart, hs]
    by_cases hb : rangeBody str = []
    · simp [InOrder, startBound, stopBound, stopText, hb, parseEnd, Range.Ordered, Range.rounded,
        Range.defaults]
    · simp [InOrder, startBound, stopBound, stopText, hs, hb, hcolon, parseEnd, Range.Ordered,
        Range.rounded, Range.defaults, setRangeEnd, rounded_fin_zero]
  | some rest =>
    have hcolon : (':' : UInt8) ∈ rangeBody str := by
      by_contra h
      rw [strchr_eq_none.mpr h] at hs
      cases hs
    simp only [readRange, halert, parseStart, hs]
    by_cases hb : rest.tail = [] <;>
      by_cases htilde : (rangeBody str).head? = some ('~' : UInt8) <;>
      simp [InOrder, startBound, stopBound, stopText, hs, hb, hcolon, htilde, parseEnd,
        Range.Ordered, Range.rounded, Range.defaults, setRangeStart, setRangeEnd]

/-! ### Acceptance -/

/-- `set_thresholds` succeeds exactly on strings whose bounds are in order; otherwise it
returns `NP_RANGE_UNPARSEABLE` and keeps the old thresholds. -/
theorem setThresholdsRounded_inOrder (t : Option Thresholds) (w c : Option CString) :
    ((∀ s, s ∈ w ∨ s ∈ c → InOrder s) →
      ∃ th, setThresholdsRounded t w c = (0, some th)) ∧
    (¬ (∀ s, s ∈ w ∨ s ∈ c → InOrder s) →
      setThresholdsRounded t w c = (npRangeUnparseable, t)) := by
  have hparse : ∀ s, parseRangeStringRounded s = none ↔ ¬ InOrder s := fun s => by
    rw [parseRangeStringRounded, ← readRange_rounded_ordered]
    split_ifs with h <;> simp [h]
  have hw : w.map parseRangeStringRounded = some none ↔ ∃ s ∈ w, ¬ InOrder s := by
    cases w <;> simp [hparse]
  have hc : c.map parseRangeStringRounded = some none ↔ ∃ s ∈ c, ¬ InOrder s := by
    cases c <;> simp [hparse]
  rw [setThresholdsRounded]
  by_cases hw' : ∃ s ∈ w, ¬ InOrder s
  · obtain ⟨s, hs, hbad⟩ := hw'
    rw [if_pos (hw.mpr ⟨s, hs, hbad⟩)]
    exact ⟨fun h => absurd (h s (Or.inl hs)) hbad, fun _ => rfl⟩
  · rw [if_neg (mt hw.mp hw')]
    by_cases hc' : ∃ s ∈ c, ¬ InOrder s
    · obtain ⟨s, hs, hbad⟩ := hc'
      rw [if_pos (hc.mpr ⟨s, hs, hbad⟩)]
      exact ⟨fun h => absurd (h s (Or.inr hs)) hbad, fun _ => rfl⟩
    · rw [if_neg (mt hc.mp hc')]
      refine ⟨fun _ => ⟨_, rfl⟩, fun h => absurd (fun s hs => ?_) h⟩
      by_contra hbad
      rcases hs with hs | hs
      · exact hw' ⟨s, hs, hbad⟩
      · exact hc' ⟨s, hs, hbad⟩

example :
    (setThresholdsRounded none (some (ascii "9007199254740993:9007199254740992")) none).1 = 0 := by
  decide +kernel

example : (setThresholdsRounded none (some (ascii "inf:5")) none).1 = npRangeUnparseable := by
  decide +kernel

/-- The letters of a range string are exponent letters. -/
lemma letter_not_mem_render (r : RangeSyntax) : ('b' : UInt8) ∉ r.render := by
  have hbound : ∀ b : Bound, ('b' : UInt8) ∉ b.render := by
    intro b h
    simp only [Bound.render, List.mem_append] at h
    rcases h with h | h
    · exact absurd (b.number.mem_render h) (by decide)
    · split_ifs at h <;> exact absurd h (by decide)
  intro h
  simp only [RangeSyntax.render, RangeSyntax.renderBody, List.mem_append] at h
  rcases h with h | h | h
  · split_ifs at h <;> exact absurd h (by decide)
  · cases hl : r.lower with
    | none => simp [hl] at h
    | some l =>
      simp only [hl, List.mem_append] at h
      rcases h with h | h
      · cases l with
        | negInfinity => exact absurd h (by decide)
        | bound b => exact hbound b h
      · exact absurd h (by decide)
  · cases hu : r.upper with
    | none => simp [hu] at h
    | some b =>
      simp only [hu, Option.map_some, Option.getD_some] at h
      exact hbound b h

/-- A word that is no range string is read as the range from zero to zero. -/
theorem setThresholdsRounded_accepts_word :
    (setThresholdsRounded none (some (ascii "abc")) none).1 = 0 ∧
      ¬ ∃ r : RangeString, r.render = ascii "abc" := by
  refine ⟨by decide +kernel, ?_⟩
  rintro ⟨r, hr⟩
  exact letter_not_mem_render r.toRangeSyntax (hr ▸ by decide)

end NagiosPlugins
