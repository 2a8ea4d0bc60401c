import Mathlib.Order.WithBot
import NagiosPlugins.Thresholds.Basic

/-!
# Range strings

The range format as data: `['@'] [('~' | number['%']) ':'] [number['%']]`, the interval such a
string denotes and the set of values it alerts on.
-/

namespace NagiosPlugins

open Libc

/-- `number['%']`. -/
structure Bound where
  number : Decimal
  percent : Bool

def Bound.render (b : Bound) : CString :=
  b.number.render ++ if b.percent then [('%' : UInt8)] else []

/-- What may stand before the colon. -/
inductive LowerBound where
  | negInfinity
  | bound (b : Bound)

def LowerBound.render : LowerBound → CString
  | .negInfinity => ['~']
  | .bound b => b.render

/-- The parts of a range string. -/
structure RangeSyntax where
  inside : Bool
  lower : Option LowerBound
  upper : Option Bound

namespace RangeSyntax

variable (r : RangeSyntax)

/-- The range string without its `@`. -/
def renderBody : CString :=
  (match r.lower with
    | some l => l.render ++ [(':' : UInt8)]
    | none => [])
  ++ (r.upper.map Bound.render).getD []

def render : CString :=
  (if r.inside then [('@' : UInt8)] else []) ++ r.renderBody

/-- The start of the interval, zero by default. -/
def start : WithBot ℚ :=
  match r.lower with
  | none => (0 : ℚ)
  | some .negInfinity => ⊥
  | some (.bound b) => b.number.value

/-- The end of the interval, without limit by default. -/
def stop : WithTop ℚ :=
  match r.upper with
  | none => ⊤
  | some b => b.number.value

/-- The closed interval from `start` to `stop`. -/
def interval : Set ℚ := {v | r.start ≤ v ∧ (v : WithTop ℚ) ≤ r.stop}

/-- The values that raise an alert. -/
def alertSet : Set ℚ := if r.inside then r.interval else r.intervalᶜ

end RangeSyntax

/-- A range string whose bounds are in order whenever both are finite. -/
structure RangeString extends RangeSyntax where
  ordered : ∀ a b : ℚ, toRangeSyntax.start = a → toRangeSyntax.stop = b → a ≤ b

/-! ### The bytes of a range string -/

lemma Bound.not_mem_render (b : Bound) {c : UInt8}
    (hc : c = '@' ∨ c = '~' ∨ c = ':') : c ∉ b.render := by
  intro h
  simp only [Bound.render, List.mem_append] at h
  rcases h with h | h
  · exact (show ∀ c, (isdigit c ∨ c = '+' ∨ c = '-' ∨ c = '.' ∨ c = 'e' ∨ c = 'E') →
      ¬ (c = '@' ∨ c = '~' ∨ c = ':') by decide +kernel) c (b.number.mem_render h) hc
  · have hp : c = '%' := by
      split_ifs at h
      · simpa using h
      · simp at h
    rw [hp] at hc
    exact absurd hc (by decide)

/-- A bound is read up to its per cent sign. -/
lemma Bound.strtod_render (b : Bound) {rest : CString} (hrest : EndsNumeral rest) :
    (strtod (b.render ++ rest)).1 = .fin b.number.value := by
  rw [Bound.render]
  rw [List.append_assoc, Decimal.strtod_render]
  cases b.percent with
  | false => simpa using hrest
  | true =>
    intro c hc
    simp only [if_true, List.cons_append, List.head?_cons, Option.mem_some] at hc
    rw [← hc]
    decide

lemma endsNumeral_nil : EndsNumeral [] := by simp [EndsNumeral]

lemma endsNumeral_colon (s : CString) : EndsNumeral ((':' : UInt8) :: s) := by
  simp only [EndsNumeral, List.head?_cons, Option.mem_some, forall_eq']
  decide

lemma Bound.render_ne_nil (b : Bound) : b.render ≠ [] := by
  have h := b.number.nonempty
  intro hb
  simp only [Bound.render, Decimal.render, Decimal.renderUnsigned, List.append_eq_nil_iff] at hb
  obtain ⟨⟨-, ⟨hi, hf⟩, -⟩, -⟩ := hb
  cases hd : b.number.frac with
  | none => simp [hi, hd] at h
  | some ds => simp [hd] at hf

namespace RangeSyntax

variable (r : RangeSyntax)

lemma at_not_mem_renderBody : ('@' : UInt8) ∉ r.renderBody := by
  intro h
  simp only [renderBody, List.mem_append] at h
  rcases h with h | h
  · cases hl : r.lower with
    | none => simp [hl] at h
    | some l =>
      cases l with
      | negInfinity =>
        simp only [hl, LowerBound.render] at h
        exact absurd h (by decide)
      | bound b =>
        simp only [hl, LowerBound.render, List.mem_append] at h
        rcases h with h | h
        · exact b.not_mem_render (by simp) h
        · exact absurd h (by decide)
  · cases hu : r.upper with
    | none => simp [hu] at h
    | some b =>
      simp only [hu, Option.map_some, Option.getD_some] at h
      exact b.not_mem_render (by simp) h

end RangeSyntax

end NagiosPlugins
