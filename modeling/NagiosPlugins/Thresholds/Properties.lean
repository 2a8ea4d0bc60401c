import NagiosPlugins.Thresholds.RangeSyntax

/-!
# What the thresholds mean

On range strings the parser and `get_status` together decide membership in the alert sets.
-/

namespace NagiosPlugins

open Libc

/-! ### Range strings are parsed to what they denote -/

namespace RangeSyntax

variable (r : RangeSyntax)

/-- The range a range string is parsed to. -/
def toRange : Range where
  start := .fin (match r.lower with | some (.bound b) => b.number.value | _ => 0)
  end_ := .fin (match r.upper with | some b => b.number.value | none => 0)
  startInfinity := match r.lower with | some .negInfinity => true | _ => false
  endInfinity := r.upper.isNone
  alertOn := if r.inside then .inside else .outside

/-- The closed interval in terms of the fields of the parsed range. -/
lemma mem_interval {v : ℚ} : v ∈ r.interval ↔
    (r.toRange.startInfinity ∨ r.toRange.start.le (.fin v)) ∧
      (r.toRange.endInfinity ∨ (Double.fin v).le r.toRange.end_) := by
  simp only [interval, Set.mem_ofPred_eq, start, stop, toRange]
  cases r.lower with
  | none => cases r.upper <;> simp
  | some l => cases l <;> cases r.upper <;> simp

/-- `check_range` decides membership in the alert set. -/
lemma checkRange_toRange (v : ℚ) :
    checkRange (.fin v) r.toRange = true ↔ v ∈ r.alertSet := by
  have hmem := r.mem_interval (v := v)
  have halert : r.toRange.alertOn = if r.inside then .inside else .outside := rfl
  simp only [alertSet, checkRange, halert]
  cases hi : r.inside <;> cases hs : r.toRange.startInfinity <;>
    cases he : r.toRange.endInfinity <;> simp [hs, he, hmem, imp_iff_not_or]

lemma strchr_renderBody : strchr r.renderBody ':' =
    r.lower.map fun _ => (':' : UInt8) :: (r.upper.map Bound.render).getD [] := by
  have hupper : (':' : UInt8) ∉ (r.upper.map Bound.render).getD [] := by
    cases r.upper with
    | none => simp
    | some b => exact b.not_mem_render (by simp)
  cases hl : r.lower with
  | none => simpa [renderBody, hl] using strchr_eq_none.mpr hupper
  | some l =>
    have hlower : (':' : UInt8) ∉ l.render := by
      cases l with
      | negInfinity => decide
      | bound b => exact b.not_mem_render (by simp)
    simp only [renderBody, hl, List.append_assoc, Option.map_some]
    rw [strchr_append hlower]
    simp [strchr]

/-- The tilde stands in front exactly of an interval without a start. -/
lemma head_renderBody_eq_tilde {l : LowerBound} (hl : r.lower = some l) :
    r.renderBody.head? = some ('~' : UInt8) ↔ l = .negInfinity := by
  simp only [renderBody, hl]
  cases l with
  | negInfinity => simp [LowerBound.render]
  | bound b =>
    simp only [LowerBound.render, List.append_assoc, reduceCtorEq, iff_false]
    rw [List.head?_append_of_ne_nil _ b.render_ne_nil]
    intro h
    exact b.not_mem_render (by simp) (List.mem_of_mem_head? h)

lemma strtod_renderUpper :
    (strtod ((r.upper.map Bound.render).getD [])).1 = r.toRange.end_ := by
  cases hu : r.upper with
  | none => simp only [toRange, hu]; decide +kernel
  | some b => simpa [toRange, hu] using b.strtod_render endsNumeral_nil

/-- The scan of the whole body reads the number before the colon. -/
lemma strtod_renderBody {b : Bound} (hl : r.lower = some (.bound b)) :
    (strtod r.renderBody).1 = .fin b.number.value := by
  simp only [renderBody, hl, LowerBound.render, List.append_assoc]
  exact b.strtod_render (endsNumeral_colon _)


/-- The range of an alert polarity and of the text before the colon. -/
lemma parseStart_renderBody (alertOn : AlertOn) :
    parseStart { Range.defaults with alertOn } r.renderBody
      = ({ Range.defaults with
            start := r.toRange.start, startInfinity := r.toRange.startInfinity, alertOn },
          (r.upper.map Bound.render).getD []) := by
  simp only [parseStart, r.strchr_renderBody]
  cases hl : r.lower with
  | none => simp [toRange, hl, renderBody, Range.defaults]
  | some l =>
    have htilde := r.head_renderBody_eq_tilde hl
    cases l with
    | negInfinity => simp [htilde, toRange, hl, Range.defaults]
    | bound b =>
      simp [htilde, toRange, hl, Range.defaults, setRangeStart, r.strtod_renderBody hl]

lemma parseEnd_renderUpper (start : Double) (startInfinity : Bool) (alertOn : AlertOn) :
    parseEnd { Range.defaults with start, startInfinity, alertOn }
        ((r.upper.map Bound.render).getD [])
      = { start, startInfinity, end_ := r.toRange.end_, endInfinity := r.toRange.endInfinity,
          alertOn } := by
  have hend := r.strtod_renderUpper
  cases hu : r.upper with
  | none => simp [parseEnd, toRange, hu, Range.defaults]
  | some b =>
    rw [hu] at hend
    simp only [Option.map_some, Option.getD_some] at hend ⊢
    simp only [parseEnd, ne_eq, b.render_ne_nil, not_false_eq_true, if_true, setRangeEnd, hend]
    simp [toRange, hu]

theorem readRange_render : readRange r.render = r.toRange := by
  have hat : r.renderBody.head? ≠ some ('@' : UInt8) := fun h =>
    r.at_not_mem_renderBody (List.mem_of_mem_head? h)
  have halert : parseAlertOn Range.defaults r.render
      = ({ Range.defaults with alertOn := r.toRange.alertOn }, r.renderBody) := by
    cases hi : r.inside with
    | false => simp [parseAlertOn, render, hi, hat, toRange, Range.defaults]
    | true => simp [parseAlertOn, render, hi, toRange]
  simp only [readRange, halert, r.parseStart_renderBody, r.parseEnd_renderUpper]

end RangeSyntax

/-- The bounds of a range string are in order unless one of them is infinite. -/
lemma RangeString.toRange_ordered (r : RangeString) : r.toRange.Ordered := by
  have h := r.ordered
  simp only [RangeSyntax.start, RangeSyntax.stop, RangeSyntax.toRange, Range.Ordered] at h ⊢
  cases hl : r.lower with
  | none =>
    cases hu : r.upper with
    | none => simp
    | some b => simpa [hl, hu] using h 0 b.number.value (by simp [hl]) (by simp [hu])
  | some l =>
    cases l with
    | negInfinity => simp
    | bound a =>
      cases hu : r.upper with
      | none => simp
      | some b =>
        simpa [hl, hu] using h a.number.value b.number.value (by simp [hl]) (by simp [hu])

theorem parseRangeString_render (r : RangeString) :
    parseRangeString r.render = some r.toRange := by
  rw [parseRangeString, r.readRange_render, if_pos r.toRange_ordered]

/-! ### The status -/

/-- An optional range string alerts on a value. -/
def Alerts (r : Option RangeString) (v : ℚ) : Prop := ∃ s ∈ r, v ∈ s.alertSet

lemma any_checkRange_iff (r : Option RangeString) (v : ℚ) :
    (r.map fun s => s.toRange).any (checkRange (.fin v)) = true ↔ Alerts r v := by
  cases r with
  | none => simp [Alerts]
  | some s => simpa [Alerts] using s.checkRange_toRange v

/-- The thresholds set from range strings decide the status: critical goes before warning. -/
theorem getStatus_setThresholds (t : Option Thresholds) (w c : Option RangeString) :
    ∃ th, setThresholds t (w.map fun s => s.render) (c.map fun s => s.render) = (0, some th) ∧
      ∀ v : ℚ,
        (getStatus (.fin v) th = .critical ↔ Alerts c v) ∧
        (getStatus (.fin v) th = .warning ↔ ¬ Alerts c v ∧ Alerts w v) ∧
        (getStatus (.fin v) th = .ok ↔ ¬ Alerts c v ∧ ¬ Alerts w v) := by
  refine ⟨⟨w.map fun s => s.toRange, c.map fun s => s.toRange⟩, ?_, ?_⟩
  · cases w <;> cases c <;> simp [setThresholds, parseRangeString_render]
  · intro v
    have hw := any_checkRange_iff w v
    have hc := any_checkRange_iff c v
    by_cases hcv : Alerts c v
    · simp [getStatus, hc.mpr hcv, hcv]
    · have hc' := Bool.eq_false_iff.mpr (mt hc.mp hcv)
      by_cases hwv : Alerts w v
      · simp [getStatus, hc', hcv, hw.mpr hwv, hwv]
      · simp [getStatus, hc', hcv, Bool.eq_false_iff.mpr (mt hw.mp hwv), hwv]

end NagiosPlugins
