import NagiosPlugins.Data.Except
import NagiosPlugins.Libc.Rounding
import NagiosPlugins.Network.Status

/-!
# The metric of the thresholds

The counters of both directions are added in 32 bits before they are compared with the thresholds.
-/

namespace NagiosPlugins

open Libc

/-! ### Upper thresholds -/

/-- A range that alerts above its end; counters are never below its start. -/
def Range.IsUpper (r : Range) : Prop :=
  r.alertOn = .outside ∧ (r.startInfinity = true ∨ ∀ value : ℚ, 0 ≤ value → r.start.le (.fin value))

def Thresholds.IsUpper (t : Thresholds) : Prop :=
  (∀ r ∈ t.warning, r.IsUpper) ∧ ∀ r ∈ t.critical, r.IsUpper

lemma le_of_fin_le {x y : ℚ} (hxy : x ≤ y) {z : Double} (h : (Double.fin y).le z = true) :
    (Double.fin x).le z = true := by
  cases z with
  | fin z => exact decide_eq_true (hxy.trans (of_decide_eq_true h))
  | inf negative => exact h
  | nan => exact h

lemma checkRange_of_isUpper {r : Range} (h : r.IsUpper) {value : ℚ} (hvalue : 0 ≤ value) :
    checkRange (.fin value) r = (!r.endInfinity && !(Double.fin value).le r.end_) := by
  obtain ⟨houtside, hstart⟩ := h
  rcases hstart with hstart | hstart
  · cases hend : r.endInfinity <;> simp [checkRange, houtside, hstart, hend]
  · cases hend : r.endInfinity <;> cases hinf : r.startInfinity <;>
      simp [checkRange, houtside, hstart value hvalue, hend, hinf]

/-- An alert stays when the value grows. -/
lemma checkRange_mono {r : Range} (h : r.IsUpper) {x y : ℚ} (hx : 0 ≤ x) (hxy : x ≤ y)
    (halert : checkRange (.fin x) r = true) : checkRange (.fin y) r = true := by
  rw [checkRange_of_isUpper h hx, Bool.and_eq_true] at halert
  obtain ⟨hend, hle⟩ := halert
  rw [checkRange_of_isUpper h (hx.trans hxy), hend, Bool.true_and, Bool.not_eq_true',
    Bool.eq_false_iff]
  rw [Bool.not_eq_true', Bool.eq_false_iff] at hle
  intro hle'
  exact hle (le_of_fin_le hxy hle')

lemma any_checkRange_mono {range : Option Range} (h : ∀ r ∈ range, r.IsUpper) {x y : ℚ}
    (hx : 0 ≤ x) (hxy : x ≤ y) (halert : range.any (checkRange (.fin x)) = true) :
    range.any (checkRange (.fin y)) = true := by
  cases range with
  | none => exact halert
  | some r => exact checkRange_mono (h r rfl) hx hxy halert

lemma ok_le (status : Nagstatus) : Nagstatus.ok ≤ status := Nat.zero_le status.code

lemma getStatus_mono {t : Thresholds} (h : t.IsUpper) {x y : ℚ} (hx : 0 ≤ x) (hxy : x ≤ y) :
    getStatus (.fin x) t ≤ getStatus (.fin y) t := by
  have hwarning := any_checkRange_mono h.1 hx hxy
  have hcritical := any_checkRange_mono h.2 hx hxy
  rw [getStatus, getStatus]
  by_cases hc : t.critical.any (checkRange (.fin x)) = true
  · rw [if_pos hc, if_pos (hcritical hc)]
  · rw [if_neg hc]
    by_cases hw : t.warning.any (checkRange (.fin x)) = true
    · rw [if_pos hw, if_pos (hwarning hw)]
      split_ifs <;> decide
    · rw [if_neg hw]
      exact ok_le _

/-! ### The metric -/

/-- The counters of the two directions, for the checks that add them. -/
def NetworkCheck.directions : NetworkCheck → Option ((Iflist → UInt32) × (Iflist → UInt32))
  | .bytes => some (iflistGetTxBytes, iflistGetRxBytes)
  | .dropped => some (iflistGetTxDropped, iflistGetRxDropped)
  | .errors => some (iflistGetTxErrors, iflistGetRxErrors)
  | .collisions | .multicast => none

/-- The sum over the directions that are asked for. -/
def traffic (tx rx : UInt32) (txOnly rxOnly : Bool) : ℕ :=
  (if txOnly then 0 else rx.toNat) + if rxOnly then 0 else tx.toNat

/-- What one unit of the counter is worth: itself, or a percentage of the speed. -/
def metricUnit (s : NetworkSettings) (check : NetworkCheck) (speed : UInt64) : ℚ :=
  if check = .bytes ∧ s.reportPerc = true ∧ speed > 0 then 100 / speed.toNat else 1

/-- What is compared with the thresholds is the traffic, so more traffic is never better. -/
structure MetricTrue (s : NetworkSettings) (check : NetworkCheck) (tx rx : Iflist → UInt32)
    (speed : UInt64) (ifl : Iflist) : Prop where
  counter_eq : thresholdCounter ratioOverSpeed s check speed ifl
    = metricUnit s check speed * traffic (tx ifl) (rx ifl) s.txOnly s.rxOnly
  counter_mono : ∀ ifl', tx ifl' ≤ tx ifl → rx ifl' ≤ rx ifl →
    thresholdCounter ratioOverSpeed s check speed ifl'
      ≤ thresholdCounter ratioOverSpeed s check speed ifl
  status_mono : ∀ ifl', tx ifl' ≤ tx ifl → rx ifl' ≤ rx ifl → ∀ t : Thresholds, t.IsUpper →
    getStatus (.fin (thresholdCounter ratioOverSpeed s check speed ifl')) t
      ≤ getStatus (.fin (thresholdCounter ratioOverSpeed s check speed ifl)) t

/-- The sum fits in 32 bits. -/
def NetworkSettings.Fits (s : NetworkSettings) (tx rx : UInt32) : Prop :=
  s.txOnly = true ∨ s.rxOnly = true ∨ tx.toNat + rx.toNat < 2 ^ 32

instance (s : NetworkSettings) (tx rx : UInt32) : Decidable (s.Fits tx rx) :=
  inferInstanceAs (Decidable (_ ∨ _))

lemma toNat_getThresholdMetric (tx rx : UInt32) (txOnly rxOnly : Bool) :
    (getThresholdMetric tx rx txOnly rxOnly).toNat = traffic tx rx txOnly rxOnly % 2 ^ 32 := by
  rw [getThresholdMetric, traffic, UInt32.toNat_add]
  cases txOnly <;> cases rxOnly <;> rfl

lemma traffic_lt_iff {s : NetworkSettings} {tx rx : UInt32} :
    traffic tx rx s.txOnly s.rxOnly < 2 ^ 32 ↔ s.Fits tx rx := by
  have htx := tx.toNat_lt
  have hrx := rx.toNat_lt
  rw [traffic, NetworkSettings.Fits]
  cases s.txOnly <;> cases s.rxOnly <;> simp <;> omega

lemma traffic_mono {tx rx tx' rx' : UInt32} (htx : tx' ≤ tx) (hrx : rx' ≤ rx)
    (txOnly rxOnly : Bool) : traffic tx' rx' txOnly rxOnly ≤ traffic tx rx txOnly rxOnly := by
  have htx := UInt32.le_iff_toNat_le.1 htx
  have hrx := UInt32.le_iff_toNat_le.1 hrx
  rw [traffic, traffic]
  cases txOnly <;> cases rxOnly <;> simp <;> omega

lemma metricUnit_pos (s : NetworkSettings) (check : NetworkCheck) (speed : UInt64) :
    0 < metricUnit s check speed := by
  rw [metricUnit]
  split_ifs with h
  · have hspeed : 0 < speed.toNat := UInt64.lt_iff_toNat_lt.1 h.2.2
    positivity
  · exact one_pos

/-- None of these ratios is negative, and larger counters have larger ones. -/
structure RatioMono (ratio : UInt32 → UInt64 → ℚ) : Prop where
  nonneg : ∀ counter speed, 0 ≤ ratio counter speed
  mono : ∀ {counter counter'} speed, counter ≤ counter' → ratio counter speed ≤ ratio counter' speed

lemma ratioMono_ratioOverSpeed : RatioMono ratioOverSpeed where
  nonneg counter speed := by
    rw [ratioOverSpeed]
    positivity
  mono speed h := by
    have hcounter : (_ : ℚ) ≤ _ := Nat.cast_le.2 (UInt32.le_iff_toNat_le.1 h)
    exact mul_le_mul_of_nonneg_left hcounter (by positivity)

lemma ratioMono_ratioOverSpeedRounded : RatioMono ratioOverSpeedRounded where
  nonneg counter speed := by
    have hquotient : 0 ≤ Double.toPlace (100 / speed.toNat) := Double.toPlace_nonneg (by positivity)
    exact Double.toPlace_nonneg (mul_nonneg hquotient (Nat.cast_nonneg _))
  mono {counter counter'} speed h := by
    have hquotient : 0 ≤ Double.toPlace (100 / speed.toNat) := Double.toPlace_nonneg (by positivity)
    have hcounter : (counter.toNat : ℚ) ≤ counter'.toNat :=
      Nat.cast_le.2 (UInt32.le_iff_toNat_le.1 h)
    exact Double.toPlace_mono (mul_nonneg hquotient (Nat.cast_nonneg _))
      (mul_le_mul_of_nonneg_left hcounter hquotient)

lemma getThresholdMetric_mono {s : NetworkSettings} {tx rx tx' rx' : UInt32}
    (hfits : s.Fits tx rx) (htx : tx' ≤ tx) (hrx : rx' ≤ rx) :
    getThresholdMetric tx' rx' s.txOnly s.rxOnly ≤ getThresholdMetric tx rx s.txOnly s.rxOnly := by
  rw [UInt32.le_iff_toNat_le, toNat_getThresholdMetric, toNat_getThresholdMetric,
    Nat.mod_eq_of_lt (traffic_lt_iff.2 hfits)]
  exact (Nat.mod_le _ _).trans (traffic_mono htx hrx _ _)

section Metric

variable {ratio : UInt32 → UInt64 → ℚ} (hratio : RatioMono ratio) {s : NetworkSettings}
  {check : NetworkCheck} {tx rx : Iflist → UInt32}
  (hcheck : check.directions = some (tx, rx)) (speed : UInt64) {ifl : Iflist}

include hcheck

lemma thresholdCounter_eq (ifl : Iflist) :
    thresholdCounter ratioOverSpeed s check speed ifl = metricUnit s check speed
      * (traffic (tx ifl) (rx ifl) s.txOnly s.rxOnly % 2 ^ 32 : ℕ) := by
  cases check with
  | bytes =>
    cases hcheck
    by_cases hperc : s.reportPerc = true ∧ speed > 0
    · simp [thresholdCounter, metricUnit, hperc, ratioOverSpeed, toNat_getThresholdMetric]
    · simp [thresholdCounter, metricUnit, hperc, toNat_getThresholdMetric]
  | dropped =>
    cases hcheck
    simp [thresholdCounter, metricUnit, toNat_getThresholdMetric]
  | errors =>
    cases hcheck
    simp [thresholdCounter, metricUnit, toNat_getThresholdMetric]
  | collisions => cases hcheck
  | multicast => cases hcheck

lemma thresholdCounter_eq_iff :
    thresholdCounter ratioOverSpeed s check speed ifl
        = metricUnit s check speed * traffic (tx ifl) (rx ifl) s.txOnly s.rxOnly
      ↔ s.Fits (tx ifl) (rx ifl) := by
  rw [thresholdCounter_eq hcheck, mul_right_inj' (metricUnit_pos s check speed).ne', Nat.cast_inj,
    ← traffic_lt_iff]
  omega

include hratio

omit hcheck in
lemma thresholdCounter_nonneg (ifl : Iflist) : 0 ≤ thresholdCounter ratio s check speed ifl := by
  cases check with
  | bytes =>
    simp only [thresholdCounter]
    split_ifs
    · exact hratio.nonneg _ _
    · exact Nat.cast_nonneg _
  | collisions => exact Nat.cast_nonneg _
  | dropped => exact Nat.cast_nonneg _
  | errors => exact Nat.cast_nonneg _
  | multicast => exact Nat.cast_nonneg _

lemma thresholdCounter_mono (hfits : s.Fits (tx ifl) (rx ifl)) {ifl' : Iflist}
    (htx : tx ifl' ≤ tx ifl) (hrx : rx ifl' ≤ rx ifl) :
    thresholdCounter ratio s check speed ifl' ≤ thresholdCounter ratio s check speed ifl := by
  have hmetric := getThresholdMetric_mono hfits htx hrx
  have hcast : ∀ {x y : UInt32}, x ≤ y → (x.toNat : ℚ) ≤ y.toNat :=
    fun h => Nat.cast_le.2 (UInt32.le_iff_toNat_le.1 h)
  cases check with
  | bytes =>
    cases hcheck
    simp only [thresholdCounter]
    split_ifs
    · exact hratio.mono speed hmetric
    · exact hcast hmetric
  | dropped =>
    cases hcheck
    exact hcast hmetric
  | errors =>
    cases hcheck
    exact hcast hmetric
  | collisions => cases hcheck
  | multicast => cases hcheck

lemma status_mono (hfits : s.Fits (tx ifl) (rx ifl)) {ifl' : Iflist} (htx : tx ifl' ≤ tx ifl)
    (hrx : rx ifl' ≤ rx ifl) {t : Thresholds} (ht : t.IsUpper) :
    getStatus (.fin (thresholdCounter ratio s check speed ifl')) t
      ≤ getStatus (.fin (thresholdCounter ratio s check speed ifl)) t :=
  getStatus_mono ht (thresholdCounter_nonneg hratio speed ifl')
    (thresholdCounter_mono hratio hcheck speed hfits htx hrx)

omit hratio

/-- The metric is the traffic exactly if one direction is asked for or the sum fits. -/
theorem metricTrue_iff :
    MetricTrue s check tx rx speed ifl
      ↔ s.txOnly = true ∨ s.rxOnly = true ∨ (tx ifl).toNat + (rx ifl).toNat < 2 ^ 32 := by
  constructor
  · intro h
    exact (thresholdCounter_eq_iff hcheck speed).1 h.counter_eq
  · intro hfits
    refine ⟨(thresholdCounter_eq_iff hcheck speed).2 hfits, ?_, ?_⟩
    · intro ifl' htx hrx
      exact thresholdCounter_mono ratioMono_ratioOverSpeed hcheck speed hfits htx hrx
    · intro ifl' htx hrx t ht
      exact status_mono ratioMono_ratioOverSpeed hcheck speed hfits htx hrx ht

/-- An interface with less traffic, at the same speed. -/
def LessTraffic (s : NetworkSettings) (tx rx : Iflist → UInt32) (ifl' ifl : Iflist) : Prop :=
  iterationSpeed ifl' = iterationSpeed ifl ∧ tx ifl' ≤ tx ifl ∧ rx ifl' ≤ rx ifl ∧
    s.Fits (tx ifl) (rx ifl)

omit hcheck in
/-- A loop that returns has raised the status to that of the first interface. -/
lemma networkLoop_cons_ok {t : Thresholds} {ifl : Iflist} {iflhead : List Iflist}
    {status worst : Nagstatus} {perfdata : List NetworkEntry}
    (h : networkLoop s check t (ifl :: iflhead) status = .ok (worst, perfdata)) :
    ∃ perfdata, networkLoop s check t iflhead
        (max status (getStatus (.fin (thresholdCounter ratioOverSpeedRounded s check
          (iterationSpeed ifl) ifl)) t))
      = .ok (worst, perfdata) := by
  rw [networkLoop, networkIteration, Except.bind_eq_ok] at h
  obtain ⟨⟨ifaceStatus, entries⟩, hiteration, hrest⟩ := h
  obtain ⟨_, -, hiteration⟩ := Except.bind_eq_ok.1 hiteration
  cases hiteration
  obtain ⟨⟨status', perfdata⟩, hloop, hresult⟩ := Except.bind_eq_ok.1 hrest
  cases hresult
  refine ⟨perfdata, ?_⟩
  rw [max_def_lt]
  exact hloop

/-- As long as the sums fit, less traffic on each interface never leads to a worse exit status. -/
theorem networkLoop_status_mono {t : Thresholds} (ht : t.IsUpper) {iflhead' iflhead : List Iflist}
    (hless : List.Forall₂ (LessTraffic s tx rx) iflhead' iflhead) {status' status : Nagstatus}
    (hstatus : status' ≤ status) {worst' worst : Nagstatus}
    {perfdata' perfdata : List NetworkEntry}
    (h' : networkLoop s check t iflhead' status' = .ok (worst', perfdata'))
    (h : networkLoop s check t iflhead status = .ok (worst, perfdata)) : worst' ≤ worst := by
  induction hless generalizing status' status perfdata' perfdata with
  | nil =>
    cases h'
    cases h
    exact hstatus
  | @cons ifl' ifl _ _ hless _ ih =>
    obtain ⟨hspeed, htx, hrx, hfits⟩ := hless
    have hle := status_mono ratioMono_ratioOverSpeedRounded hcheck (iterationSpeed ifl) hfits htx
      hrx ht
    obtain ⟨_, hloop'⟩ := networkLoop_cons_ok h'
    obtain ⟨_, hloop⟩ := networkLoop_cons_ok h
    rw [hspeed] at hloop'
    exact ih (max_le_max hstatus hle) hloop' hloop

end Metric

/-- An interface that sends and receives 2 ^ 31 bytes in each second. -/
def saturatedInterface : Iflist where
  ifname := ascii "eth1"
  duplex := .full
  speed := 40000
  flags := iffUp ||| iffRunning
  stats := some ⟨0, 0, 2147483648, 2147483648, 0, 0, 0, 0, 0, 0⟩

/-- In one direction, the metric is the traffic. -/
theorem metricTrue_txOnly :
    MetricTrue { txOnly := true } .bytes iflistGetTxBytes iflistGetRxBytes
      (iterationSpeed saturatedInterface) saturatedInterface :=
  (metricTrue_iff rfl _).2 (.inl rfl)

/-- The sum over both directions is 0. -/
theorem saturatedInterface_not_metricTrue :
    ¬ MetricTrue {} .bytes iflistGetTxBytes iflistGetRxBytes (iterationSpeed saturatedInterface)
      saturatedInterface := by
  intro h
  have hfits := (thresholdCounter_eq_iff rfl _).1 h.counter_eq
  exact absurd hfits (by decide)

end NagiosPlugins
