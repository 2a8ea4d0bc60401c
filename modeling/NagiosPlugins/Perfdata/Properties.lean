import NagiosPlugins.Data.Except
import NagiosPlugins.Perfdata.Basic
import NagiosPlugins.Thresholds.Properties

/-!
# The limits agree with the status

A percentage of the memory is printed as a limit on the number of kilobytes. The limit is cut off
twice, and the cut off limit still separates the amounts that raise an alert from the others, as
long as it does not overflow on its way through bytes.
-/

namespace NagiosPlugins

open Libc

/-! ### Units -/

lemma UnitShift.toNat_bits_lt (shift : UnitShift) : shift.bits.toNat < 64 := by
  cases shift <;> decide

/-- An amount goes through bytes: what does not fit into 64 bits there is lost. -/
lemma toNat_unitConvert (x : UInt64) (shift : UnitShift) :
    (unitConvert x shift).toNat = x.toNat * 2 ^ 10 % 2 ^ 64 / 2 ^ shift.bits.toNat := by
  have hk : UnitShift.kShift.bits.toNat = 10 := rfl
  rw [unitConvert, UInt64.toNat_shiftRight, UInt64.toNat_shiftLeft, hk,
    Nat.mod_eq_of_lt shift.toNat_bits_lt, Nat.shiftRight_eq_div_pow, Nat.shiftLeft_eq]

lemma toNat_unitConvert_kShift (x : UInt64) :
    (unitConvert x .kShift).toNat = x.toNat % 2 ^ 54 := by
  have hk : UnitShift.kShift.bits.toNat = 10 := rfl
  rw [toNat_unitConvert, hk]
  omega

/-! ### The limit of a percentage -/

/-- The value that the limit is computed from, where there is one. -/
def Range.limit? (r : Range) : Option Double :=
  if r.alertOn = .inside ∨ r.startInfinity then none
  else some (if r.endInfinity then r.start else r.end_)

lemma getPerfdataLimitConverted_none {r : Range} (hr : r.limit? = none) (base : UInt64)
    (shift : UnitShift) (limit : UInt64) (percent : Bool) :
    getPerfdataLimitConverted (some r) base shift limit percent = .ok (-1, limit) := by
  have hinside : r.alertOn = .inside ∨ r.startInfinity := by
    by_contra h
    simp [Range.limit?, h] at hr
  have hlimit : getPerfdataLimit (some r) base limit percent = .ok (-1, limit) := by
    rw [getPerfdataLimit]
    rcases hinside with h | h <;> simp [h]
  simp [getPerfdataLimitConverted, hlimit, pure, Except.pure]

/-- The two truncations are one. -/
lemma getPerfdataLimitConverted_some {r : Range} {q : ℚ} (hr : r.limit? = some (.fin q))
    {base : UInt64} (h0 : 0 ≤ q) (h : base.toNat * q < 2 ^ 64) (shift : UnitShift)
    (limit : UInt64) :
    getPerfdataLimitConverted (some r) base shift limit true
      = .ok (0, unitConvert (UInt64.ofNat ⌊base.toNat * q / 100⌋₊) shift) := by
  have hinside : ¬ (r.alertOn = .inside ∨ r.startInfinity) := fun hinside => by
    simp [Range.limit?, hinside] at hr
  have hvalue : (if r.endInfinity then r.start else r.end_) = .fin q := by
    simpa [Range.limit?, hinside] using hr
  obtain ⟨hinside, hinfinity⟩ := not_or.1 hinside
  have hpos : 0 ≤ base.toNat * q := by positivity
  obtain ⟨x, hfirst, hx⟩ : ∃ x, toUnsignedLongLong (.fin (base.toNat * q)) = .ok x ∧
      x.toNat = ⌊base.toNat * q⌋₊ :=
    ⟨_, by rw [toUnsignedLongLong, Double.toUInt64?_fin hpos h], Double.toNat_ofNat_floor hpos h⟩
  have hfloor : ⌊(x.toNat / 100 : ℚ)⌋₊ = ⌊base.toNat * q / 100⌋₊ := by
    rw [hx, Nat.floor_div_ofNat, Nat.floor_div_ofNat, Nat.floor_natCast]
  have hsmall : (x.toNat / 100 : ℚ) < 2 ^ 64 := by
    have hle := Nat.floor_le hpos
    rw [← hx] at hle
    linarith
  have hsecond : toUnsignedLongLong (.fin (x.toNat / 100))
      = .ok (UInt64.ofNat ⌊base.toNat * q / 100⌋₊) := by
    rw [toUnsignedLongLong, Double.toUInt64?_fin (by positivity) hsmall, hfloor]
  have hlimit : getPerfdataLimit (some r) base limit true
      = .ok (0, UInt64.ofNat ⌊base.toNat * q / 100⌋₊) := by
    simp only [getPerfdataLimit, hinside, hinfinity, hvalue, Double.natMul, hfirst, hsecond,
      Except.ok_bind, if_false, if_true]
    rfl
  simp [getPerfdataLimitConverted, hlimit, pure, Except.pure]

/-! ### Strings -/

/-- The first truncation of a percentage separates the amounts above it from the others. -/
lemma lt_percent_iff {T : UInt64} (hT : 0 < T) {q : ℚ} (h0 : 0 ≤ q) (m : UInt64) :
    q < m.toNat * 100 / T.toNat ↔ ⌊T.toNat * q / 100⌋₊ < m.toNat := by
  have hpos : (0 : ℚ) < T.toNat := by exact_mod_cast UInt64.lt_iff_toNat_lt.1 hT
  rw [Nat.floor_lt (by positivity), lt_div_iff₀ hpos, div_lt_iff₀ (by norm_num), mul_comm q]

lemma percent_lt {T : UInt64} (hT : 0 < T) {q : ℚ} {m : UInt64}
    (h : m.toNat < ⌊T.toNat * q / 100⌋₊) : m.toNat * 100 / T.toNat < q := by
  have hpos : (0 : ℚ) < T.toNat := by exact_mod_cast UInt64.lt_iff_toNat_lt.1 hT
  have hlt := Nat.lt_of_lt_floor h
  rw [lt_div_iff₀ (by norm_num)] at hlt
  rwa [div_lt_iff₀ hpos, mul_comm q]

lemma memPercent_of_pos {T : UInt64} (hT : 0 < T) (m : UInt64) :
    memPercent m T = .fin (m.toNat * 100 / T.toNat) := by
  have hne : T ≠ 0 := fun h => by simp [h] at hT
  rw [memPercent, if_pos hne]

/-- The range string `N%`. -/
def atMost (N : Decimal) : RangeSyntax where
  inside := false
  lower := none
  upper := some ⟨N, true⟩

/-- The range string `N%:`. -/
def atLeast (N : Decimal) : RangeSyntax where
  inside := false
  lower := some (.bound ⟨N, true⟩)
  upper := none

/-- The range string `~:N%`. -/
def fromInfinity (N : Decimal) : RangeSyntax where
  inside := false
  lower := some .negInfinity
  upper := some ⟨N, true⟩

variable {N : Decimal}

lemma parseRangeString_atMost (h0 : 0 ≤ N.value) :
    parseRangeString (N.render ++ ascii "%") = some (atMost N).toRange := by
  have hrender : (atMost N).render = N.render ++ ascii "%" := rfl
  rw [← hrender]
  refine parseRangeString_render ⟨atMost N, fun a b ha hb => ?_⟩
  simp only [atMost, RangeSyntax.start, RangeSyntax.stop, WithBot.coe_inj, WithTop.coe_inj] at ha hb
  rwa [← ha, ← hb]

lemma parseRangeString_atLeast (N : Decimal) :
    parseRangeString (N.render ++ ascii "%:") = some (atLeast N).toRange := by
  have hrender : (atLeast N).render = N.render ++ ascii "%:" := by
    simp [atLeast, RangeSyntax.render, RangeSyntax.renderBody, LowerBound.render, Bound.render]
    rfl
  rw [← hrender]
  exact parseRangeString_render ⟨atLeast N, by simp [atLeast, RangeSyntax.stop]⟩

lemma parseRangeString_fromInfinity (N : Decimal) :
    parseRangeString (ascii "~:" ++ N.render ++ ascii "%") = some (fromInfinity N).toRange :=
  parseRangeString_render ⟨fromInfinity N, by simp [fromInfinity, RangeSyntax.start]⟩

lemma mem_alertSet_atMost {v : ℚ} (hv : 0 ≤ v) : v ∈ (atMost N).alertSet ↔ N.value < v := by
  simp [RangeSyntax.alertSet, RangeSyntax.interval, RangeSyntax.start, RangeSyntax.stop, atMost, hv]

lemma mem_alertSet_atLeast {v : ℚ} : v ∈ (atLeast N).alertSet ↔ v < N.value := by
  simp [RangeSyntax.alertSet, RangeSyntax.interval, RangeSyntax.start, RangeSyntax.stop, atLeast]

/-- A string with an `@` alerts inside its range. -/
lemma alertOn_of_at {s : CString} {r : Range}
    (hr : parseRangeString (('@' : UInt8) :: s) = some r) : r.alertOn = .inside := by
  rw [parseRangeString] at hr
  split_ifs at hr with hordered
  cases hr
  simp only [readRange, parseAlertOn, parseStart, parseEnd, List.head?_cons, if_true]
  split <;> split_ifs <;> rfl

/-! ### Limits and status -/

/-- The limit for `N%` of `T` kilobytes is below exactly the amounts that raise an alert. -/
def AtMostAgrees (T : UInt64) (N : Decimal) : Prop :=
  ∃ r L, parseRangeString (N.render ++ ascii "%") = some r ∧
    (∀ limit, getPerfdataLimitConverted (some r) T .kShift limit true = .ok (0, L)) ∧
    ∀ m, checkRange (memPercent m T) r ↔ L < m

/-- Below the limit for `N%:` of `T` kilobytes every amount raises an alert, and from the next
kilobyte on none does. -/
def AtLeastAgrees (T : UInt64) (N : Decimal) : Prop :=
  ∃ r L, parseRangeString (N.render ++ ascii "%:") = some r ∧
    (∀ limit, getPerfdataLimitConverted (some r) T .kShift limit true = .ok (0, L)) ∧
    ∀ m, (m < L → checkRange (memPercent m T) r) ∧
      (L.toNat + 1 ≤ m.toNat → ¬ checkRange (memPercent m T) r)

/-- There is no limit for the range. -/
def NotPrinted (T : UInt64) (r : Range) : Prop :=
  ∀ limit, (∃ error ≠ 0, getPerfdataLimitConverted (some r) T .kShift limit true
    = .ok (error, limit)) ∧ memMonitoredLimit (some r) T .kShift limit = .ok none

/-- The limits for the percentage `N` of `T` kilobytes agree with the status, and there is none
for an interval without a start or an alert inside the range. -/
structure LimitsAgree (T : UInt64) (N : Decimal) : Prop where
  atMost : AtMostAgrees T N
  atLeast : AtLeastAgrees T N
  fromInfinity : ∃ r, parseRangeString (ascii "~:" ++ N.render ++ ascii "%") = some r ∧
    NotPrinted T r
  inside : ∀ s r, parseRangeString (('@' : UInt8) :: s) = some r → NotPrinted T r

lemma notPrinted_of_limit? {r : Range} (hr : r.limit? = none) (T : UInt64) : NotPrinted T r := by
  intro limit
  have hnone := getPerfdataLimitConverted_none hr T .kShift limit true
  refine ⟨⟨-1, by decide, hnone⟩, ?_⟩
  simp [memMonitoredLimit, hnone, pure, Except.pure]

section

variable {T : UInt64} (hT : 0 < T) (h0 : 0 ≤ N.value) (h : T.toNat * N.value < 2 ^ 64)
include h0

lemma floor_lt_iff :
    ⌊T.toNat * N.value / 100⌋₊ < 2 ^ 54 ↔ T.toNat * N.value < 100 * 2 ^ 54 := by
  rw [Nat.floor_lt (by positivity), div_lt_iff₀ (by norm_num), mul_comm (100 : ℚ)]
  norm_cast

include h

lemma toNat_floor : (UInt64.ofNat ⌊T.toNat * N.value / 100⌋₊).toNat
    = ⌊T.toNat * N.value / 100⌋₊ := by
  have hpos : 0 ≤ T.toNat * N.value := by positivity
  exact Double.toNat_ofNat_floor (by positivity) (by linarith)

/-- The limit that is computed, as a number. -/
lemma toNat_limit {r : Range} (hr : r.limit? = some (.fin N.value)) {L : UInt64}
    (hL : ∀ limit, getPerfdataLimitConverted (some r) T .kShift limit true = .ok (0, L)) :
    L.toNat = ⌊T.toNat * N.value / 100⌋₊ % 2 ^ 54 := by
  have hlimit := hL 0
  rw [getPerfdataLimitConverted_some hr h0 h] at hlimit
  cases hlimit
  rw [toNat_unitConvert_kShift, toNat_floor h0 h]

include hT

/-- The limit for `N%` is right exactly if it is not cut off. -/
theorem atMostAgrees_iff : AtMostAgrees T N ↔ T.toNat * N.value < 100 * 2 ^ 54 := by
  have halert : ∀ m, checkRange (memPercent m T) (atMost N).toRange ↔
      ⌊T.toNat * N.value / 100⌋₊ < m.toNat := by
    intro m
    rw [memPercent_of_pos hT, RangeSyntax.checkRange_toRange, mem_alertSet_atMost (by positivity),
      lt_percent_iff hT h0]
  rw [← floor_lt_iff h0]
  constructor
  · rintro ⟨r, L, hparse, hL, hagree⟩
    rw [parseRangeString_atMost h0] at hparse
    cases hparse
    -- the amount at the limit raises no alert
    have hlimit := hagree (UInt64.ofNat ⌊T.toNat * N.value / 100⌋₊)
    rw [halert, UInt64.lt_iff_toNat_lt, toNat_floor h0 h, toNat_limit h0 h rfl hL] at hlimit
    omega
  · intro hsmall
    refine ⟨_, _, parseRangeString_atMost h0, getPerfdataLimitConverted_some rfl h0 h _, ?_⟩
    intro m
    rw [halert, UInt64.lt_iff_toNat_lt, toNat_unitConvert_kShift, toNat_floor h0 h,
      Nat.mod_eq_of_lt hsmall]

/-- The limit for `N%:` is right exactly if it is not cut off. -/
theorem atLeastAgrees_iff : AtLeastAgrees T N ↔ T.toNat * N.value < 100 * 2 ^ 54 := by
  have halert : ∀ m, checkRange (memPercent m T) (atLeast N).toRange ↔
      m.toNat * 100 / T.toNat < N.value := by
    intro m
    rw [memPercent_of_pos hT, RangeSyntax.checkRange_toRange, mem_alertSet_atLeast]
  rw [← floor_lt_iff h0]
  constructor
  · rintro ⟨r, L, hparse, hL, hagree⟩
    rw [parseRangeString_atLeast] at hparse
    cases hparse
    have hlimit := toNat_limit h0 h rfl hL
    by_contra hlarge
    -- the next kilobyte behind the limit still raises an alert
    have hnext : (L + 1).toNat = L.toNat + 1 := by
      rw [UInt64.toNat_add, UInt64.toNat_one]
      omega
    have hbelow : (L + 1).toNat < ⌊T.toNat * N.value / 100⌋₊ := by omega
    exact (hagree (L + 1)).2 hnext.ge ((halert _).2 (percent_lt hT hbelow))
  · intro hsmall
    refine ⟨_, _, parseRangeString_atLeast N, getPerfdataLimitConverted_some rfl h0 h _, ?_⟩
    intro m
    rw [halert, UInt64.lt_iff_toNat_lt, toNat_unitConvert_kShift, toNat_floor h0 h,
      Nat.mod_eq_of_lt hsmall]
    refine ⟨percent_lt hT, ?_⟩
    intro hm
    exact not_lt.2 ((lt_percent_iff hT h0 m).2 hm).le

end

/-- The limits agree with the status exactly if their amount of memory fits into 64 bits as a
number of bytes. -/
theorem limitsAgree_iff {T : UInt64} (hT : 0 < T) {N : Decimal} (h0 : 0 ≤ N.value)
    (h : T.toNat * N.value < 2 ^ 64) :
    LimitsAgree T N ↔ T.toNat * N.value < 100 * 2 ^ 54 := by
  constructor
  · intro hagree
    exact (atMostAgrees_iff hT h0 h).1 hagree.atMost
  · intro hsmall
    refine ⟨(atMostAgrees_iff hT h0 h).2 hsmall, (atLeastAgrees_iff hT h0 h).2 hsmall,
      ⟨_, parseRangeString_fromInfinity N, notPrinted_of_limit? rfl T⟩, fun s r hr => ?_⟩
    exact notPrinted_of_limit? (by simp [Range.limit?, alertOn_of_at hr]) T

/-- A percentage that is written with digits only. -/
def percentage (ds : List UInt8) (hds : (∀ c ∈ ds, isdigit c) ∧ ds ≠ []) : Decimal where
  sign := .none
  int := ds
  frac := none
  exponent := none
  isDigits := by simpa using hds.1
  nonempty := by simpa using hds.2

theorem limitsAgree_eighty :
    LimitsAgree 16302692 (percentage (ascii "80") (by decide +kernel)) ↔
      (16302692 : UInt64).toNat * (percentage (ascii "80") (by decide +kernel)).value
        < 100 * 2 ^ 54 :=
  limitsAgree_iff (by decide) (by decide +kernel) (by decide +kernel)

/-- So many per cent of 16 gigabytes do not fit into 64 bits as a number of bytes. -/
theorem trillionPercent_not_limitsAgree :
    ¬ LimitsAgree 16777216 (percentage (ascii "1000000000000") (by decide +kernel)) := by
  intro hagree
  have hsmall := (atMostAgrees_iff (by decide) (by decide +kernel) (by decide +kernel)).1
    hagree.atMost
  exact absurd hsmall (by decide +kernel)

end NagiosPlugins
