import NagiosPlugins.Libc.Binary64
import NagiosPlugins.Perfdata.Properties
import NagiosPlugins.Thresholds.Rounded

/-!
# Limits that an unsigned number can hold

The thresholds and `get_perfdata_limit` with the doubles of the machine, which are rounded. Nothing
keeps the product of the base and a bound in the range of the conversion.
-/

namespace NagiosPlugins

open Libc

/-! ### Rounded limits -/

/-- `get_perfdata_limit`: the return code, and what `*limit` holds afterwards. -/
def getPerfdataLimitRounded (threshold : Option Range) (base limit : UInt64) (percent : Bool) :
    Except Stop (ℤ × UInt64) :=
  match threshold with
  | none => .ok (-1, limit)
  | some threshold =>
    if threshold.alertOn = .inside then .ok (-1, limit)
    else if threshold.startInfinity then .ok (-1, limit)
    else do
      let thresholdLimit := if threshold.endInfinity then threshold.start else threshold.end_
      let limit ← toUnsignedLongLong ((Double.ofUInt64 base).mul thresholdLimit)
      if percent then
        let limit ← toUnsignedLongLong ((Double.ofUInt64 limit).divNat 100)
        return (0, limit)
      else return (0, limit)

section Limit

variable {r : Range} {base : UInt64}

lemma limit?_eq_some {bound : Double} (hr : r.limit? = some bound) :
    r.alertOn ≠ .inside ∧ ¬ r.startInfinity ∧
      (if r.endInfinity then r.start else r.end_) = bound := by
  rw [Range.limit?] at hr
  by_cases hnone : r.alertOn = .inside ∨ r.startInfinity
  · rw [if_pos hnone] at hr
    cases hr
  · rw [if_neg hnone] at hr
    exact ⟨(not_or.1 hnone).1, (not_or.1 hnone).2, Option.some.inj hr⟩

/-- The limit is computed from the value that `Range.limit?` names. -/
lemma getPerfdataLimitRounded_some {bound : Double} (hr : r.limit? = some bound)
    (limit : UInt64) (percent : Bool) :
    getPerfdataLimitRounded (some r) base limit percent = (do
      let limit ← toUnsignedLongLong ((Double.ofUInt64 base).mul bound)
      if percent then
        let limit ← toUnsignedLongLong ((Double.ofUInt64 limit).divNat 100)
        return (0, limit)
      else return (0, limit)) := by
  obtain ⟨hinside, hinfinity, rfl⟩ := limit?_eq_some hr
  rw [getPerfdataLimitRounded, if_neg hinside, if_neg hinfinity]

end Limit

/-! ### Conversions in range -/

section Representable

variable {base : UInt64} {bound : Double}

/-- A number in range is cut off. -/
lemma toUnsignedLongLong_fin {x : ℚ} (h0 : 0 ≤ x) (h : x < 2 ^ 64) :
    ∃ n, toUnsignedLongLong (.fin x) = .ok n ∧ n.toNat = ⌊x⌋₊ :=
  ⟨_, by rw [toUnsignedLongLong, Double.toUInt64?_fin h0 h], Double.toNat_ofNat_floor h0 h⟩

/-- The base is multiplied with this bound, and the product, which is rounded, can be converted. -/
def ProductInRange (base : UInt64) (bound : Double) (x : ℚ) : Prop :=
  (Double.ofUInt64 base).mul bound = .fin x ∧ 0 ≤ x ∧ x < 2 ^ 64

/-- The bound is a number, and not negative unless the base is zero, and its product with the base,
which is rounded first, is not within half a place of 2 ^ 64 or greater. -/
def BoundInRange (base : UInt64) (bound : Double) : Prop :=
  ∃ b q, Double.ofUInt64 base = .fin b ∧ bound = .fin q ∧ (base = 0 ∨ 0 ≤ q) ∧
    b * q < 2 ^ 64 - 2 ^ 10

lemma exists_productInRange_iff {d : Double} (hbound : bound = d.rounded) :
    (∃ x, ProductInRange base bound x) ↔ BoundInRange base bound := by
  obtain ⟨b, hb, hzero, hone⟩ : ∃ b, Double.ofUInt64 base = .fin b ∧ (base = 0 → b = 0) ∧
      (base ≠ 0 → 1 ≤ b) := by
    by_cases hbase : base = 0
    · exact ⟨0, by rw [hbase, Double.ofUInt64_zero], fun _ => rfl, fun h => absurd hbase h⟩
    · obtain ⟨b, hb, hle⟩ := Double.exists_ofUInt64 hbase
      exact ⟨b, hb, fun h => absurd h hbase, fun _ => hle⟩
  cases bound with
  | nan => simp [ProductInRange, BoundInRange, Double.mul, hb]
  | inf negative =>
    constructor
    · rintro ⟨x, hx, -⟩
      rw [hb, Double.mul] at hx
      split_ifs at hx
    · rintro ⟨b', q, -, hq, -⟩
      cases hq
  | fin q =>
    have hsign : 0 ≤ b * q ∨ b * q ≤ -2 ^ (-1074 : ℤ) := by
      by_cases hbase : base = 0
      · left
        rw [hzero hbase, zero_mul]
      · have hle := hone hbase
        rcases le_or_gt 0 q with hq | hq
        · left
          positivity
        · right
          have hsmall : q ≤ -2 ^ (-1074 : ℤ) := by
            cases d with
            | fin p => exact Double.le_neg_of_nearest hbound.symm hq
            | inf negative => cases hbound
            | nan => cases hbound
          nlinarith
    have hnonneg : 0 ≤ b * q ↔ base = 0 ∨ 0 ≤ q := by
      by_cases hbase : base = 0
      · simp [hzero hbase, hbase]
      · have hpos : 0 < b := zero_lt_one.trans_le (hone hbase)
        rw [mul_nonneg_iff_of_pos_left hpos, or_iff_right hbase]
    have hiff := Double.nearest_mem_iff hsign
    rw [hnonneg] at hiff
    simp only [ProductInRange, BoundInRange, hb, Double.mul, hiff]
    constructor
    · rintro ⟨hq, hlt⟩
      exact ⟨b, q, rfl, rfl, hq, hlt⟩
    · rintro ⟨b', q', hb', hq', hq, hlt⟩
      cases hb'
      cases hq'
      exact ⟨hq, hlt⟩

/-- A hundredth of an unsigned number can be converted. -/
lemma exists_divNat (n : UInt64) :
    ∃ y, (Double.ofUInt64 n).divNat 100 = .fin y ∧ 0 ≤ y ∧ y < 2 ^ 64 := by
  have hn : (n.toNat : ℚ) < 2 ^ 64 := by exact_mod_cast n.toNat_lt
  obtain ⟨x, hx, hx0, hx64⟩ := (Double.nearest_lt_iff (q := n.toNat) (k := 12) (by norm_num)
    (by norm_num) (Nat.cast_nonneg _)).2 (by norm_num at hn ⊢; linarith)
  have hpos : 0 ≤ x / (100 : ℕ) := by positivity
  obtain ⟨y, hy, hy0, hy64⟩ := (Double.nearest_mem_iff (Or.inl hpos)).2
    ⟨hpos, by norm_num at hx64 ⊢; linarith⟩
  exact ⟨y, by rw [Double.ofUInt64, hx, Double.divNat, hy], hy0, hy64⟩

/-- What is converted for a range is in range, and what is printed is the product, cut off, or the
hundredth of that, cut off again. -/
def LimitRepresentable (r : Range) (base : UInt64) : Prop :=
  ∀ bound, r.limit? = some bound → ∃ x L, ProductInRange base bound x ∧ L.toNat = ⌊x⌋₊ ∧
    (∀ limit, getPerfdataLimitRounded (some r) base limit false = .ok (0, L)) ∧
    ∃ y L', (Double.ofUInt64 L).divNat 100 = .fin y ∧ 0 ≤ y ∧ y < 2 ^ 64 ∧ L'.toNat = ⌊y⌋₊ ∧
      ∀ limit, getPerfdataLimitRounded (some r) base limit true = .ok (0, L')

lemma limitRepresentable_iff {r : Range} {s : CString} (hr : r = (readRange s).rounded)
    (base : UInt64) :
    LimitRepresentable r base ↔ ∀ bound, r.limit? = some bound → BoundInRange base bound := by
  have hrounded : ∀ bound, r.limit? = some bound → ∃ d : Double, bound = d.rounded := by
    intro bound hbound
    obtain ⟨-, -, rfl⟩ := limit?_eq_some hbound
    rw [hr]
    split_ifs
    · exact ⟨_, rfl⟩
    · exact ⟨_, rfl⟩
  refine forall₂_congr fun bound hbound => ?_
  obtain ⟨d, hd⟩ := hrounded bound hbound
  rw [← exists_productInRange_iff hd]
  constructor
  · rintro ⟨x, L, hx, -⟩
    exact ⟨x, hx⟩
  · rintro ⟨x, hproduct, h0, h64⟩
    obtain ⟨L, hL, hLx⟩ := toUnsignedLongLong_fin h0 h64
    obtain ⟨y, hy, hy0, hy64⟩ := exists_divNat L
    obtain ⟨L', hL', hLy⟩ := toUnsignedLongLong_fin hy0 hy64
    refine ⟨x, L, ⟨hproduct, h0, h64⟩, hLx, fun limit => ?_, y, L', hy, hy0, hy64, hLy,
      fun limit => ?_⟩
    · rw [getPerfdataLimitRounded_some hbound, hproduct, hL]
      rfl
    · rw [getPerfdataLimitRounded_some hbound, hproduct, hL, Except.ok_bind, if_pos rfl, hy, hL']
      rfl

/-! ### Accepted strings -/

/-- The limits of both thresholds. -/
def LimitsRepresentable (th : Thresholds) (base : UInt64) : Prop :=
  ∀ r, r ∈ th.warning ∨ r ∈ th.critical → LimitRepresentable r base

variable {t : Option Thresholds} {w c : Option CString} {th : Thresholds}

/-- The ranges of accepted strings are the rounded ones that are read. -/
lemma setThresholdsRounded_inv (hset : setThresholdsRounded t w c = (0, some th)) {r : Range}
    (hr : r ∈ th.warning ∨ r ∈ th.critical) : ∃ s, r = (readRange s).rounded := by
  have hparse : ∀ o : Option CString, r ∈ (o.map parseRangeStringRounded).join →
      ∃ s, r = (readRange s).rounded := by
    intro o ho
    cases o with
    | none => cases ho
    | some s =>
      rw [Option.map_some, Option.join_some, Option.mem_def, parseRangeStringRounded] at ho
      split_ifs at ho
      exact ⟨s, (Option.some.inj ho).symm⟩
  rw [setThresholdsRounded] at hset
  dsimp only at hset
  split_ifs at hset
  · cases hset
  · cases hset
  · cases hset
    exact hr.elim (hparse w) (hparse c)

/-- The limits of accepted thresholds are representable if and only if each bound that a limit is
computed from is in range. -/
theorem limitsRepresentable_iff (hset : setThresholdsRounded t w c = (0, some th))
    (base : UInt64) :
    LimitsRepresentable th base ↔
      ∀ r, r ∈ th.warning ∨ r ∈ th.critical →
        ∀ bound, r.limit? = some bound → BoundInRange base bound := by
  refine forall₂_congr fun r hr => ?_
  obtain ⟨s, hs⟩ := setThresholdsRounded_inv hset hr
  exact limitRepresentable_iff hs base

end Representable

/-- Up to a negative number. -/
def negativeRange : Range where
  start := .fin (-5)
  end_ := .fin (-1)
  startInfinity := false
  endInfinity := false
  alertOn := .outside

theorem limitsRepresentable_iff_eighty :
    LimitsRepresentable ⟨none, some ⟨.fin 0, .fin 80, false, false, .outside⟩⟩ 16302692 ↔
      ∀ r, r ∈ (none : Option Range) ∨
          r ∈ some (⟨.fin 0, .fin 80, false, false, .outside⟩ : Range) →
        ∀ bound, r.limit? = some bound → BoundInRange 16302692 bound :=
  limitsRepresentable_iff (t := none) (w := none) (c := some (ascii "80")) (by decide +kernel)
    16302692

/-- A range below zero is accepted, and a negative number is converted. -/
theorem negative_not_limitsRepresentable :
    ∃ th, setThresholdsRounded none (some (ascii "-5:-1")) none = (0, some th) ∧
      ¬ LimitsRepresentable th 1 := by
  refine ⟨⟨some negativeRange, none⟩, by decide +kernel, fun h => ?_⟩
  obtain ⟨x, L, ⟨hx, h0, -⟩, -⟩ := h negativeRange (Or.inl rfl) (.fin (-1)) (by decide +kernel)
  have hproduct : (Double.ofUInt64 1).mul (.fin (-1)) = .fin (-1) := by decide +kernel
  rw [hproduct] at hx
  cases hx
  exact absurd h0 (by norm_num)

end NagiosPlugins
