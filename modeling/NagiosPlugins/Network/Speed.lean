import NagiosPlugins.Network.Status

/-!
# The speed of a link

The plugin scales the speed of a link from Mbit/s to bytes per second in 32 bits, which do not
hold the speed of fast links.
-/

namespace NagiosPlugins

open Libc

/-- The bytes per second of a link. -/
def Iflist.bytesPerSecond (ifl : Iflist) : ℕ :=
  if ifl.duplex = .half then 62500 * ifl.speed.toNat else 125000 * ifl.speed.toNat

/-- The entry of a byte counter in percent of the speed. -/
def Iflist.percentEntry (ifl : Iflist) (label : CString) (counter : UInt32) : NetworkEntry where
  label := ifl.ifname ++ ascii "_" ++ label ++ ascii "/s"
  value := .percent (100 * counter.toNat / ifl.bytesPerSecond)

/-- An entry of a byte counter has the speed as its maximum. -/
def Iflist.HasMaximum (ifl : Iflist) (label : CString) (counter : UInt32) (entry : NetworkEntry) :
    Prop :=
  entry.label = ifl.ifname ++ ascii "_" ++ label ++ ascii "/s" ∧
    ∃ speed, entry.value = .counter counter (some speed) ∧ speed.toNat = ifl.bytesPerSecond

/-- The performance data relates the bytes of an interface to the speed of its link. -/
structure SpeedReported (ifl : Iflist) : Prop where
  percent : ∀ s : NetworkSettings, s.pdBytes = true → s.reportPerc = true →
    ∃ entries, interfacePerfdata ratioOverSpeed s ifl
      = .ok (ifl.percentEntry (ascii "txbyte") (iflistGetTxBytes ifl)
        :: ifl.percentEntry (ascii "rxbyte") (iflistGetRxBytes ifl) :: entries)
  maximum : ∀ s : NetworkSettings, s.pdBytes = true → s.reportPerc = false →
    ∃ tx rx entries, interfacePerfdata ratioOverSpeed s ifl = .ok (tx :: rx :: entries) ∧
      ifl.HasMaximum (ascii "txbyte") (iflistGetTxBytes ifl) tx ∧
      ifl.HasMaximum (ascii "rxbyte") (iflistGetRxBytes ifl) rx

/-! ### The arithmetic of 32 bits -/

variable {ifl : Iflist}

lemma toNat_linkSpeed (h : 1 ≤ ifl.speed) :
    (linkSpeed ifl).toNat = ifl.speed.toNat * 1000000 % 2 ^ 32 / 8 := by
  have hpos : ifl.speed > 0 := by
    rw [gt_iff_lt, UInt32.lt_iff_toNat_lt]
    exact UInt32.le_iff_toNat_le.1 h
  rw [linkSpeed, if_pos hpos, UInt32.toNat_toUInt64, UInt32.toNat_div, UInt32.toNat_mul,
    UInt32.toNat_mul, Nat.mod_mul_mod, mul_assoc]
  simp only [UInt32.reduceToNat, Nat.reduceMul]

lemma toNat_iterationSpeed (h : 1 ≤ ifl.speed) :
    (iterationSpeed ifl).toNat =
      ifl.speed.toNat * 1000000 % 2 ^ 32 / (if ifl.duplex = .half then 16 else 8) := by
  rw [iterationSpeed]
  split_ifs
  · rw [UInt64.toNat_div, toNat_linkSpeed h, UInt64.toNat_ofNat, Nat.div_div_eq_div_mul]
  · exact toNat_linkSpeed h

/-- Nothing is lost exactly if the product fits. -/
lemma toNat_iterationSpeed_eq_iff (h : 1 ≤ ifl.speed) :
    (iterationSpeed ifl).toNat = ifl.bytesPerSecond ↔ ifl.speed.toNat * 10 ^ 6 < 2 ^ 32 := by
  rw [toNat_iterationSpeed h, Iflist.bytesPerSecond]
  split_ifs <;> omega

lemma linkSpeed_pos (h : 0 < iterationSpeed ifl) : 0 < linkSpeed ifl := by
  rw [iterationSpeed] at h
  split_ifs at h
  · rw [UInt64.lt_iff_toNat_lt, UInt64.toNat_div] at h
    exact UInt64.lt_iff_toNat_lt.2 (h.trans_le (Nat.div_le_self _ _))
  · exact h

/-! ### The performance data -/

/-- An iteration that knows the speed of the link goes on. -/
lemma interfacePerfdata_of_linkSpeed (s : NetworkSettings) (h : 0 < linkSpeed ifl) :
    interfacePerfdata ratioOverSpeed s ifl
      = .ok (interfaceEntries ratioOverSpeed s ifl (iterationSpeed ifl)) := by
  have hspeed : decide (linkSpeed ifl > 0) = true := decide_eq_true h
  simp only [interfacePerfdata, hspeed, Bool.not_true, Bool.and_false, Bool.false_eq_true,
    if_false]
  rfl

/-- Counters are printed at any speed. -/
lemma interfacePerfdata_of_reportPerc {s : NetworkSettings} (h : s.reportPerc = false) :
    interfacePerfdata ratioOverSpeed s ifl
      = .ok (interfaceEntries ratioOverSpeed s ifl (iterationSpeed ifl)) := by
  simp only [interfacePerfdata, h, Bool.false_and, Bool.false_eq_true, if_false]
  rfl

lemma interfaceEntries_of_pdBytes (ifl : Iflist) {s : NetworkSettings} (h : s.pdBytes = true)
    (speed : UInt64) :
    ∃ entries, interfaceEntries ratioOverSpeed s ifl speed
      = fmtPerfdataBytes ratioOverSpeed ifl.ifname (ascii "txbyte") (iflistGetTxBytes ifl) speed
          s.reportPerc
        :: fmtPerfdataBytes ratioOverSpeed ifl.ifname (ascii "rxbyte") (iflistGetRxBytes ifl) speed
          s.reportPerc
        :: entries := by
  simp only [interfaceEntries, h, if_true, List.cons_append, List.nil_append]
  exact ⟨_, rfl⟩

lemma fmtPerfdataBytes_percent (label : CString) (counter : UInt32) {speed : UInt64}
    (hpos : 0 < speed) (hspeed : speed.toNat = ifl.bytesPerSecond) :
    fmtPerfdataBytes ratioOverSpeed ifl.ifname label counter speed true
      = ifl.percentEntry label counter := by
  have hratio : ratioOverSpeed counter speed = 100 * counter.toNat / ifl.bytesPerSecond := by
    rw [ratioOverSpeed, hspeed, div_mul_eq_mul_div]
  rw [fmtPerfdataBytes, Iflist.percentEntry, ← hratio]
  simp only [Bool.true_and, decide_eq_true hpos, if_true, gt_iff_lt]

lemma fmtPerfdataBytes_maximum (label : CString) (counter : UInt32) {speed : UInt64}
    (hpos : 0 < speed) (hspeed : speed.toNat = ifl.bytesPerSecond) :
    ifl.HasMaximum label counter
      (fmtPerfdataBytes ratioOverSpeed ifl.ifname label counter speed false) := by
  apply And.intro rfl
  refine ⟨speed, ?_, hspeed⟩
  simp only [fmtPerfdataBytes, Bool.false_and, Bool.not_false, Bool.true_and,
    decide_eq_true hpos, Bool.false_eq_true, if_true, if_false, gt_iff_lt]

/-- A maximum is the speed that the iteration works with. -/
lemma toNat_eq_of_hasMaximum {label : CString} {counter : UInt32} {speed : UInt64}
    (h : ifl.HasMaximum label counter
      (fmtPerfdataBytes ratioOverSpeed ifl.ifname label counter speed false)) :
    speed.toNat = ifl.bytesPerSecond := by
  obtain ⟨-, max, hvalue, hmax⟩ := h
  simp only [fmtPerfdataBytes, Bool.false_and, Bool.not_false, Bool.true_and,
    Bool.false_eq_true, if_false] at hvalue
  split_ifs at hvalue
  · cases hvalue
    exact hmax
  · cases hvalue

lemma toNat_iterationSpeed_of_reported (h : SpeedReported ifl) :
    (iterationSpeed ifl).toNat = ifl.bytesPerSecond := by
  obtain ⟨tx, rx, entries, hok, htx, -⟩ := h.maximum {} rfl rfl
  obtain ⟨entries', hentries⟩ :=
    interfaceEntries_of_pdBytes ifl (rfl : ({} : NetworkSettings).pdBytes = true)
      (iterationSpeed ifl)
  rw [interfacePerfdata_of_reportPerc rfl, hentries] at hok
  cases hok
  exact toNat_eq_of_hasMaximum htx

lemma speedReported_of_toNat (hpos : 0 < iterationSpeed ifl)
    (h : (iterationSpeed ifl).toNat = ifl.bytesPerSecond) : SpeedReported ifl where
  percent s hbytes hperc := by
    obtain ⟨entries, hentries⟩ := interfaceEntries_of_pdBytes ifl hbytes _
    refine ⟨entries, ?_⟩
    rw [interfacePerfdata_of_linkSpeed s (linkSpeed_pos hpos), hentries, hperc,
      fmtPerfdataBytes_percent _ _ hpos h, fmtPerfdataBytes_percent _ _ hpos h]
  maximum s hbytes hperc := by
    obtain ⟨entries, hentries⟩ := interfaceEntries_of_pdBytes ifl hbytes _
    rw [hperc] at hentries
    refine ⟨_, _, entries, ?_, fmtPerfdataBytes_maximum _ _ hpos h,
      fmtPerfdataBytes_maximum _ _ hpos h⟩
    rw [interfacePerfdata_of_linkSpeed s (linkSpeed_pos hpos), hentries]

/-- Percentages and maxima are those of the link exactly if its speed in bit/s fits in 32 bits. -/
theorem speedReported_iff (h : 1 ≤ ifl.speed) :
    SpeedReported ifl ↔ ifl.speed.toNat * 10 ^ 6 < 2 ^ 32 := by
  rw [← toNat_iterationSpeed_eq_iff h]
  constructor
  · exact toNat_iterationSpeed_of_reported
  · intro hspeed
    have hlink : 1 ≤ ifl.speed.toNat := UInt32.le_iff_toNat_le.1 h
    have hpos : 0 < iterationSpeed ifl := by
      rw [UInt64.lt_iff_toNat_lt, hspeed, Iflist.bytesPerSecond, UInt64.toNat_zero]
      split_ifs <;> omega
    exact speedReported_of_toNat hpos hspeed

/-- An interface at ten Gbit/s. -/
def fastInterface : Iflist where
  ifname := ascii "eth1"
  duplex := .full
  speed := 10000
  flags := iffUp ||| iffRunning
  stats := some ⟨0, 0, 125000000, 125000000, 0, 0, 0, 0, 0, 0⟩

/-- The same interface at one Gbit/s. -/
theorem speedReported_gigabit : SpeedReported { fastInterface with speed := 1000 } :=
  (speedReported_iff (by decide)).2 (by decide)

/-- A seventh of the speed is left. -/
theorem fastInterface_not_reported : ¬ SpeedReported fastInterface := by
  intro h
  have hspeed := toNat_iterationSpeed_of_reported h
  exact absurd hspeed (by decide)

end NagiosPlugins
