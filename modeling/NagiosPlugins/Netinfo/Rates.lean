import NagiosPlugins.Data.Except
import NagiosPlugins.Netinfo.Basic

/-!
# Rates of all interfaces

Each of the ten rates is the increase of its own counter of 32 bits, which may wrap around between
the two snapshots. The loop over both snapshots converts the entries up to the end of the shorter
list. If the second snapshot is the shorter one, the rest of the first keeps the counters since
boot.
-/

namespace NagiosPlugins

open Libc

/-- The counters of the first entry are converted with those behind a NULL pointer. -/
def StatsMissing (ifl ifl2 : Iflist) : Prop :=
  ifl.ifname = ifl2.ifname ∧ ifl.stats.isSome ∧ ifl2.stats = none

/-- The body of the loop returns: neither `plugin_error` nor a NULL pointer ends it. -/
def Taken (options : UInt32) (ifl ifl2 : Iflist) : Prop :=
  ifl.ifname = ifl2.ifname ∧ ¬ StatsMissing ifl ifl2 ∧ linkFails options ifl.flags = false

instance (ifl ifl2 : Iflist) : Decidable (StatsMissing ifl ifl2) :=
  inferInstanceAs (Decidable (_ ∧ _))

instance (options : UInt32) (ifl ifl2 : Iflist) : Decidable (Taken options ifl ifl2) :=
  inferInstanceAs (Decidable (_ ∧ _))

/-- An entry with its rates. -/
def Iflist.converted (seconds : UInt32) (ifl ifl2 : Iflist) : Iflist :=
  { ifl with stats := ifl.stats.bind fun stats => ifl2.stats.map (stats.rates seconds) }

/-! ### Rates -/

/-- The ten counters. -/
def Ifstats.metrics : List (Ifstats → UInt32) :=
  [Ifstats.txPackets, Ifstats.rxPackets, Ifstats.txBytes, Ifstats.rxBytes, Ifstats.txErrors,
    Ifstats.rxErrors, Ifstats.txDropped, Ifstats.rxDropped, Ifstats.collisions,
    Ifstats.multicast]

/-- The increase of a counter, modulo its range, per second and rounded up. -/
def wrappedRate (seconds a b : UInt32) : ℤ :=
  ⌈((((b.toNat : ℤ) - a.toNat) % 2 ^ 32 : ℤ) : ℚ) / seconds.toNat⌉

/-- An entry keeps what is not counted, and each counter is the rate of the same counter of both
snapshots. -/
structure HasWrappedRates (seconds : UInt32) (ifl old new : Iflist) : Prop where
  ifname_eq : ifl.ifname = old.ifname
  duplex_eq : ifl.duplex = old.duplex
  speed_eq : ifl.speed = old.speed
  flags_eq : ifl.flags = old.flags
  isSome_stats : ifl.stats.isSome = old.stats.isSome
  rates : ∀ stats1 stats2, old.stats = some stats1 → new.stats = some stats2 →
    ∃ stats, ifl.stats = some stats ∧ ∀ metric ∈ Ifstats.metrics,
      ((metric stats).toNat : ℤ) = wrappedRate seconds (metric stats1) (metric stats2)

lemma toNat_sub_eq_emod (a b : UInt32) :
    ((b - a).toNat : ℤ) = ((b.toNat : ℤ) - a.toNat) % 2 ^ 32 := by
  have ha := a.toNat_lt
  have hb := b.toNat_lt
  rw [UInt32.toNat_sub]
  omega

/-- A rate does not exceed the increase, so it fits in 32 bits. -/
lemma ceil_div_le (x seconds : ℕ) (hseconds : 0 < seconds) : ⌈(x : ℚ) / seconds⌉₊ ≤ x := by
  rw [Nat.ceil_le]
  apply div_le_self (Nat.cast_nonneg x)
  exact Nat.one_le_cast.2 hseconds

lemma toNat_divCeil {seconds : UInt32} (hseconds : 0 < seconds) (a b : UInt32) :
    ((divCeil seconds a b).toNat : ℤ) = wrappedRate seconds a b := by
  have hpos : 0 < seconds.toNat := UInt32.lt_iff_toNat_lt.1 hseconds
  have hle := ceil_div_le (b - a).toNat seconds.toNat hpos
  have hfits := hle.trans_lt (b - a).toNat_lt
  have hnonneg : (0 : ℚ) ≤ ((b - a).toNat : ℚ) / seconds.toNat := by positivity
  rw [divCeil, UInt32.toNat_ofNat_of_lt' hfits, wrappedRate, ← toNat_sub_eq_emod,
    Int.natCast_ceil_eq_ceil hnonneg, Int.cast_natCast]

lemma rates_metric {metric : Ifstats → UInt32} (h : metric ∈ Ifstats.metrics) (seconds : UInt32)
    (stats1 stats2 : Ifstats) :
    metric (stats1.rates seconds stats2) = divCeil seconds (metric stats1) (metric stats2) := by
  rw [Ifstats.metrics] at h
  simp only [List.mem_cons, List.not_mem_nil, or_false] at h
  rcases h with rfl | rfl | rfl | rfl | rfl | rfl | rfl | rfl | rfl | rfl <;> rfl

lemma hasWrappedRates_converted (hseconds : 0 < seconds) {ifl ifl2 : Iflist}
    (hstats : ifl.stats.isSome → ifl2.stats.isSome) :
    HasWrappedRates seconds (ifl.converted seconds ifl2) ifl ifl2 where
  ifname_eq := rfl
  duplex_eq := rfl
  speed_eq := rfl
  flags_eq := rfl
  isSome_stats := by
    cases hold : ifl.stats with
    | none => simp [Iflist.converted, hold]
    | some stats =>
      obtain ⟨stats2, hnew⟩ := Option.isSome_iff_exists.1 (hstats (by rw [hold]; rfl))
      simp [Iflist.converted, hold, hnew]
  rates stats1 stats2 hold hnew := by
    refine ⟨stats1.rates seconds stats2, by simp [Iflist.converted, hold, hnew], ?_⟩
    intro metric hmetric
    rw [rates_metric hmetric]
    exact toNat_divCeil hseconds _ _

/-! ### The loop -/

section Entry

variable {options seconds : UInt32} {ifl ifl2 : Iflist}

lemma convertStats_of_not_statsMissing (hname : ifl.ifname = ifl2.ifname)
    (h : ¬ StatsMissing ifl ifl2) :
    convertStats seconds ifl ifl2 = .ok (ifl.converted seconds ifl2) := by
  obtain ⟨ifname, duplex, speed, flags, stats⟩ := ifl
  cases stats with
  | none => rfl
  | some stats =>
    cases hstats2 : ifl2.stats with
    | none => exact absurd ⟨hname, rfl, hstats2⟩ h
    | some stats2 => simp [convertStats, Iflist.converted, hstats2]

lemma netinfoEntry_of_taken (h : Taken options ifl ifl2) :
    netinfoEntry options seconds ifl ifl2 = .ok (ifl.converted seconds ifl2) := by
  obtain ⟨hname, hstats, hlink⟩ := h
  have hflags : (ifl.converted seconds ifl2).flags = ifl.flags := rfl
  rw [netinfoEntry, if_neg (not_not.2 hname), convertStats_of_not_statsMissing hname hstats,
    Except.ok_bind, hflags, hlink]
  rfl

lemma netinfoEntry_of_statsMissing (h : StatsMissing ifl ifl2) :
    netinfoEntry options seconds ifl ifl2 = .error .undefined := by
  obtain ⟨hname, hstats, hstats2⟩ := h
  obtain ⟨stats, hstats⟩ := Option.isSome_iff_exists.1 hstats
  rw [netinfoEntry, if_neg (not_not.2 hname), convertStats, hstats, hstats2]
  rfl

lemma netinfoEntry_of_not_taken (h : ¬ Taken options ifl ifl2) (hstats : ¬ StatsMissing ifl ifl2) :
    ∃ status message, netinfoEntry options seconds ifl ifl2
      = .error (.pluginError status message) := by
  by_cases hname : ifl.ifname = ifl2.ifname
  · have hlink : linkFails options (ifl.converted seconds ifl2).flags = true := by
      by_contra hlink
      exact h ⟨hname, hstats, Bool.eq_false_iff.2 hlink⟩
    rw [netinfoEntry, if_neg (not_not.2 hname), convertStats_of_not_statsMissing hname hstats,
      Except.ok_bind, hlink]
    exact ⟨_, _, rfl⟩
  · exact ⟨_, _, if_pos hname⟩

end Entry

/-- The first pair of entries at which the loop ends early. -/
def firstStop (options : UInt32) (snapshot snapshot2 : List Iflist) : Option (Iflist × Iflist) :=
  (snapshot.zip snapshot2).find? fun p => ¬ Taken options p.1 p.2

@[simp] lemma firstStop_nil_left (options : UInt32) (snapshot2 : List Iflist) :
    firstStop options [] snapshot2 = none := rfl

@[simp] lemma firstStop_nil_right (options : UInt32) (snapshot : List Iflist) :
    firstStop options snapshot [] = none := by
  cases snapshot <;> rfl

lemma firstStop_cons (options : UInt32) (ifl ifl2 : Iflist) (snapshot snapshot2 : List Iflist) :
    firstStop options (ifl :: snapshot) (ifl2 :: snapshot2)
      = if Taken options ifl ifl2 then firstStop options snapshot snapshot2
        else some (ifl, ifl2) := by
  rw [firstStop, List.zip_cons_cons, List.find?_cons]
  by_cases h : Taken options ifl ifl2 <;> simp [h, firstStop]

variable {options seconds : UInt32} {snapshot snapshot2 : List Iflist}

/-- A loop that is not ended early converts the entries up to the end of the shorter list. -/
lemma netinfoLoop_of_none (h : firstStop options snapshot snapshot2 = none) :
    netinfoLoop options seconds snapshot snapshot2
      = .ok (List.zipWith (Iflist.converted seconds) snapshot snapshot2
          ++ snapshot.drop snapshot2.length, min snapshot.length snapshot2.length) := by
  induction snapshot generalizing snapshot2 with
  | nil => simp [netinfoLoop]
  | cons ifl iflhead ih =>
    cases snapshot2 with
    | nil => simp [netinfoLoop]
    | cons ifl2 iflhead2 =>
      rw [firstStop_cons] at h
      split_ifs at h with htaken
      rw [netinfoLoop, netinfoEntry_of_taken htaken, Except.ok_bind, ih h]
      simp [Nat.add_min_add_right]

/-- The pair at which the loop ends early decides how. -/
lemma netinfoLoop_of_some {p : Iflist × Iflist}
    (h : firstStop options snapshot snapshot2 = some p) {stop : Stop}
    (hentry : netinfoEntry options seconds p.1 p.2 = .error stop) :
    netinfoLoop options seconds snapshot snapshot2 = .error stop := by
  induction snapshot generalizing snapshot2 with
  | nil => simp at h
  | cons ifl iflhead ih =>
    cases snapshot2 with
    | nil => simp at h
    | cons ifl2 iflhead2 =>
      rw [firstStop_cons] at h
      rw [netinfoLoop]
      split_ifs at h with htaken
      · rw [netinfoEntry_of_taken htaken, Except.ok_bind, ih h]
        rfl
      · cases h
        rw [hentry]
        rfl

/-- Every pair of a loop that is not ended early is taken over. -/
lemma taken_of_firstStop_eq_none (h : firstStop options snapshot snapshot2 = none) :
    ∀ p ∈ snapshot.zip snapshot2, Taken options p.1 p.2 := by
  intro p hp
  simpa using List.find?_eq_none.1 h p hp

lemma not_taken_of_firstStop_eq_some {p : Iflist × Iflist}
    (h : firstStop options snapshot snapshot2 = some p) : ¬ Taken options p.1 p.2 := by
  simpa using List.find?_some h

/-! ### The result -/

/-- The counters of an entry are the rates between two entries of the same name, where the second
one has counters if the first one does. -/
structure HasRates (seconds : UInt32) (ifl old new : Iflist) : Prop where
  ifname_eq : new.ifname = old.ifname
  isSome_stats : old.stats.isSome → new.stats.isSome
  wrappedRates : HasWrappedRates seconds ifl old new

/-- The run ends through `plugin_error`, or every entry of the list carries rates and the number
of interfaces is that of the entries. -/
def CarriesRates (seconds : UInt32) (snapshot snapshot2 : List Iflist)
    (result : Except Stop (List Iflist × ℕ)) : Prop :=
  (∃ status message, result = .error (.pluginError status message)) ∨
    ∃ iflhead ninterfaces, result = .ok (iflhead, ninterfaces) ∧
      ninterfaces = iflhead.length ∧
      List.Forall₂ (fun ifl old => ∃ new ∈ snapshot2, HasRates seconds ifl old new) iflhead snapshot

lemma Taken.isSome_stats {ifl ifl2 : Iflist} (h : Taken options ifl ifl2)
    (hsome : ifl.stats.isSome) : ifl2.stats.isSome := by
  obtain ⟨hname, hstats, -⟩ := h
  rw [Option.isSome_iff_ne_none]
  intro hnone
  exact hstats ⟨hname, hsome, hnone⟩

lemma Taken.hasRates (hseconds : 0 < seconds) {ifl ifl2 : Iflist} (h : Taken options ifl ifl2) :
    HasRates seconds (ifl.converted seconds ifl2) ifl ifl2 where
  ifname_eq := h.1.symm
  isSome_stats := h.isSome_stats
  wrappedRates := hasWrappedRates_converted hseconds h.isSome_stats

/-- The converted entries carry rates if the second snapshot is not shorter. -/
lemma forall₂_converted (hseconds : 0 < seconds) (hlen : snapshot.length ≤ snapshot2.length)
    (h : ∀ p ∈ snapshot.zip snapshot2, Taken options p.1 p.2) :
    List.Forall₂ (fun ifl old => ∃ new ∈ snapshot2, HasRates seconds ifl old new)
      (List.zipWith (Iflist.converted seconds) snapshot snapshot2) snapshot := by
  rw [List.forall₂_iff_get]
  refine ⟨by simp [hlen], ?_⟩
  intro i hi hi'
  have hi2 : i < snapshot2.length := by omega
  have hmem : (snapshot[i], snapshot2[i]) ∈ snapshot.zip snapshot2 := by
    rw [List.mem_iff_getElem]
    exact ⟨i, by simp [hi', hi2], by simp⟩
  refine ⟨snapshot2[i], List.getElem_mem hi2, ?_⟩
  simpa using (h _ hmem).hasRates hseconds

/-- The interfaces carry rates exactly if the second snapshot is not the shorter one, unless the
loop ends early; then it must not be by a NULL pointer. -/
theorem netinfo_carriesRates_iff (options : UInt32) (regerror : Option String) {seconds : UInt32}
    (hseconds : 0 < seconds) (snapshot snapshot2 : List Iflist) (ninterfaces : ℕ) :
    CarriesRates seconds snapshot snapshot2
        (netinfo options regerror seconds snapshot snapshot2 ninterfaces) ↔
      regerror.isSome ∨
        (firstStop options snapshot snapshot2 = none → snapshot.length ≤ snapshot2.length) ∧
          ∀ p ∈ firstStop options snapshot snapshot2, ¬ StatsMissing p.1 p.2 := by
  cases regerror with
  | some msgbuf => simp [netinfo, CarriesRates]
  | none =>
    simp only [netinfo, if_pos hseconds, Option.isSome_none, Bool.false_eq_true, false_or]
    cases hstop : firstStop options snapshot snapshot2 with
    | none =>
      rw [netinfoLoop_of_none hstop]
      constructor
      · rintro (⟨_, _, h⟩ | ⟨iflhead, n, h, hn, -⟩)
        · cases h
        · cases h
          simp only [List.length_append, List.length_zipWith, List.length_drop] at hn
          refine ⟨?_, by simp⟩
          intro _
          omega
      · rintro ⟨hlen, -⟩
        have hlen := hlen rfl
        refine Or.inr ⟨_, _, rfl, ?_, ?_⟩
        · simp only [List.length_append, List.length_zipWith, List.length_drop]
          omega
        · rw [List.drop_eq_nil_of_le hlen, List.append_nil]
          exact forall₂_converted hseconds hlen (taken_of_firstStop_eq_none hstop)
    | some p =>
      obtain ⟨ifl, ifl2⟩ := p
      by_cases hstats : StatsMissing ifl ifl2
      · rw [netinfoLoop_of_some hstop (netinfoEntry_of_statsMissing hstats)]
        simp [CarriesRates, hstats]
      · have hnot := not_taken_of_firstStop_eq_some hstop
        obtain ⟨status, message, hentry⟩ :=
          netinfoEntry_of_not_taken hnot hstats
        rw [netinfoLoop_of_some hstop hentry]
        simp [CarriesRates, hstats]

/-- An interface that is up, with the same number in every counter. -/
def upInterface (ifname : CString) (n : UInt32) : Iflist where
  ifname := ifname
  duplex := .full
  speed := 1000
  flags := iffUp ||| iffRunning
  stats := some ⟨n, n, n, n, n, n, n, n, n, n⟩

/-- Both interfaces are there both times. -/
theorem netinfo_carriesRates_both :
    CarriesRates 2 [upInterface (ascii "lo") 10, upInterface (ascii "eth0") 300]
      [upInterface (ascii "lo") 10, upInterface (ascii "eth0") 305]
      (netinfo 0 none 2 [upInterface (ascii "lo") 10, upInterface (ascii "eth0") 300]
        [upInterface (ascii "lo") 10, upInterface (ascii "eth0") 305] 0) :=
  (netinfo_carriesRates_iff 0 none (by decide) _ _ 0).2 (by decide)

/-- The second interface is gone when the second snapshot is taken. It is returned with its counters
since boot, and is not counted. -/
theorem vanished_not_carriesRates :
    (∃ lo, netinfo 0 none 2 [upInterface (ascii "lo") 10, upInterface (ascii "veth0") 300]
      [upInterface (ascii "lo") 10] 0 = .ok ([lo, upInterface (ascii "veth0") 300], 1)) ∧
    ¬ CarriesRates 2 [upInterface (ascii "lo") 10, upInterface (ascii "veth0") 300]
      [upInterface (ascii "lo") 10]
      (netinfo 0 none 2 [upInterface (ascii "lo") 10, upInterface (ascii "veth0") 300]
        [upInterface (ascii "lo") 10] 0) := by
  have hloop : netinfo 0 none 2 [upInterface (ascii "lo") 10, upInterface (ascii "veth0") 300]
      [upInterface (ascii "lo") 10] 0
      = .ok ([(upInterface (ascii "lo") 10).converted 2 (upInterface (ascii "lo") 10),
          upInterface (ascii "veth0") 300], 1) :=
    netinfoLoop_of_none (by decide)
  rw [hloop]
  refine ⟨⟨_, rfl⟩, ?_⟩
  rintro (⟨_, _, h⟩ | ⟨iflhead, n, h, hn, -⟩)
  · cases h
  · cases h
    exact absurd hn (by decide)

end NagiosPlugins
