import Mathlib.Data.List.MinMax
import NagiosPlugins.Sysfs.Lines

/-!
# The hottest zone

The temperature and the number that are reported belong to the first of the hottest zones, the type
to the zone that is listed last.
-/

namespace NagiosPlugins

open Libc

/-- A directory in which every zone that is considered can be read: its temperature and its type.
The zones have different numbers, and there is at least one. -/
structure ThermalDirectory (sysfs : Sysfs) (selectedZone : UInt32) where
  entries : List CString
  temp : CString → UInt64
  type : CString → Option CString
  thermalSupport : sysfs.thermalSupport = true
  thermalEntries : sysfs.thermalEntries = some entries
  getvalue_temp : ∀ dName ∈ entries, considered selectedZone dName →
    ∀ value, sysfsparserGetvalue sysfs value (tempPath dName) = .ok (0, temp dName)
  getline_type : ∀ dName ∈ entries, considered selectedZone dName →
    sysfsparserGetline sysfs (typePath dName) = .ok (type dName)
  number_inj : ∀ dName ∈ entries, considered selectedZone dName → ∀ dName' ∈ entries,
    considered selectedZone dName' → thermalZoneNumber dName = thermalZoneNumber dName' →
      dName = dName'
  exists_considered : ∃ dName ∈ entries, considered selectedZone dName

namespace ThermalDirectory

variable {sysfs : Sysfs} {selectedZone : UInt32} (d : ThermalDirectory sysfs selectedZone)

/-- The zones that are considered, in the order in which they are listed. -/
def zones : List CString := d.entries.filter (considered selectedZone)

lemma mem_zones {dName : CString} :
    dName ∈ d.zones ↔ dName ∈ d.entries ∧ considered selectedZone dName :=
  List.mem_filter

/-- The temperature as a number. -/
def degrees (dName : CString) : ℕ := (d.temp dName).toNat

/-- The temperature that is returned is the highest, and the number and the type are those of a
zone that has it. -/
def ReportsHottest : Prop :=
  ∃ maxTemp zone type,
    (∀ zone₀ type₀, sysfsparserThermalGetTemperature sysfs selectedZone zone₀ type₀
      = .ok (maxTemp, zone, type)) ∧
    (∀ dName ∈ d.zones, d.degrees dName ≤ maxTemp) ∧
    ∃ dName ∈ d.zones, (d.degrees dName : ℤ) = maxTemp ∧ thermalZoneNumber dName = zone ∧
      d.type dName = type

/-! ### The loop -/

/-- What a zone does to the variables. -/
def zoneStep (s : ThermalState) (dName : CString) : ThermalState :=
  if s.maxTemp < d.temp dName ∨ 0 = s.maxTemp then
    ⟨true, d.temp dName, d.temp dName, thermalZoneNumber dName, d.type dName⟩
  else ⟨true, s.maxTemp, d.temp dName, s.zone, d.type dName⟩

lemma thermalStep_eq {dName : CString} (hmem : dName ∈ d.entries) (s : ThermalState) :
    thermalStep sysfs selectedZone s dName
      = .ok (if considered selectedZone dName then d.zoneStep s dName else s) := by
  rw [thermalStep]
  split_ifs with hconsidered
  · rw [d.getvalue_temp dName hmem hconsidered, d.getline_type dName hmem hconsidered, zoneStep]
    simp only [Except.ok_bind]
    split_ifs <;> rfl
  · rfl

/-- The entries that are passed over leave the variables alone. -/
lemma foldlM_thermalStep (s : ThermalState) :
    d.entries.foldlM (thermalStep sysfs selectedZone) s = .ok (d.zones.foldl d.zoneStep s) := by
  have hloop : ∀ entries ⊆ d.entries, ∀ s, entries.foldlM (thermalStep sysfs selectedZone) s
      = .ok ((entries.filter (considered selectedZone)).foldl d.zoneStep s) := by
    intro entries
    induction entries with
    | nil => exact fun _ _ => rfl
    | cons dName entries ih =>
      intro hsubset s
      obtain ⟨hmem, hsubset⟩ := List.cons_subset.1 hsubset
      rw [List.foldlM_cons, d.thermalStep_eq hmem, Except.ok_bind, ih hsubset]
      by_cases hconsidered : considered selectedZone dName <;> simp [hconsidered]
  exact hloop d.entries (List.Subset.refl _) s

/-- The variables after the loop: the temperature of the first hottest zone, with its number unless
it is zero, and the type of the last zone. -/
lemma foldl_zoneStep {zones : List CString} {hottest last : CString}
    (hhottest : hottest ∈ zones.argmax d.degrees) (hlast : last ∈ zones.getLast?)
    (zone : UInt32) (type : Option CString) :
    zones.foldl d.zoneStep ⟨false, 0, 0, zone, type⟩
      = ⟨true, d.temp hottest, d.temp last,
          thermalZoneNumber (if d.temp hottest = 0 then last else hottest), d.type last⟩ := by
  induction zones using List.reverseRecOn generalizing hottest last with
  | nil => cases hlast
  | append_singleton zones dName ih =>
    rw [List.getLast?_concat, Option.mem_some] at hlast
    subst hlast
    rw [List.foldl_append, List.foldl_cons, List.foldl_nil]
    cases hfirst : zones.argmax d.degrees with
    | none =>
      -- the first zone is the hottest one
      rw [List.argmax_eq_none] at hfirst
      subst hfirst
      rw [List.nil_append, List.argmax_singleton] at hhottest
      obtain rfl := Option.some.inj hhottest
      simp [zoneStep]
    | some best =>
      have hne : zones ≠ [] := by
        rintro rfl
        cases hfirst
      rw [ih hfirst (List.getLast?_eq_getLast_of_ne_nil hne), zoneStep]
      rw [List.argmax_concat, hfirst] at hhottest
      simp only [degrees, ← UInt64.lt_iff_toNat_lt] at hhottest
      split_ifs at hhottest with hlt
      · obtain rfl := Option.some.inj hhottest
        simp [hlt]
      · obtain rfl := Option.some.inj hhottest
        by_cases hzero : d.temp best = 0
        · -- at zero the last zone is taken, which is at zero too
          have hlast : d.temp dName = 0 := by
            rw [hzero, UInt64.not_lt] at hlt
            exact UInt64.le_antisymm hlt UInt64.zero_le
          simp [hzero, hlast]
        · simp [hlt, hzero, Ne.symm hzero]

lemma exists_hottest : ∃ hottest, hottest ∈ d.zones.argmax d.degrees := by
  obtain ⟨dName, hmem, hconsidered⟩ := d.exists_considered
  have hne : d.zones ≠ [] := List.ne_nil_of_mem (d.mem_zones.2 ⟨hmem, hconsidered⟩)
  exact Option.ne_none_iff_exists'.1 (mt List.argmax_eq_none.1 hne)

lemma exists_last : ∃ last, last ∈ d.zones.getLast? := by
  obtain ⟨dName, hmem, hconsidered⟩ := d.exists_considered
  have hne : d.zones ≠ [] := List.ne_nil_of_mem (d.mem_zones.2 ⟨hmem, hconsidered⟩)
  exact ⟨_, List.getLast?_eq_getLast_of_ne_nil hne⟩

/-- What the function returns. -/
lemma thermalGetTemperature_ok {hottest last : CString}
    (hhottest : hottest ∈ d.zones.argmax d.degrees) (hlast : last ∈ d.zones.getLast?)
    (zone : UInt32) (type : Option CString) :
    sysfsparserThermalGetTemperature sysfs selectedZone zone type
      = .ok (toInt (d.temp hottest),
          thermalZoneNumber (if d.temp hottest = 0 then last else hottest), d.type last) := by
  rw [sysfsparserThermalGetTemperature, d.thermalSupport, d.thermalEntries]
  simp only [d.foldlM_thermalStep, d.foldl_zoneStep hhottest hlast, Except.ok_bind]
  rfl

/-- The highest temperature fits into an `int`, and the zone listed last has the type of the first
hottest zone, unless all of them are at zero. -/
def LastHasType : Prop :=
  ∀ hottest ∈ d.zones.argmax d.degrees, ∀ last ∈ d.zones.getLast?,
    d.degrees hottest < 2 ^ 31 ∧ (d.degrees hottest ≠ 0 → d.type last = d.type hottest)

/-- The zone whose number is reported is one of the hottest. -/
lemma exists_reported {hottest last : CString} (hhottest : hottest ∈ d.zones.argmax d.degrees)
    (hlast : last ∈ d.zones.getLast?) :
    ∃ reported ∈ d.zones, d.degrees reported = d.degrees hottest ∧
      reported = if d.temp hottest = 0 then last else hottest := by
  refine ⟨if d.temp hottest = 0 then last else hottest, ?_⟩
  split_ifs with hzero
  · have hle := List.le_of_mem_argmax (List.mem_of_getLast? hlast) hhottest
    refine ⟨List.mem_of_getLast? hlast, ?_, rfl⟩
    simp only [degrees, hzero, UInt64.toNat_zero] at hle ⊢
    omega
  · exact ⟨List.argmax_mem hhottest, rfl, rfl⟩

variable {d}

lemma ReportsHottest.lastHasType (h : d.ReportsHottest) : d.LastHasType := by
  intro hottest hhottest last hlast
  obtain ⟨maxTemp, zone, type, hreturn, hmax, dName, hdName, htemp, hzone, htype⟩ := h
  obtain ⟨reported, hmem, -, hreported⟩ := d.exists_reported hhottest hlast
  have heq := (d.thermalGetTemperature_ok hhottest hlast 0 none).symm.trans (hreturn 0 none)
  simp only [← hreported, Except.ok.injEq, Prod.mk.injEq] at heq
  obtain ⟨rfl, rfl, rfl⟩ := heq
  constructor
  · have hle := hmax hottest (List.argmax_mem hhottest)
    have hfits := (fitsInt_toInt (d.temp hottest)).2
    omega
  · intro hpositive
    have hne : d.temp hottest ≠ 0 := fun hzero => hpositive (by rw [degrees, hzero]; rfl)
    rw [if_neg hne] at hreported
    subst hreported
    obtain ⟨hentry, hconsidered⟩ := d.mem_zones.1 hdName
    obtain ⟨hentry', hconsidered'⟩ := d.mem_zones.1 hmem
    have hsame := d.number_inj dName hentry hconsidered reported hentry' hconsidered' hzone
    rw [← htype, hsame]

lemma LastHasType.reportsHottest (h : d.LastHasType) : d.ReportsHottest := by
  obtain ⟨hottest, hhottest⟩ := d.exists_hottest
  obtain ⟨last, hlast⟩ := d.exists_last
  obtain ⟨hfits, htype⟩ := h hottest hhottest last hlast
  obtain ⟨reported, hmem, hsame, hreported⟩ := d.exists_reported hhottest hlast
  have hok := d.thermalGetTemperature_ok hhottest hlast
  rw [toInt_of_lt hfits, ← hreported] at hok
  refine ⟨_, _, _, hok, ?_, reported, hmem, congrArg _ hsame, rfl, ?_⟩
  · intro dName hdName
    exact_mod_cast List.le_of_mem_argmax hdName hhottest
  · rw [hreported]
    split_ifs with hzero
    · rfl
    · refine (htype fun hdegrees => hzero ?_).symm
      exact UInt64.toNat_inj.1 hdegrees

/-- The function reports one of the hottest zones exactly if the last zone has its type. -/
theorem reportsHottest_iff (d : ThermalDirectory sysfs selectedZone) :
    d.ReportsHottest ↔ d.LastHasType :=
  ⟨ReportsHottest.lastHasType, LastHasType.reportsHottest⟩

lemma thermalZoneNumber_of_considered {dName : CString} (hselected : selectedZone ≠ allThermalZones)
    (h : considered selectedZone dName) : thermalZoneNumber dName = selectedZone := by
  by_contra hne
  simp [considered, hselected, Ne.symm hne] at h

/-- For a single zone that is selected the result is right. -/
theorem reportsHottest_of_selected (hselected : selectedZone ≠ allThermalZones)
    (hfits : ∀ dName ∈ d.zones, d.degrees dName < 2 ^ 31) : d.ReportsHottest := by
  apply LastHasType.reportsHottest
  intro hottest hhottest last hlast
  have hmem := List.argmax_mem hhottest
  refine ⟨hfits hottest hmem, fun _ => congrArg d.type ?_⟩
  obtain ⟨hentry, hconsidered⟩ := d.mem_zones.1 hmem
  obtain ⟨hentry', hconsidered'⟩ := d.mem_zones.1 (List.mem_of_getLast? hlast)
  refine d.number_inj last hentry' hconsidered' hottest hentry hconsidered ?_
  rw [thermalZoneNumber_of_considered hselected hconsidered,
    thermalZoneNumber_of_considered hselected hconsidered']

end ThermalDirectory

/-- Two zones, the hotter of which is listed first. -/
def twoZonesEntries : List CString :=
  [ascii ".", ascii "..", ascii "thermal_zone0", ascii "thermal_zone1"]

def twoZonesTemp (dName : CString) : CString :=
  if dName = ascii "thermal_zone0" then ascii "50000" else ascii "20000"

def twoZonesType (dName : CString) : CString :=
  if dName = ascii "thermal_zone0" then ascii "x86_pkg_temp" else ascii "acpitz"

def twoZones : Sysfs where
  file path :=
    match twoZonesEntries.find? fun dName => path = tempPath dName ∨ path = typePath dName with
    | none => none
    | some dName =>
      some
        ((if path = tempPath dName then twoZonesTemp dName else twoZonesType dName) ++ ascii "\n")
  thermalSupport := true
  thermalEntries := some twoZonesEntries

def twoZonesDirectory : ThermalDirectory twoZones allThermalZones where
  entries := twoZonesEntries
  temp dName := (strtoull (twoZonesTemp dName)).value
  type dName := some (twoZonesType dName)
  thermalSupport := rfl
  thermalEntries := rfl
  getvalue_temp := by
    have hread : ∀ dName ∈ twoZonesEntries, considered allThermalZones dName →
        sysfsparserGetline twoZones (tempPath dName) = .ok (some (twoZonesTemp dName)) ∧
          strtoull (twoZonesTemp dName) = ⟨(strtoull (twoZonesTemp dName)).value, [], false⟩ ∧
          twoZonesTemp dName ≠ [] := by
      decide +kernel
    intro dName hmem hconsidered
    obtain ⟨hline, hnumber, hne⟩ := hread dName hmem hconsidered
    exact sysfsparserGetvalue_eq hline hnumber hne
  getline_type := by decide +kernel
  number_inj := by decide +kernel
  exists_considered := by decide +kernel

/-- The temperature and the number of the first zone come with the type of the second one. -/
theorem twoZones_not_reportsHottest : ¬ twoZonesDirectory.ReportsHottest := by
  intro h
  have hlast := h.lastHasType (ascii "thermal_zone0") (by decide +kernel)
    (ascii "thermal_zone1") (by decide +kernel)
  exact absurd (hlast.2 (by decide +kernel)) (by decide +kernel)

end NagiosPlugins
