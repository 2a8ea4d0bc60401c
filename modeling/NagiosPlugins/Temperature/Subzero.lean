import NagiosPlugins.Sysfs.Thermal
import NagiosPlugins.Temperature.Basic

/-!
# Temperatures below zero

A reading below zero comes back from the directory of the zones, as an `int`, and is lost when it
is passed on as an `unsigned long`.
-/

namespace NagiosPlugins

open Libc

/-- A signed reading of the only zone that is considered, in thousandths of a degree. -/
structure ThermalReading (sysfs : Sysfs) (selectedZone : UInt32) where
  reading : ℤ
  dName : CString
  entries : List CString
  type : Option CString
  lt : |reading| < 2 ^ 31
  thermalSupport : sysfs.thermalSupport = true
  thermalEntries : sysfs.thermalEntries = some entries
  only : entries.filter (considered selectedZone) = [dName]
  file_temp : sysfs.file (tempPath dName) = some (signedDecimal reading ++ [('\n' : UInt8)])
  getline_type : sysfsparserGetline sysfs (typePath dName) = .ok type

namespace ThermalReading

variable {sysfs : Sysfs} {selectedZone : UInt32} (z : ThermalReading sysfs selectedZone)

/-- The temperature in degrees. -/
def degrees : TempUnits → ℚ
  | .celsius => z.reading / 1000
  | .fahrenheit => z.reading / 1000 * (18 / 10) + 32
  | .kelvin => z.reading / 1000 + absoluteZero

/-- In Celsius and in Fahrenheit, the reading is what is compared with the thresholds. -/
def Reported : Prop :=
  ∀ unit ∈ [TempUnits.celsius, .fahrenheit], ∀ myThreshold thermalZone type, ∃ report,
    checkTemperature sysfs selectedZone unit myThreshold thermalZone type = .ok report ∧
      report.realTemp = z.degrees unit ∧
      report.status = getStatus (.fin (z.degrees unit)) myThreshold

lemma fits : FitsInt z.reading := by
  have hlt := abs_lt.1 z.lt
  exact ⟨by omega, hlt.2⟩

lemma mem_considered {dName : CString} (hmem : dName ∈ z.entries)
    (h : considered selectedZone dName) : dName = z.dName := by
  have hfilter : dName ∈ z.entries.filter (considered selectedZone) := List.mem_filter.2 ⟨hmem, h⟩
  rw [z.only] at hfilter
  exact List.mem_singleton.1 hfilter

/-- The directory with this zone; a reading below zero is a large number there. -/
def directory : ThermalDirectory sysfs selectedZone where
  entries := z.entries
  temp _ := toUnsigned z.reading
  type _ := z.type
  thermalSupport := z.thermalSupport
  thermalEntries := z.thermalEntries
  getvalue_temp dName hmem h value := by
    obtain ⟨hlower, hupper⟩ := z.fits
    rw [z.mem_considered hmem h]
    exact sysfsparserGetvalue_signedDecimal (by omega) z.file_temp value
  getline_type dName hmem h := by
    rw [z.mem_considered hmem h]
    exact z.getline_type
  number_inj dName hmem h dName' hmem' h' _ :=
    (z.mem_considered hmem h).trans (z.mem_considered hmem' h').symm
  exists_considered := by
    have hmem : z.dName ∈ z.entries.filter (considered selectedZone) := by
      rw [z.only]
      exact List.mem_singleton_self _
    exact ⟨z.dName, (List.mem_filter.1 hmem).1, (List.mem_filter.1 hmem).2⟩

/-- The sign survives the search for the highest temperature. -/
lemma thermalGetTemperature_ok (thermalZone : UInt32) (type : Option CString) :
    sysfsparserThermalGetTemperature sysfs selectedZone thermalZone type
      = .ok (z.reading, thermalZoneNumber z.dName, z.type) := by
  have hzones : z.directory.zones = [z.dName] := z.only
  have hhottest : z.dName ∈ z.directory.zones.argmax z.directory.degrees := by
    rw [hzones, List.argmax_singleton]
    rfl
  have hlast : z.dName ∈ z.directory.zones.getLast? := by
    rw [hzones]
    rfl
  rw [z.directory.thermalGetTemperature_ok hhottest hlast, ite_self]
  have htemp : toInt (z.directory.temp z.dName) = z.reading := toInt_toUnsigned z.fits
  rw [htemp]
  rfl

/-- What is compared with the thresholds. -/
lemma checkTemperature_ok (unit : TempUnits) (myThreshold : Thresholds) (thermalZone : UInt32)
    (type : Option CString) :
    ∃ report, checkTemperature sysfs selectedZone unit myThreshold thermalZone type = .ok report ∧
      report.realTemp = (getRealTemp (toUnsigned z.reading) unit).1 ∧
      report.status = getStatus (.fin report.realTemp) myThreshold := by
  rw [checkTemperature, z.thermalGetTemperature_ok]
  exact ⟨_, rfl, rfl, rfl⟩

/-- The conversion keeps exactly the readings that are not negative. -/
lemma getRealTemp_eq_degrees_iff {unit : TempUnits} :
    (getRealTemp (toUnsigned z.reading) unit).1 = z.degrees unit ↔ 0 ≤ z.reading := by
  have hunsigned : ((toUnsigned z.reading).toNat : ℚ) = (z.reading : ℚ) ↔ 0 ≤ z.reading := by
    obtain ⟨hlower, hupper⟩ := z.fits
    rw [← Int.cast_natCast, Int.cast_inj, toNat_toUnsigned]
    omega
  rw [← hunsigned]
  cases unit with
  | celsius => simp [getRealTemp, degrees, div_left_inj']
  | fahrenheit => simp [getRealTemp, degrees, div_left_inj']
  | kelvin => simp [getRealTemp, degrees, div_left_inj']

/-- Degrees Celsius show that the reading is not negative. -/
lemma nonneg_of_reported (h : z.Reported) : 0 ≤ z.reading := by
  obtain ⟨report, hok, htemp, -⟩ := h .celsius (List.mem_cons_self ..) ⟨none, none⟩ 0 none
  obtain ⟨report', hok', htemp', -⟩ := z.checkTemperature_ok .celsius ⟨none, none⟩ 0 none
  rw [hok] at hok'
  cases hok'
  exact z.getRealTemp_eq_degrees_iff.1 (htemp'.symm.trans htemp)

/-- The reading is reported exactly if it is not below zero. -/
theorem reported_iff : z.Reported ↔ 0 ≤ z.reading := by
  constructor
  · intro h
    exact z.nonneg_of_reported h
  · intro hpos unit hunit myThreshold thermalZone type
    obtain ⟨report, hok, htemp, hstatus⟩ :=
      z.checkTemperature_ok unit myThreshold thermalZone type
    have hdegrees := htemp.trans (z.getRealTemp_eq_degrees_iff.2 hpos)
    exact ⟨report, hok, hdegrees, hdegrees ▸ hstatus⟩

end ThermalReading

/-- A zone at five degrees below zero. -/
def coldRoom : Sysfs where
  file path :=
    if path = tempPath (ascii "thermal_zone0") then some (ascii "-5000\n")
    else if path = typePath (ascii "thermal_zone0") then some (ascii "acpitz\n")
    else none
  thermalSupport := true
  thermalEntries := some [ascii "thermal_zone0"]

def coldReading : ThermalReading coldRoom allThermalZones where
  reading := -5000
  dName := ascii "thermal_zone0"
  entries := [ascii "thermal_zone0"]
  type := some (ascii "acpitz")
  lt := by norm_num
  thermalSupport := rfl
  thermalEntries := rfl
  only := by decide +kernel
  file_temp := by decide +kernel
  getline_type := by decide +kernel

/-- More than 10 ^ 16 degrees are compared with the thresholds. -/
theorem coldReading_not_reported : ¬ coldReading.Reported := by
  intro h
  exact absurd (coldReading.nonneg_of_reported h) (by decide)

end NagiosPlugins
