import NagiosPlugins.Sysfs.Basic
import NagiosPlugins.Thresholds.Basic

/-!
# The temperature plugin

`plugins/check_temperature.c`: the temperature of a thermal zone, compared with the thresholds.
-/

namespace NagiosPlugins

open Libc

/-- `temp_units`. -/
inductive TempUnits where
  | celsius
  | fahrenheit
  | kelvin
  deriving DecidableEq, Repr

/-- `absolute_zero`. -/
def absoluteZero : ℚ := 2731 / 10

/-- `get_real_temp`: the temperature, exact where the source computes with `double`, and
`*scale`. -/
def getRealTemp (temperature : UInt64) (tempUnits : TempUnits) : ℚ × String :=
  let realTemp : ℚ := temperature.toNat / 1000
  match tempUnits with
  | .celsius => (realTemp, "°C")
  | .fahrenheit => (realTemp * (18 / 10) + 32, "°F")
  | .kelvin => (realTemp + absoluteZero, "°K")

/-- What `main` knows when it has compared the temperature with the thresholds. -/
structure TemperatureReport where
  realTemp : ℚ
  scale : String
  status : Nagstatus
  thermalZone : UInt32
  type : Option CString

/-- `main` up to the status; `thermalZone` and `type` are what the variables hold at first. -/
def checkTemperature (sysfs : Sysfs) (selectedThermalZone : UInt32) (temperatureUnit : TempUnits)
    (myThreshold : Thresholds) (thermalZone : UInt32) (type : Option CString) :
    Except Stop TemperatureReport := do
  let (maxTemp, thermalZone, type) ←
    sysfsparserThermalGetTemperature sysfs selectedThermalZone thermalZone type
  -- an `int` as an `unsigned long`
  let (realTemp, scale) := getRealTemp (toUnsigned maxTemp) temperatureUnit
  return { realTemp, scale, status := getStatus (.fin realTemp) myThreshold, thermalZone, type }

end NagiosPlugins
