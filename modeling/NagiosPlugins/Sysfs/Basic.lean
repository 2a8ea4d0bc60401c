import NagiosPlugins.Common
import NagiosPlugins.Libc.Arith
import NagiosPlugins.Libc.Stdlib

/-!
# Thermal zones

The functions of `lib/sysfsparser.c` that read single lines and the temperature of the thermal
zones.
-/

namespace NagiosPlugins

open Libc

/-- What sysfs holds: the files by their path, unless they cannot be opened, whether the kernel
has thermal zones, and their directory as `readdir` lists it, unless it cannot be opened. -/
structure Sysfs where
  file : CString → Option (List UInt8)
  thermalSupport : Bool
  thermalEntries : Option (List CString)

variable (sysfs : Sysfs)

/-- The first line without its newline; `none` is NULL. -/
def sysfsparserGetline (filename : CString) : Except Stop (Option CString) :=
  match sysfs.file filename with
  | none => .ok none
  | some content =>
    match getlines content with
    | [] => .ok none
    | line :: _ =>
      match line.getLast? with
      -- the byte in front of an empty string
      | none => .error .outOfBounds
      | some c => .ok (some (if c = '\n' then line.dropLast else line))

/-- The return value, and what `*value` holds afterwards. -/
def sysfsparserGetvalue (value : UInt64) (filename : CString) : Except Stop (ℤ × UInt64) := do
  match ← sysfsparserGetline sysfs filename with
  | none => return (-1, value)
  | some line =>
    let r := strtoull line
    if r.endptr = line ∨ r.erange then return (-1, r.value)
    else return (0, r.value)

/-! ### The temperature -/

/-- `PATH_SYS_ACPI_THERMAL`. -/
def pathSysAcpiThermal : String := "/sys/class/thermal"

/-- `PATH_SYS_ACPI_THERMAL "/%s/temp"`. -/
def tempPath (dName : CString) : CString :=
  ascii pathSysAcpiThermal ++ ascii "/" ++ dName ++ ascii "/temp"

/-- `PATH_SYS_ACPI_THERMAL "/%s/type"`. -/
def typePath (dName : CString) : CString :=
  ascii pathSysAcpiThermal ++ ascii "/" ++ dName ++ ascii "/type"

/-- `ALL_THERMAL_ZONES`, which is `UINT_MAX`. -/
def allThermalZones : UInt32 := -1

/-- `strtoul (de->d_name + 12, NULL, 10)` as an `unsigned int`. -/
def thermalZoneNumber (dName : CString) : UInt32 := (strtoul (dName.drop 12)).toUInt32

/-- The entries that the loop does not pass over. -/
def considered (selectedZone : UInt32) (dName : CString) : Bool :=
  if dName = ascii "." ∨ dName = ascii ".." then false
  else if dName.take 12 ≠ ascii "thermal_zone" then false
  else if selectedZone ≠ allThermalZones ∧ selectedZone ≠ thermalZoneNumber dName then false
  else true

/-- The variables of the loop; `zone` and `type` are those of the caller. -/
structure ThermalState where
  foundData : Bool
  maxTemp : UInt64
  temp : UInt64
  zone : UInt32
  type : Option CString
  deriving DecidableEq, Repr

/-- The body of the loop over the entries of the directory. -/
def thermalStep (selectedZone : UInt32) (s : ThermalState) (dName : CString) :
    Except Stop ThermalState :=
  if considered selectedZone dName then do
    let thermalZone := thermalZoneNumber dName
    -- a temperature that cannot be read stays the one of the zone before
    let (_, temp) ← sysfsparserGetvalue sysfs s.temp (tempPath dName)
    let type ← sysfsparserGetline sysfs (typePath dName)
    let s := { s with temp, type, foundData := true }
    if s.maxTemp < temp ∨ 0 = s.maxTemp then
      return { s with maxTemp := temp, zone := thermalZone }
    else return s
  else .ok s

/-- The value that is returned, `*zone` and `*type`; `zone` and `type` are what they hold at
first. -/
def sysfsparserThermalGetTemperature (selectedZone zone : UInt32) (type : Option CString) :
    Except Stop (ℤ × UInt32 × Option CString) :=
  if !sysfs.thermalSupport then
    .error (.pluginError .unknown ("no ACPI thermal support in kernel or incorrect path (\"" ++
      pathSysAcpiThermal ++ "\")"))
  else
    match sysfs.thermalEntries with
    | none => .error (.pluginError .unknown ("cannot open() " ++ pathSysAcpiThermal))
    | some entries => do
      let s ← entries.foldlM (thermalStep sysfs selectedZone) ⟨false, 0, 0, zone, type⟩
      if s.foundData = false then
        if selectedZone = allThermalZones then
          throw (.pluginError .unknown "no thermal information has been found")
        else
          throw (.pluginError .unknown
            ("no thermal information for zone '" ++ toString selectedZone ++ "'"))
      else return (toInt s.maxTemp, s.zone, s.type)

end NagiosPlugins
