import RegisterMap.Export.Section

/-!
# Export of a device

One source unit declares the instances of all peripherals, and one unit for each
peripheral with an instance declares its types.  A unit is finished as a whole or
not at all, and the first error ends the export.
-/

namespace RegisterMap.Export

open RegisterMap.Derivation RegisterMap.Model RegisterMap.Report RegisterMap.Swift

def fileHeader : Code :=
  .lines "// Generated by svd2swift.\n\nimport MMIO\n"

def deviceUnitName : String := "Device.swift"

def unitName (p : Peripheral) : String :=
  swiftName p.name ++ ".swift"

def finishUnit (options : Options) (name : String) (code : List Code) : Exporting Unit := do
  let units ← Trace.ofExcept .layout (Code.toUnit options.indentation name (fileHeader :: code))
  Trace.recordAll (units.map .wrote)

def deviceTypeName (options : Options) (device : Device) : String :=
  match options.deviceName with
  | none => swiftName device.name
  | some name => if name.isEmpty then swiftName device.name else name

/-- The peripherals with an instance, each with the declarations of its instances. -/
def instances (options : Options) (device : Device) :
    List Peripheral → Exporting (List (Peripheral × List String))
  | [] => return []
  | p :: peripherals => do
      let accessors ← peripheralAccessors options device.properties p
      let others ← instances options device peripherals
      return if accessors.isEmpty then others else (p, accessors) :: others

/-- Write the unit with the instances of some peripherals, and tell which of them have any. -/
def writeDeviceUnit (options : Options) (device : Device) (peripherals : List Peripheral) :
    Exporting (List Peripheral) := do
  let declared ← instances options device peripherals
  let body := Code.declarations (declared.flatMap (·.2))
  let subject : Subject :=
    ⟨device.description, deviceTypeName options device, options.modifiers⟩
  let code :=
    if options.namespaceUnderDevice then
      [.block (subject.namespaceHeading options.instanceMemberPeripherals) body]
    else body
  finishUnit options deviceUnitName code
  return declared.map (·.1)

def peripheralSection (options : Options) (device : Device) (p : Peripheral) : Section where
  elements := [.peripheral p]
  enclosing := if options.namespaceUnderDevice then [deviceTypeName options device] else []
  inherited := device.properties
  address := 0

def writePeripheralUnit (options : Options) (device : Device) (p : Peripheral) :
    Exporting Unit := do
  let sections ← sectionsCode options [peripheralSection options device p]
  finishUnit options (unitName p) (Code.spaced sections)

/-- Record every alias whose base is not among the exported peripherals. -/
def reportMissingBases (peripherals : List Peripheral) : Exporting Unit :=
  let names := peripherals.map (·.name)
  Trace.recordAll <| peripherals.filterMap fun p =>
    match p.derivedFrom with
    | none => none
    | some base => if names.contains base then none else some (.baseNotExported p.name base)

def exportDevice (options : Options) (device : Device) : Exporting Unit := do
  if options.validateDerivations then
    Trace.ofExcept .derivation (validate device)
  let peripherals ←
    Trace.ofExcept .selection (selectPeripherals device options.selectedPeripherals)
  reportMissingBases peripherals
  let exported ← writeDeviceUnit options device peripherals
  exported.forM (writePeripheralUnit options device)

end RegisterMap.Export
