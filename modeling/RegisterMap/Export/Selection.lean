import RegisterMap.Model.Device

/-!
# Selected peripherals

The peripherals to export, by name and in the order of their names.
-/

namespace RegisterMap.Export

open RegisterMap.Model

/-- A selected name that no peripheral has, next to the names that could be selected. -/
structure UnknownPeripheral where
  name : String
  validNames : List String
  deriving DecidableEq, Repr

namespace UnknownPeripheral

def message (e : UnknownPeripheral) : String :=
  "Unknown peripheral '" ++ e.name ++ "', valid peripherals are: " ++
    String.intercalate ", " e.validNames

end UnknownPeripheral

/-- The last peripheral with a name. -/
def findPeripheral (device : Device) (name : String) : Except UnknownPeripheral Peripheral :=
  match device.peripherals.reverse.find? (·.name == name) with
  | some p => .ok p
  | none => .error ⟨name, device.peripheralNames⟩

/-- Peripherals in the order of their names, those of one name in the given order. -/
def sortByName (peripherals : List Peripheral) : List Peripheral :=
  peripherals.mergeSort fun p q => decide (p.name ≤ q.name)

/-- The peripherals to export: those with a selected name, or all if no name is selected. -/
def selectPeripherals (device : Device) (selected : List String) :
    Except UnknownPeripheral (List Peripheral) := do
  let peripherals ←
    if selected.isEmpty then pure device.peripherals
    else selected.eraseDups.mapM (findPeripheral device)
  return sortByName peripherals

end RegisterMap.Export
