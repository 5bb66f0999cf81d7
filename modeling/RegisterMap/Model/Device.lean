import RegisterMap.Model.Properties

/-!
# Devices

A device is a tree: peripherals hold registers and clusters, clusters hold
registers and clusters again, and registers hold fields.  Each element keeps
what it says about itself; what it inherits is worked out from its place.
-/

namespace RegisterMap.Model

/-- How often an element is repeated, and how far apart its replicas are. -/
structure Dimension where
  /-- Number of replicas, if the element is repeated at all. -/
  count : Option Int := none
  /-- Distance of two replicas in addresses or bits, if the element gives one. -/
  stride : Option Int := none
  deriving DecidableEq, Repr

/-- The bits of a field, both ends included. -/
structure BitRange where
  lsb : Int
  msb : Int
  deriving DecidableEq, Repr

namespace BitRange

def width (bits : BitRange) : Int := bits.msb - bits.lsb + 1

def shifted (bits : BitRange) (offset : Int) : BitRange :=
  ⟨bits.lsb + offset, bits.msb + offset⟩

end BitRange

inductive WriteConstraint where
  | writeAsRead (value : Bool)
  | useEnumeratedValues (value : Bool)
  /-- Only a value between two bounds; a bound may be left empty. -/
  | range (minimum maximum : Option Int)
  deriving DecidableEq, Repr

structure Field where
  name : String
  bits : BitRange
  description : Option String := none
  /-- Access of the field, if it differs from that of its register. -/
  access : Option Access := none
  dimension : Option Dimension := none
  writeConstraint : Option WriteConstraint := none
  deriving DecidableEq, Repr

structure Register where
  name : String
  addressOffset : Int
  description : Option String := none
  dimension : Option Dimension := none
  properties : RegisterProperties := {}
  writeConstraint : Option WriteConstraint := none
  fields : Option (List Field) := none
  deriving DecidableEq, Repr

/-- A named group of registers and clusters. -/
structure Cluster where
  name : String
  addressOffset : Int
  description : Option String := none
  /-- Name or dotted path of the cluster that this one repeats. -/
  derivedFrom : Option String := none
  dimension : Option Dimension := none
  properties : RegisterProperties := {}
  registers : Option (List Register) := none
  clusters : Option (List Cluster) := none
  deriving Repr

structure Peripheral where
  name : String
  baseAddress : Int := 0
  description : Option String := none
  derivedFrom : Option String := none
  dimension : Option Dimension := none
  properties : RegisterProperties := {}
  registers : Option (List Register) := none
  clusters : Option (List Cluster) := none
  deriving Repr

/-- A device with its peripherals in document order. -/
structure Device where
  name : String := "Device"
  description : Option String := none
  properties : RegisterProperties := {}
  peripherals : List Peripheral := []
  deriving Repr

namespace Device

def peripheralNames (device : Device) : List String :=
  device.peripherals.map (·.name)

end Device

end RegisterMap.Model
