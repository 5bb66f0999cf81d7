import RegisterMap.Description.Value

/-!
# Decoding devices

The device that an element tree describes.  The elements below an element are
decoded before its own values, and the first failure wins.  Elements and
attributes that are not known are passed over.
-/

namespace RegisterMap.Description

open RegisterMap.Model RegisterMap.Xml

structure DecodeError where
  location : Location
  shape : Shape
  cause : Cause
  deriving DecidableEq, Repr

namespace DecodeError

def message (e : DecodeError) : String :=
  "Unable to decode " ++ e.shape.word ++ " from " ++ e.location.text ++ ": " ++
    e.cause.message

end DecodeError

def valueOf (l : Located) (shape : Shape) (value : Except Cause α) : Except DecodeError α :=
  value.mapError (⟨l.location, shape, ·⟩)

/-- The write constraint of an element.  One without a usable kind fails at its own place. -/
def writeConstraintOf (l : Located) (shape : Shape) :
    Except DecodeError (Option WriteConstraint) :=
  match l.child? "writeConstraint" with
  | none => return none
  | some child => do
      match ← valueOf l shape (constraintIn? child.element) with
      | some constraint => return some constraint
      | none => throw ⟨child.location, .writeConstraint, .noConstraint⟩

def decodeField (l : Located) : Except DecodeError Field := do
  let name ← valueOf l .field (nameOf l.element)
  let bits ← valueOf l .field (bitsOf l.element)
  let access ← valueOf l .field (accessOf l.element)
  let dimension ← valueOf l .field (dimensionOf l.element)
  let writeConstraint ← writeConstraintOf l .field
  return {
    name, bits, access, dimension, writeConstraint
    description := descriptionOf l.element }

def registerWith (l : Located) (fields : Option (List Field)) : Except DecodeError Register := do
  let name ← valueOf l .register (nameOf l.element)
  let addressOffset ← valueOf l .register (integer l.element "addressOffset" .offset)
  let dimension ← valueOf l .register (dimensionOf l.element)
  let properties ← valueOf l .register (propertiesOf l.element)
  let writeConstraint ← writeConstraintOf l .register
  return {
    name, addressOffset, dimension, properties, writeConstraint, fields
    description := descriptionOf l.element }

def decodeRegister (l : Located) : Except DecodeError Register := do
  let fields ← (l.child? "fields").mapM fun container =>
    (container.childrenNamed "field").mapM decodeField
  registerWith l fields

def nonempty? (xs : List α) : Option (List α) :=
  if xs.isEmpty then none else some xs

def clusterWith (l : Located) (registers : List Register) (clusters : List Cluster) :
    Except DecodeError Cluster := do
  let name ← valueOf l .cluster (nameOf l.element)
  let addressOffset ← valueOf l .cluster (integer l.element "addressOffset" .offset)
  let derivedFrom ← valueOf l .cluster (derivedFromOf l.element)
  let dimension ← valueOf l .cluster (dimensionOf l.element)
  let properties ← valueOf l .cluster (propertiesOf l.element)
  return {
    name, addressOffset, derivedFrom, dimension, properties
    description := descriptionOf l.element
    registers := nonempty? registers
    clusters := nonempty? clusters }

mutual

/-- Decode a cluster with a chain that starts at it. -/
def decodeCluster (chain : List Link) : Element → Except DecodeError Cluster
  | .mk name attributes line children => do
      let l : Located := ⟨.mk name attributes line children, chain⟩
      let registers ← (l.childrenNamed "register").mapM decodeRegister
      let clusters ← decodeClusters chain 0 children
      clusterWith l registers clusters

/-- Decode the clusters among some nodes, which start at some place below a chain. -/
def decodeClusters (chain : List Link) : Nat → List Node → Except DecodeError (List Cluster)
  | _, [] => return []
  | i, .text _ :: nodes => decodeClusters chain i nodes
  | i, .instruction :: nodes => decodeClusters chain (i + 1) nodes
  | i, .element e :: nodes => do
      if e.hasTag "cluster" then
        let first ← decodeCluster (.ofElement (some i) e :: chain) e
        let others ← decodeClusters chain (i + 1) nodes
        return first :: others
      else decodeClusters chain (i + 1) nodes

end

def peripheralWith (l : Located) (registers : Option (List Register))
    (clusters : Option (List Cluster)) : Except DecodeError Peripheral := do
  let name ← valueOf l .peripheral (nameOf l.element)
  let baseAddress ← valueOf l .peripheral (integer l.element "baseAddress" .baseAddress)
  let derivedFrom ← valueOf l .peripheral (derivedFromOf l.element)
  let dimension ← valueOf l .peripheral (dimensionOf l.element)
  let properties ← valueOf l .peripheral (propertiesOf l.element)
  return {
    name, baseAddress, derivedFrom, dimension, properties, registers, clusters
    description := descriptionOf l.element }

def decodePeripheral (l : Located) : Except DecodeError Peripheral := do
  match l.child? "registers" with
  | none => peripheralWith l none none
  | some container =>
      let registers ← (container.childrenNamed "register").mapM decodeRegister
      let clusters ← decodeClusters container.chain 0 container.element.children
      peripheralWith l (some registers) (some clusters)

def decodeDevice (root : Element) : Except DecodeError Device := do
  unless root.hasTag "device" do
    throw ⟨⟨root.line, [{ tag := root.name.text }]⟩, .device, .notDevice⟩
  let l := Located.root root
  let name ← valueOf l .device (nameOf root)
  let properties ← valueOf l .device (propertiesOf root)
  let peripherals ←
    match l.child? "peripherals" with
    | none => pure []
    | some container => (container.childrenNamed "peripheral").mapM decodePeripheral
  return { name, properties, peripherals, description := descriptionOf root }

end RegisterMap.Description
