import RegisterMap.Derivation.Order
import RegisterMap.Swift.Name

/-!
# References between elements

A derived peripheral names another peripheral of the device.  A derived cluster
names another cluster by the path of its type, looked up from the innermost
enclosing scope outwards.  A device whose references all lead to an element
without one can be exported with aliases.
-/

namespace RegisterMap.Derivation

open RegisterMap.Model RegisterMap.Swift

/-! ## Clusters and their paths -/

mutual

/-- A cluster and all clusters below it in document order, each with the names on the way to it. -/
def clusterPaths (scope : List String) : Cluster → List (List String × Cluster)
  | c@⟨name, _, _, _, _, _, _, none⟩ => [(scope ++ [name], c)]
  | c@⟨name, _, _, _, _, _, _, some clusters⟩ =>
      (scope ++ [name], c) :: pathsOfAll (scope ++ [name]) clusters

def pathsOfAll (scope : List String) : List Cluster → List (List String × Cluster)
  | [] => []
  | c :: cs => clusterPaths scope c ++ pathsOfAll scope cs

end

/-- All clusters of a device with the names on the way to them, the peripheral first. -/
def deviceClusters (device : Device) : List (List String × Cluster) :=
  device.peripherals.flatMap fun p => pathsOfAll [p.name] (p.clusters.getD [])

def typePath (path : List String) : List String :=
  path.map swiftName

/-- The scopes around a place, from the inside out; the last one is the empty scope. -/
def scopesFrom (scope : List String) : List (List String) :=
  (List.range (scope.length + 1)).reverse.map scope.take

/-- The type that a reference means inside a scope. -/
def resolveIn (types : List (List String)) (scope target : List String) :
    Option (List String) :=
  ((scopesFrom scope).map (· ++ target)).find? types.contains

/-! ## Validation -/

/-- An element whose reference leads nowhere. -/
inductive Dangling where
  | peripheral (name target : String)
  | cluster (path : List String) (target : String)
  deriving DecidableEq, Repr

namespace Dangling

def text : Dangling → String
  | peripheral name target => "peripheral " ++ name ++ " (derivedFrom=" ++ target ++ ")"
  | cluster path target =>
      "cluster " ++ String.intercalate "." path ++ " (derivedFrom=" ++ target ++ ")"

end Dangling

inductive DerivationError where
  | dangling (elements : List Dangling)
  | unordered (names : List String)
  deriving DecidableEq, Repr

namespace DerivationError

def about (elements : List String) (explanation : String) : String :=
  "Invalid SVD file element(s):\n" ++
    String.intercalate "\n" (elements.map ("  * " ++ ·)) ++ "\n" ++ explanation

def message : DerivationError → String
  | dangling elements =>
      about (elements.map (·.text))
        "'derivedFrom' does not reference another element of the device"
  | unordered names =>
      about names
        ("Unable to determine order in which peripherals are derived. " ++
          "The 'derivedFrom' attributes form a cycle or point to a nonexistent peripheral.")

end DerivationError

/-- A peripheral whose base is not another peripheral of the device. -/
def danglingPeripheral? (names : List String) (p : Peripheral) : Option Dangling :=
  match p.derivedFrom with
  | none => none
  | some target =>
      if !names.contains target || target == p.name then some (.peripheral p.name target)
      else none

/-- A cluster whose reference does not lead to another cluster. -/
def danglingCluster? (types : List (List String)) (path : List String) (c : Cluster) :
    Option Dangling :=
  match c.derivedFrom with
  | none => none
  | some target =>
      match resolveIn types (typePath path.dropLast) (referencePath target) with
      | none => some (.cluster path target)
      | some found => if found == typePath path then some (.cluster path target) else none

def danglingElements (device : Device) : List Dangling :=
  let clusters := deviceClusters device
  let types := clusters.map fun (path, _) => typePath path
  device.peripherals.filterMap (danglingPeripheral? device.peripheralNames) ++
    clusters.filterMap fun (path, c) => danglingCluster? types path c

def validate (device : Device) : Except DerivationError Unit :=
  match danglingElements device with
  | [] =>
      match sortByBase device.peripherals with
      | .ok _ => .ok ()
      | .error names => .error (.unordered names)
  | elements => .error (.dangling elements)

end RegisterMap.Derivation
