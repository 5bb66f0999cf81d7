import Mathlib.Data.List.Basic
import RegisterMap.Derivation.Reference
import RegisterMap.Proofs.Model.Bare

/-!
# Derivations without descriptions

References go by names, so a device is valid, or is rejected with the same error,
whatever is described in it.
-/

namespace RegisterMap.Derivation

open RegisterMap.Model

/-! ## Order -/

theorem followers_bare (name : String) (waiting : List Peripheral) :
    followers name (waiting.map Peripheral.bare) =
      (followers name waiting).map Peripheral.bare :=
  List.filter_map

theorem others_bare (name : String) (waiting : List Peripheral) :
    others name (waiting.map Peripheral.bare) = (others name waiting).map Peripheral.bare :=
  List.filter_map

theorem takeReady_bare (ready waiting : List Peripheral) :
    takeReady (ready.map Peripheral.bare) (waiting.map Peripheral.bare) =
      ((takeReady ready waiting).1.map Peripheral.bare,
        (takeReady ready waiting).2.map Peripheral.bare) := by
  fun_induction takeReady ready waiting with
  | case1 waiting => simp [takeReady]
  | case2 waiting p ready taken left hrest ih =>
      have hname : p.bare.name = p.name := rfl
      rw [hrest, List.map_append, List.map_reverse] at ih
      rw [List.map_cons, takeReady, hname, followers_bare, others_bare, ih]
      rfl

theorem sortReachable_bare (peripherals : List Peripheral) :
    sortReachable (peripherals.map Peripheral.bare) =
      ((sortReachable peripherals).1.map Peripheral.bare,
        (sortReachable peripherals).2.map Peripheral.bare) := by
  simp only [sortReachable, List.partition_eq_filter_filter, List.filter_map, ← List.map_reverse]
  exact takeReady_bare _ _

theorem names_groupedByBase_bare (waiting : List Peripheral) :
    (groupedByBase (waiting.map Peripheral.bare)).map (·.name) =
      (groupedByBase waiting).map (·.name) := by
  simp only [groupedByBase, List.map_map, List.filter_map, List.map_flatMap]
  rfl

theorem sortByBase_bare (peripherals : List Peripheral) :
    sortByBase (peripherals.map Peripheral.bare) =
      (sortByBase peripherals).map (·.map Peripheral.bare) := by
  simp only [sortByBase, sortReachable_bare]
  cases hsorted : sortReachable peripherals with
  | mk taken left =>
      cases left with
      | nil => rfl
      | cons p left =>
          have hnames := names_groupedByBase_bare (p :: left)
          simp only [List.map_cons] at hnames ⊢
          rw [hnames]
          rfl

/-! ## References -/

/-- A cluster with the names on the way to it, without descriptions. -/
def bareFound (found : List String × Cluster) : List String × Cluster :=
  (found.1, found.2.bare)

mutual

theorem clusterPaths_bare (scope : List String) :
    (c : Cluster) → clusterPaths scope c.bare = (clusterPaths scope c).map bareFound
  | ⟨_, _, _, _, _, _, _, none⟩ => rfl
  | ⟨name, _, _, _, _, _, _, some clusters⟩ => by
      have hbelow := pathsOfAll_bare (scope ++ [name]) clusters
      rw [Cluster.bare, bareClusters_eq, clusterPaths, hbelow, clusterPaths, List.map_cons,
        bareFound, Cluster.bare, bareClusters_eq]

theorem pathsOfAll_bare (scope : List String) :
    (cs : List Cluster) →
      pathsOfAll scope (cs.map Cluster.bare) = (pathsOfAll scope cs).map bareFound
  | [] => rfl
  | c :: cs => by
      rw [List.map_cons, pathsOfAll, clusterPaths_bare, pathsOfAll_bare, ← List.map_append,
        pathsOfAll]

end

theorem deviceClusters_bare (device : Device) :
    deviceClusters device.bare = (deviceClusters device).map bareFound := by
  simp only [deviceClusters, Device.bare, List.flatMap_map, List.map_flatMap]
  refine List.flatMap_congr fun p _ => ?_
  change pathsOfAll [p.name] ((p.clusters.map (·.map Cluster.bare)).getD []) = _
  rw [getD_map_map, pathsOfAll_bare]

theorem danglingElements_bare (device : Device) :
    danglingElements device.bare = danglingElements device := by
  have hnames : device.bare.peripheralNames = device.peripheralNames := List.map_map
  have hperipherals :
      device.bare.peripherals.filterMap (danglingPeripheral? device.peripheralNames) =
        device.peripherals.filterMap (danglingPeripheral? device.peripheralNames) :=
    List.filterMap_map
  have hcluster (types : List (List String)) (path : List String) (c : Cluster) :
      danglingCluster? types path c.bare = danglingCluster? types path c := by
    simp only [danglingCluster?, Cluster.bare_derivedFrom]
  simp only [danglingElements, hnames, hperipherals, deviceClusters_bare, List.map_map,
    List.filterMap_map, Function.comp_def, bareFound, hcluster]

/-- What is described in a device does not decide whether its references are in order. -/
theorem validate_bare (device : Device) : validate device.bare = validate device := by
  have hsorted : sortByBase device.bare.peripherals =
      (sortByBase device.peripherals).map (·.map Peripheral.bare) := sortByBase_bare _
  simp only [validate, danglingElements_bare, hsorted]
  cases sortByBase device.peripherals <;> rfl

end RegisterMap.Derivation
