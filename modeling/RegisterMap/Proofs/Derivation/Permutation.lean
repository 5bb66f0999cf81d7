import RegisterMap.Proofs.Derivation.Validation

/-!
# Derivations in another document order

References are looked up among all elements of a device.  So the verdict on a device
stays the same when its peripherals change places, and a device that is refused is
refused for the same elements.
-/

namespace RegisterMap.Derivation

open RegisterMap.Model

/-! ## Order -/

theorem ReachesDefinition.mono {peripherals others : List Peripheral}
    (hsub : ∀ p ∈ peripherals, p ∈ others) {p : Peripheral}
    (h : ReachesDefinition peripherals p) : ReachesDefinition others p := by
  induction h with
  | definition hnone => exact .definition hnone
  | derived hbase hmem _ ih => exact .derived hbase (hsub _ hmem) ih

theorem reachesDefinition_perm {peripherals others : List Peripheral}
    (hperm : peripherals.Perm others) {p : Peripheral} :
    ReachesDefinition peripherals p ↔ ReachesDefinition others p :=
  ⟨.mono fun _ => hperm.mem_iff.mp, .mono fun _ => hperm.mem_iff.mpr⟩

variable {device other : Device}

theorem unreachable_perm (hperm : device.peripherals.Perm other.peripherals) :
    (unreachable device).Perm (unreachable other) := by
  have hsame : unreachable device =
      device.peripherals.filter fun p => ¬ReachesDefinition other.peripherals p := by
    refine List.filter_congr fun p _ => ?_
    simp only [reachesDefinition_perm hperm]
  rw [hsame]
  exact hperm.filter _

/-! ## References -/

theorem deviceClusters_perm (hperm : device.peripherals.Perm other.peripherals) :
    (deviceClusters device).Perm (deviceClusters other) :=
  hperm.flatMap_right _

theorem clusterTypes_perm (hperm : device.peripherals.Perm other.peripherals) :
    (clusterTypes device).Perm (clusterTypes other) :=
  (deviceClusters_perm hperm).map _

theorem resolveIn_perm {types others : List (List String)} (hperm : types.Perm others)
    (scope target : List String) : resolveIn types scope target = resolveIn others scope target := by
  have hsame : types.contains = others.contains := funext fun _ => hperm.contains_eq
  rw [resolveIn, resolveIn, hsame]

theorem danglingElements_perm (hperm : device.peripherals.Perm other.peripherals) :
    (danglingElements device).Perm (danglingElements other) := by
  have hclusters := deviceClusters_perm hperm
  have hnames : device.peripheralNames.Perm other.peripheralNames := hperm.map _
  have htypes := clusterTypes_perm hperm
  rw [clusterTypes, clusterTypes] at htypes
  have hperipheral : danglingPeripheral? device.peripheralNames =
      danglingPeripheral? other.peripheralNames := by
    funext p
    simp only [danglingPeripheral?, hnames.contains_eq]
  simp only [danglingElements, danglingCluster?, hperipheral, resolveIn_perm htypes]
  exact (hperm.filterMap _).append (hclusters.filterMap _)

/-! ## Verdicts -/

/-- Two errors of one kind about the same elements, in any order. -/
inductive DerivationError.Alike : DerivationError → DerivationError → Prop
  | dangling {elements others : List Dangling} :
      elements.Perm others → Alike (.dangling elements) (.dangling others)
  | unordered {names others : List String} :
      names.Perm others → Alike (.unordered names) (.unordered others)

/-- A device is judged in the same way whatever the order of its peripherals. -/
theorem validate_perm (hperm : device.peripherals.Perm other.peripherals) :
    (validate device = .ok () ∧ validate other = .ok ()) ∨
      ∃ e e', validate device = .error e ∧ validate other = .error e' ∧ e.Alike e' := by
  have hdangling := danglingElements_perm hperm
  have hleft := unreachable_perm hperm
  by_cases hnone : danglingElements device = []
  · have hnone' : danglingElements other = [] := (hnone ▸ hdangling).nil_eq.symm
    by_cases hreached : unreachable device = []
    · have hreached' : unreachable other = [] := (hreached ▸ hleft).nil_eq.symm
      exact .inl ⟨validate_of_reachable hnone hreached, validate_of_reachable hnone' hreached'⟩
    · have hreached' : unreachable other ≠ [] := fun h => hreached (h ▸ hleft).eq_nil
      have hgrouped := ((groupedByBase_perm _).trans hleft).trans (groupedByBase_perm _).symm
      exact .inr ⟨_, _, validate_of_unreachable hnone hreached,
        validate_of_unreachable hnone' hreached', .unordered (hgrouped.map _)⟩
  · have hnone' : danglingElements other ≠ [] := fun h => hnone (h ▸ hdangling).eq_nil
    exact .inr ⟨_, _, validate_of_dangling hnone, validate_of_dangling hnone',
      .dangling hdangling⟩

end RegisterMap.Derivation
