import Mathlib.Data.List.Infix
import RegisterMap.Proofs.Derivation.ClusterPlace
import RegisterMap.Proofs.Derivation.Order

/-!
# References that lead to another element

A device passes validation exactly if every base of a peripheral is another name
of the device, every reference of a cluster leads to another type, and every
peripheral reaches a definition.  A device that does not pass is refused with the
elements that are at fault, all of them and no others.
-/

namespace RegisterMap.Derivation

open RegisterMap.Model RegisterMap.Swift

/-! ## References of peripherals -/

/-- True of a peripheral whose base, if it has one, is another name of the device. -/
def PeripheralResolves (device : Device) (p : Peripheral) : Prop :=
  ∀ target ∈ p.derivedFrom, (∃ q ∈ device.peripherals, q.name = target) ∧ target ≠ p.name

instance (device : Device) : DecidablePred (PeripheralResolves device) :=
  fun _ => inferInstanceAs (Decidable (∀ _ ∈ _, _))

theorem danglingPeripheral?_eq (device : Device) (p : Peripheral) :
    danglingPeripheral? device.peripheralNames p =
      if ¬PeripheralResolves device p then p.derivedFrom.map (.peripheral p.name) else none := by
  cases hbase : p.derivedFrom with
  | none => simp [danglingPeripheral?, hbase]
  | some target =>
      have hresolves : PeripheralResolves device p ↔
          target ∈ device.peripheralNames ∧ target ≠ p.name := by
        simp [PeripheralResolves, hbase, Device.peripheralNames]
      simp only [danglingPeripheral?, hbase, hresolves, Option.map_some]
      congr 1
      simp only [List.contains_eq_mem, Bool.or_eq_true, Bool.not_eq_true',
        decide_eq_false_iff_not, beq_iff_eq, eq_iff_iff]
      tauto

/-! ## References of clusters -/

def components (reference : String) : List String :=
  (reference.toList.splitOn '.').map String.ofList

/-- True of the path of the type of some cluster of a device. -/
def IsTypePath (device : Device) (type : List String) : Prop :=
  ∃ place path c, clusterAt? device place = some (path, c) ∧ typePath path = type

/--
The type that a reference leads to inside a scope: it stands behind as much of the
scope as possible.
-/
def LeadsTo (device : Device) (scope target found : List String) : Prop :=
  ∃ outer, outer <+: scope ∧ found = outer ++ target ∧ IsTypePath device found ∧
    ∀ longer, longer <+: scope → IsTypePath device (longer ++ target) →
      longer.length ≤ outer.length

/-- True of a cluster whose reference, if it has one, leads to another type than its own. -/
def ClusterResolves (device : Device) (path : List String) (c : Cluster) : Prop :=
  ∀ target ∈ c.derivedFrom, ∃ found,
    LeadsTo device (typePath path.dropLast) (typePath (components target)) found ∧
      found ≠ typePath path

theorem splitDots_eq (cs : List Char) : splitDots cs = cs.splitOn '.' := by
  fun_induction splitDots cs with
  | case1 => rfl
  | case2 rest ih => simp [List.splitOn, List.splitOnP_cons_eq_if_modifyHead, ih]
  | case3 c rest hdot hrest ih =>
      rw [hrest, List.splitOn] at ih
      exact absurd ih.symm (List.splitOnP_ne_nil _ _)
  | case4 c rest hdot piece pieces hrest ih =>
      rw [hrest, List.splitOn] at ih
      have hc : c ≠ '.' := by rintro rfl; exact hdot rfl
      simp [List.splitOn, List.splitOnP_cons_eq_if_modifyHead, hc, ← ih]

theorem referencePath_eq (reference : String) :
    referencePath reference = typePath (components reference) := by
  simp only [referencePath, typePath, components, splitDots_eq, List.map_map]
  congr 1
  funext piece
  simp [swiftName]

def clusterTypes (device : Device) : List (List String) :=
  (deviceClusters device).map fun (path, _) => typePath path

theorem mem_clusterTypes {device : Device} {type : List String} :
    type ∈ clusterTypes device ↔ IsTypePath device type := by
  simp only [clusterTypes, ← map_snd_placedClusters, List.map_map, List.mem_map, IsTypePath,
    Prod.exists, (isPreorder_placedClusters device).mem_iff]
  rfl

theorem find?_takes {types : List (List String)} {scope target found : List String}
    (depth : Nat) :
    (((List.range (depth + 1)).reverse.map scope.take).map (· ++ target)).find? types.contains =
        some found ↔
      ∃ k ≤ depth, found = scope.take k ++ target ∧ found ∈ types ∧
        ∀ l ≤ depth, scope.take l ++ target ∈ types → l ≤ k := by
  induction depth with
  | zero =>
      simp only [List.range_succ, List.range_zero, List.nil_append, List.reverse_singleton,
        List.map_cons, List.map_nil, List.find?_singleton, List.contains_eq_mem,
        decide_eq_true_eq, Nat.le_zero]
      grind
  | succ depth ih =>
      rw [List.range_succ, List.reverse_append, List.reverse_singleton, List.singleton_append,
        List.map_cons, List.map_cons, List.find?_cons]
      by_cases hdeepest : scope.take (depth + 1) ++ target ∈ types
      · have hfound : types.contains (scope.take (depth + 1) ++ target) = true := by
          simpa using hdeepest
        simp only [hfound, Option.some.injEq]
        constructor
        · intro heq
          subst heq
          exact ⟨depth + 1, Nat.le_refl _, rfl, hdeepest, fun _ hl _ => hl⟩
        · intro h
          rcases h with ⟨k, hk, rfl, -, hlongest⟩
          rw [Nat.le_antisymm hk (hlongest _ (Nat.le_refl _) hdeepest)]
      · have hpassed : types.contains (scope.take (depth + 1) ++ target) = false := by
          simpa using hdeepest
        simp only [hpassed, ih]
        constructor
        · intro h
          rcases h with ⟨k, hk, rfl, hmem, hlongest⟩
          refine ⟨k, by omega, rfl, hmem, ?_⟩
          intro l hl htype
          refine hlongest l (Nat.le_of_lt_succ (Nat.lt_of_le_of_ne hl ?_)) htype
          intro heq
          subst heq
          exact hdeepest htype
        · intro h
          rcases h with ⟨k, hk, rfl, hmem, hlongest⟩
          refine ⟨k, Nat.le_of_lt_succ (Nat.lt_of_le_of_ne hk ?_), rfl, hmem, ?_⟩
          · intro heq
            subst heq
            exact hdeepest hmem
          · intro l hl htype
            exact hlongest l (by omega) htype

/-- A reference means the type behind as much of the scope as possible. -/
theorem resolveIn_eq_some {types : List (List String)} {scope target found : List String} :
    resolveIn types scope target = some found ↔
      ∃ outer, outer <+: scope ∧ found = outer ++ target ∧ found ∈ types ∧
        ∀ longer, longer <+: scope → longer ++ target ∈ types →
          longer.length ≤ outer.length := by
  simp only [resolveIn, scopesFrom, find?_takes]
  constructor
  · intro h
    rcases h with ⟨k, hk, rfl, htype, hlongest⟩
    refine ⟨scope.take k, List.take_prefix k scope, rfl, htype, ?_⟩
    intro longer hprefix hlonger
    rw [List.length_take_of_le hk]
    rw [List.prefix_iff_eq_take.mp hprefix] at hlonger
    exact hlongest _ hprefix.length_le hlonger
  · intro h
    rcases h with ⟨outer, hprefix, rfl, htype, hlongest⟩
    refine ⟨outer.length, hprefix.length_le, ?_, htype, ?_⟩
    · rw [← List.prefix_iff_eq_take.mp hprefix]
    · intro l hl hlonger
      have hle := hlongest _ (List.take_prefix l scope) hlonger
      rwa [List.length_take_of_le hl] at hle

theorem resolveIn_eq_some_iff {device : Device} {scope target found : List String} :
    resolveIn (clusterTypes device) scope target = some found ↔
      LeadsTo device scope target found := by
  simp only [resolveIn_eq_some, LeadsTo, mem_clusterTypes]

theorem clusterResolves_iff {device : Device} {path : List String} {c : Cluster} :
    ClusterResolves device path c ↔ ∀ target ∈ c.derivedFrom,
      ∃ found ∈ resolveIn (clusterTypes device) (typePath path.dropLast) (referencePath target),
        found ≠ typePath path := by
  simp only [ClusterResolves, Option.mem_def, resolveIn_eq_some_iff, referencePath_eq]

instance (device : Device) (path : List String) : DecidablePred (ClusterResolves device path) :=
  fun _ => decidable_of_iff' _ clusterResolves_iff

theorem danglingCluster?_eq (device : Device) (path : List String) (c : Cluster) :
    danglingCluster? (clusterTypes device) path c =
      if ¬ClusterResolves device path c then c.derivedFrom.map (.cluster path) else none := by
  cases hreference : c.derivedFrom with
  | none => simp [danglingCluster?, hreference]
  | some target =>
      simp only [danglingCluster?, hreference, clusterResolves_iff, Option.map_some]
      cases hfind : resolveIn (clusterTypes device) (typePath path.dropLast)
          (referencePath target) with
      | none => simp [hfind]
      | some found => by_cases hfound : found = typePath path <;> simp [hfind, hfound]

/-! ## Elements at fault -/

/-- The peripherals whose base is not another name, in document order. -/
def unresolvedPeripherals (device : Device) : List Dangling :=
  (device.peripherals.filter fun p => ¬PeripheralResolves device p).filterMap fun p =>
    p.derivedFrom.map (.peripheral p.name)

/-- The clusters whose reference does not lead to another type, in pre-order. -/
def unresolvedClusters (device : Device) : List Dangling :=
  ((placedClusters device).filter fun (_, path, c) => ¬ClusterResolves device path c).filterMap
    fun (_, path, c) => c.derivedFrom.map (.cluster path)

theorem danglingElements_eq (device : Device) :
    danglingElements device = unresolvedPeripherals device ++ unresolvedClusters device := by
  have htypes : ((deviceClusters device).map fun (path, _) => typePath path) =
      clusterTypes device := rfl
  simp only [danglingElements, htypes, danglingPeripheral?_eq, danglingCluster?_eq]
  rw [← map_snd_placedClusters, List.filterMap_map, unresolvedPeripherals, unresolvedClusters,
    List.filterMap_filter, List.filterMap_filter]
  simp

theorem unresolvedPeripherals_eq_nil_iff {device : Device} :
    unresolvedPeripherals device = [] ↔
      ∀ p ∈ device.peripherals, PeripheralResolves device p := by
  simp only [unresolvedPeripherals, List.filterMap_eq_nil_iff, List.mem_filter,
    Option.map_eq_none_iff, decide_eq_true_eq]
  constructor
  · intro h p hp target htarget
    by_contra hnot
    have hnone := h p ⟨hp, fun hresolves => hnot (hresolves target htarget)⟩
    simp [hnone] at htarget
  · intro h p ⟨hp, hnot⟩
    exact absurd (h p hp) hnot

theorem unresolvedClusters_eq_nil_iff {device : Device} :
    unresolvedClusters device = [] ↔ ∀ place path c,
      clusterAt? device place = some (path, c) → ClusterResolves device path c := by
  simp only [unresolvedClusters, List.filterMap_eq_nil_iff, List.mem_filter, Prod.forall,
    Option.map_eq_none_iff, decide_eq_true_eq, (isPreorder_placedClusters device).mem_iff]
  constructor
  · intro h place path c hat target htarget
    by_contra hnot
    have hnone := h place path c ⟨hat, fun hresolves => hnot (hresolves target htarget)⟩
    simp [hnone] at htarget
  · intro h place path c ⟨hat, hnot⟩
    exact absurd (h place path c hat) hnot

/-! ## Validation -/

def unreachable (device : Device) : List Peripheral :=
  device.peripherals.filter fun p => ¬ReachesDefinition device.peripherals p

theorem unreachable_eq_nil_iff {device : Device} :
    unreachable device = [] ↔
      ∀ p ∈ device.peripherals, ReachesDefinition device.peripherals p := by
  simp [unreachable]

/-! ## Verdicts -/

theorem danglingElements_eq_nil_iff {device : Device} :
    danglingElements device = [] ↔
      (∀ p ∈ device.peripherals, PeripheralResolves device p) ∧
        ∀ place path c, clusterAt? device place = some (path, c) →
          ClusterResolves device path c := by
  rw [danglingElements_eq, List.append_eq_nil_iff, unresolvedPeripherals_eq_nil_iff,
    unresolvedClusters_eq_nil_iff]

theorem validate_of_dangling {device : Device} (h : danglingElements device ≠ []) :
    validate device = .error (.dangling (danglingElements device)) := by
  unfold validate
  split
  · contradiction
  · rfl

/-- In a device that passes, every reference leads to another element. -/
theorem resolves_of_validate {device : Device} (h : validate device = .ok ()) :
    (∀ p ∈ device.peripherals, PeripheralResolves device p) ∧
      ∀ place path c, clusterAt? device place = some (path, c) → ClusterResolves device path c := by
  rw [← danglingElements_eq_nil_iff]
  by_contra hdangling
  rw [validate_of_dangling hdangling] at h
  cases h

theorem validate_of_unreachable {device : Device} (hdangling : danglingElements device = [])
    (hleft : unreachable device ≠ []) :
    validate device =
      .error (.unordered ((groupedByBase (unreachable device)).map (·.name))) := by
  rw [Ne, unreachable_eq_nil_iff] at hleft
  have hsort := sortByBase_eq_error_iff.mpr ⟨hleft, rfl⟩
  simp [validate, hdangling, hsort, unreachable]

theorem validate_of_reachable {device : Device} (hdangling : danglingElements device = [])
    (hleft : unreachable device = []) : validate device = .ok () := by
  have hsort := sortByBase_eq_ok_iff.mpr ⟨unreachable_eq_nil_iff.mp hleft, rfl⟩
  simp [validate, hdangling, hsort]

theorem validate_of_definitions {device : Device}
    (hperipherals : ∀ p ∈ device.peripherals, p.derivedFrom = none)
    (hclusters : ∀ found ∈ deviceClusters device, found.2.derivedFrom = none) :
    validate device = .ok () := by
  have hdangling : danglingElements device = [] := by
    simp only [danglingElements, List.append_eq_nil_iff, List.filterMap_eq_nil_iff]
    constructor
    · intro p hp
      simp [danglingPeripheral?, hperipherals p hp]
    · intro found hfound
      simp [danglingCluster?, hclusters found hfound]
  have hreached : unreachable device = [] :=
    unreachable_eq_nil_iff.mpr fun p hp => .definition (hperipherals p hp)
  exact validate_of_reachable hdangling hreached

/--
A device passes validation exactly if every reference leads to another element and
every peripheral reaches a definition.  Otherwise the error names all elements whose
reference leads nowhere, or else all peripherals that do not reach a definition.
-/
theorem validate_eq (device : Device) :
    let peripheralsResolve := ∀ p ∈ device.peripherals, PeripheralResolves device p
    let clustersResolve := ∀ place path c, clusterAt? device place = some (path, c) →
      ClusterResolves device path c
    let allReach := ∀ p ∈ device.peripherals, ReachesDefinition device.peripherals p
    (validate device = .ok () ↔ peripheralsResolve ∧ clustersResolve ∧ allReach) ∧
      (¬(peripheralsResolve ∧ clustersResolve) →
        validate device =
          .error (.dangling (unresolvedPeripherals device ++ unresolvedClusters device))) ∧
      (peripheralsResolve → clustersResolve → ¬allReach → ∃ names,
        validate device = .error (.unordered names) ∧
          names.Perm ((unreachable device).map (·.name))) ∧
      IsPreorder device (placedClusters device) := by
  intro peripheralsResolve clustersResolve allReach
  have hresolved : danglingElements device = [] ↔ peripheralsResolve ∧ clustersResolve :=
    danglingElements_eq_nil_iff
  have hreached : unreachable device = [] ↔ allReach := unreachable_eq_nil_iff
  refine ⟨⟨?_, ?_⟩, ?_, ?_, isPreorder_placedClusters device⟩
  · -- A device that passes is refused on neither ground.
    intro hok
    by_cases hdangling : danglingElements device = []
    · by_cases hleft : unreachable device = []
      · exact ⟨(hresolved.mp hdangling).1, (hresolved.mp hdangling).2, hreached.mp hleft⟩
      · simp [validate_of_unreachable hdangling hleft] at hok
    · simp [validate_of_dangling hdangling] at hok
  · intro ⟨hperipherals, hclusters, hreach⟩
    exact validate_of_reachable (hresolved.mpr ⟨hperipherals, hclusters⟩) (hreached.mpr hreach)
  · intro hnot
    rw [← hresolved] at hnot
    rw [validate_of_dangling hnot, danglingElements_eq]
  · intro hperipherals hclusters hnot
    rw [← hreached] at hnot
    have hdangling := hresolved.mpr ⟨hperipherals, hclusters⟩
    exact ⟨_, validate_of_unreachable hdangling hnot, (groupedByBase_perm _).map _⟩

end RegisterMap.Derivation
