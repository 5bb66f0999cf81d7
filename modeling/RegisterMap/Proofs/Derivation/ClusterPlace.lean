import Mathlib.Data.List.Lex
import RegisterMap.Derivation.Reference

/-!
# Places of clusters

A place says which peripheral to take, and then which cluster at each step
inwards.  The list of all clusters holds the cluster at each place once, in
pre-order: a cluster before those below it, and those before its later siblings.
-/

namespace RegisterMap.Derivation

open RegisterMap.Model

abbrev NamedCluster := List String × Cluster

/-- The cluster that is reached from a cluster by taking the clusters at some positions. -/
def clusterBelow? (scope : List String) (c : Cluster) : List Nat → Option NamedCluster
  | [] => some (scope ++ [c.name], c)
  | i :: place => (c.clusters.getD [])[i]?.bind (clusterBelow? (scope ++ [c.name]) · place)

def clusterAmong? (scope : List String) (clusters : List Cluster) : List Nat → Option NamedCluster
  | [] => none
  | i :: place => clusters[i]?.bind (clusterBelow? scope · place)

/-- The cluster at a place of a device. -/
def clusterAt? (device : Device) : List Nat → Option NamedCluster
  | [] => none
  | i :: place =>
      device.peripherals[i]?.bind fun p => clusterAmong? [p.name] (p.clusters.getD []) place

def behind {α : Type} (i : Nat) (found : List (List Nat × α)) : List (List Nat × α) :=
  found.map fun (place, a) => (i :: place, a)

mutual

/-- A cluster and all clusters below it in pre-order, with their places. -/
def placesIn (scope : List String) : Cluster → List (List Nat × NamedCluster)
  | c@⟨name, _, _, _, _, _, _, none⟩ => [([], scope ++ [name], c)]
  | c@⟨name, _, _, _, _, _, _, some clusters⟩ =>
      ([], scope ++ [name], c) :: placesAmong (scope ++ [name]) 0 clusters

def placesAmong (scope : List String) (i : Nat) : List Cluster → List (List Nat × NamedCluster)
  | [] => []
  | c :: cs => behind i (placesIn scope c) ++ placesAmong scope (i + 1) cs

end

@[simp] theorem map_snd_behind {α : Type} (i : Nat) (found : List (List Nat × α)) :
    (behind i found).map Prod.snd = found.map Prod.snd := by
  simp [behind]

theorem mem_behind {α : Type} {i : Nat} {found : List (List Nat × α)} {place : List Nat} {a : α} :
    (place, a) ∈ behind i found ↔ ∃ rest, place = i :: rest ∧ (rest, a) ∈ found := by
  simp only [behind, List.mem_map, Prod.exists, Prod.mk.injEq]
  constructor
  · intro h
    rcases h with ⟨rest, _, hmem, rfl, rfl⟩
    exact ⟨rest, rfl, hmem⟩
  · intro h
    rcases h with ⟨rest, rfl, hmem⟩
    exact ⟨rest, a, hmem, rfl, rfl⟩

/-! ## Clusters with places are the clusters of a list -/

mutual

theorem map_snd_placesIn (scope : List String) :
    (c : Cluster) → (placesIn scope c).map Prod.snd = clusterPaths scope c
  | ⟨name, _, _, _, _, _, _, none⟩ => by simp [placesIn, clusterPaths]
  | ⟨name, _, _, _, _, _, _, some clusters⟩ => by
      simp [placesIn, clusterPaths, map_snd_placesAmong (scope ++ [name]) 0 clusters]

theorem map_snd_placesAmong (scope : List String) (i : Nat) :
    (cs : List Cluster) → (placesAmong scope i cs).map Prod.snd = pathsOfAll scope cs
  | [] => by simp [placesAmong, pathsOfAll]
  | c :: cs => by
      simp [placesAmong, pathsOfAll, map_snd_placesIn scope c, map_snd_placesAmong scope (i + 1) cs]

end

/-! ## Each place has its cluster -/

theorem clusterBelow?_cons {scope : List String} {c : Cluster} {i : Nat} {place : List Nat} :
    clusterBelow? scope c (i :: place) =
      clusterAmong? (scope ++ [c.name]) (c.clusters.getD []) (i :: place) := rfl

mutual

theorem mem_placesIn (scope : List String) :
    (c : Cluster) → ∀ place found,
      (place, found) ∈ placesIn scope c ↔ clusterBelow? scope c place = some found
  | ⟨name, _, _, _, _, _, _, none⟩ => by
      intro place found
      cases place <;> simp [placesIn, clusterBelow?, eq_comm]
  | ⟨name, _, _, _, _, _, _, some clusters⟩ => by
      intro place found
      have hbelow := mem_placesAmong (scope ++ [name]) 0 clusters place found
      cases place with
      | nil => simp_all [placesIn, clusterBelow?, eq_comm]
      | cons i place => simp_all [placesIn, clusterBelow?_cons]

theorem mem_placesAmong (scope : List String) (i : Nat) :
    (cs : List Cluster) → ∀ place found,
      (place, found) ∈ placesAmong scope i cs ↔
        ∃ j rest, place = (i + j) :: rest ∧ clusterAmong? scope cs (j :: rest) = some found
  | [] => by simp [placesAmong, clusterAmong?]
  | c :: cs => by
      intro place found
      have hrest := mem_placesAmong scope (i + 1) cs place found
      simp only [placesAmong, List.mem_append, mem_behind, mem_placesIn scope c, hrest]
      constructor
      · intro h
        rcases h with ⟨rest, rfl, hfound⟩ | ⟨j, rest, rfl, hfound⟩
        · exact ⟨0, rest, rfl, hfound⟩
        · exact ⟨j + 1, rest, by rw [Nat.add_right_comm, Nat.add_assoc], hfound⟩
      · intro h
        rcases h with ⟨_ | j, rest, rfl, hfound⟩
        · exact .inl ⟨rest, rfl, hfound⟩
        · exact .inr ⟨j, rest, by rw [Nat.add_right_comm, Nat.add_assoc], hfound⟩

end

/-! ## Pre-order -/

/-- True of places that come in pre-order, each of them once. -/
def Preordered {α : Type} (found : List (List Nat × α)) : Prop :=
  (found.map Prod.fst).Pairwise (List.Lex (· < ·))

theorem preordered_behind {α : Type} {found : List (List Nat × α)} (h : Preordered found)
    (i : Nat) : Preordered (behind i found) := by
  rw [Preordered, List.pairwise_map] at h ⊢
  exact List.pairwise_map.mpr (h.imp fun hlex => .cons hlex)

theorem preordered_append {α : Type} {found others : List (List Nat × α)} {i : Nat}
    (hfound : Preordered found) (hothers : Preordered others)
    (hlater : ∀ place a, (place, a) ∈ others → ∃ j rest, place = (i + 1 + j) :: rest) :
    Preordered (behind i found ++ others) := by
  have hfirst := preordered_behind hfound i
  rw [Preordered, List.pairwise_map] at hfirst hothers ⊢
  refine List.pairwise_append.mpr ⟨hfirst, hothers, ?_⟩
  intro (place, a) ha (place', b) hb
  rcases mem_behind.mp ha with ⟨rest, rfl, -⟩
  rcases hlater place' b hb with ⟨j, rest', rfl⟩
  exact .rel (by omega)

mutual

theorem preordered_placesIn (scope : List String) : (c : Cluster) → Preordered (placesIn scope c)
  | ⟨name, _, _, _, _, _, _, none⟩ => by simp [placesIn, Preordered]
  | ⟨name, _, _, _, _, _, _, some clusters⟩ => by
      have hbelow := preordered_placesAmong (scope ++ [name]) 0 clusters
      rw [placesIn, Preordered, List.map_cons, List.pairwise_cons]
      refine ⟨?_, hbelow⟩
      intro place hplace
      rcases List.mem_map.mp hplace with ⟨⟨place, found⟩, hmem, rfl⟩
      rcases (mem_placesAmong _ _ _ _ _).mp hmem with ⟨j, rest, rfl, -⟩
      exact .nil

theorem preordered_placesAmong (scope : List String) (i : Nat) :
    (cs : List Cluster) → Preordered (placesAmong scope i cs)
  | [] => by simp [placesAmong, Preordered]
  | c :: cs => by
      rw [placesAmong]
      refine preordered_append (preordered_placesIn scope c)
        (preordered_placesAmong scope (i + 1) cs) ?_
      intro place found hmem
      rcases (mem_placesAmong _ _ _ _ _).mp hmem with ⟨j, rest, rfl, -⟩
      exact ⟨j, rest, rfl⟩

end

/-! ## Clusters of a device -/

def placesOf (i : Nat) : List Peripheral → List (List Nat × NamedCluster)
  | [] => []
  | p :: ps => behind i (placesAmong [p.name] 0 (p.clusters.getD [])) ++ placesOf (i + 1) ps

/-- All clusters of a device with their places. -/
def placedClusters (device : Device) : List (List Nat × NamedCluster) :=
  placesOf 0 device.peripherals

/-- A list of all clusters of a device, by their places, in pre-order. -/
structure IsPreorder (device : Device) (found : List (List Nat × NamedCluster)) : Prop where
  mem_iff : ∀ place path c, (place, path, c) ∈ found ↔ clusterAt? device place = some (path, c)
  sorted : Preordered found

theorem map_snd_placesOf (i : Nat) (ps : List Peripheral) :
    (placesOf i ps).map Prod.snd =
      ps.flatMap fun p => pathsOfAll [p.name] (p.clusters.getD []) := by
  induction ps generalizing i with
  | nil => rfl
  | cons p ps ih =>
      rw [placesOf, List.map_append, map_snd_behind, map_snd_placesAmong, ih, List.flatMap_cons]

theorem map_snd_placedClusters (device : Device) :
    (placedClusters device).map Prod.snd = deviceClusters device :=
  map_snd_placesOf 0 device.peripherals

theorem mem_placesAmong_zero {scope : List String} {cs : List Cluster} {place : List Nat}
    {found : NamedCluster} :
    (place, found) ∈ placesAmong scope 0 cs ↔ clusterAmong? scope cs place = some found := by
  rw [mem_placesAmong]
  constructor
  · intro h
    rcases h with ⟨j, rest, rfl, hfound⟩
    rwa [Nat.zero_add]
  · intro hfound
    cases place with
    | nil => cases hfound
    | cons j rest => exact ⟨j, rest, by rw [Nat.zero_add], hfound⟩

theorem mem_placesOf {i : Nat} {ps : List Peripheral} {place : List Nat} {found : NamedCluster} :
    (place, found) ∈ placesOf i ps ↔
      ∃ j rest, place = (i + j) :: rest ∧
        (ps[j]?.bind fun p => clusterAmong? [p.name] (p.clusters.getD []) rest) = some found := by
  induction ps generalizing i with
  | nil => simp [placesOf]
  | cons p ps ih =>
      simp only [placesOf, List.mem_append, mem_behind, mem_placesAmong_zero, ih]
      constructor
      · intro h
        rcases h with ⟨rest, rfl, hfound⟩ | ⟨j, rest, rfl, hfound⟩
        · exact ⟨0, rest, rfl, hfound⟩
        · exact ⟨j + 1, rest, by rw [Nat.add_right_comm, Nat.add_assoc], hfound⟩
      · intro h
        rcases h with ⟨_ | j, rest, rfl, hfound⟩
        · exact .inl ⟨rest, rfl, hfound⟩
        · exact .inr ⟨j, rest, by rw [Nat.add_right_comm, Nat.add_assoc], hfound⟩

theorem preordered_placesOf (i : Nat) (ps : List Peripheral) : Preordered (placesOf i ps) := by
  induction ps generalizing i with
  | nil => simp [placesOf, Preordered]
  | cons p ps ih =>
      rw [placesOf]
      refine preordered_append (preordered_placesAmong _ 0 _) (ih (i + 1)) ?_
      intro place found hmem
      rcases mem_placesOf.mp hmem with ⟨j, rest, rfl, -⟩
      exact ⟨j, rest, rfl⟩

theorem isPreorder_placedClusters (device : Device) :
    IsPreorder device (placedClusters device) where
  sorted := preordered_placesOf 0 device.peripherals
  mem_iff place path c := by
    rw [placedClusters, mem_placesOf]
    constructor
    · intro h
      rcases h with ⟨j, rest, rfl, hfound⟩
      rw [Nat.zero_add]
      exact hfound
    · intro hfound
      cases place with
      | nil => cases hfound
      | cons j rest => exact ⟨j, rest, by rw [Nat.zero_add], hfound⟩

end RegisterMap.Derivation
