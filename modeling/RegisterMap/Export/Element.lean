import RegisterMap.Model.Expansion
import RegisterMap.Swift.Name

/-!
# Exported elements

Peripherals, clusters and registers are exported as types.  A member of a block
is left out with everything below it if nothing of it can be declared there.
-/

namespace RegisterMap.Export

open RegisterMap.Model RegisterMap.Swift

inductive Member where
  | register (r : Register)
  | cluster (c : Cluster)
  deriving Repr

/-- The members of a block: its registers before its clusters. -/
def membersOf (registers : Option (List Register)) (clusters : Option (List Cluster)) :
    List Member :=
  (registers.getD []).map .register ++ (clusters.getD []).map .cluster

/-! ## Replicas of the elements -/

/-- The replicas of a peripheral, if a stride is known. -/
def peripheralExpansion? (p : Peripheral) (effective : RegisterProperties) : Option Expansion :=
  Dimension.expansion? p.dimension effective.size

def clusterExpansion? (c : Cluster) (effective : RegisterProperties) : Option Expansion :=
  Dimension.expansion? c.dimension effective.size

def registerExpansion? (r : Register) (effective : RegisterProperties) : Option Expansion :=
  Dimension.expansion? r.dimension effective.size

/-- The replicas of a field.  Its own width is the stride that it needs at least. -/
def fieldExpansion? (f : Field) : Option Expansion :=
  Dimension.expansion? f.dimension (some f.bits.width)

/-! ## Exported members -/

/-- True of a register that gets a member: its size and stride are known and it is not empty. -/
def isExportedRegister (r : Register) (inherited : RegisterProperties) : Bool :=
  let effective := r.properties.inheriting inherited
  effective.size.isSome &&
    match registerExpansion? r effective with
    | none => false
    | some expansion => expansion.count != some 0

/-- True of a cluster that gets a member: its stride is known and it has a replica. -/
def isExportedCluster (c : Cluster) (inherited : RegisterProperties) : Bool :=
  match clusterExpansion? c (c.properties.inheriting inherited) with
  | none => false
  | some expansion =>
      match expansion.count with
      | none => true
      | some count => 0 < count

def isExportedMember (inherited : RegisterProperties) : Member → Bool
  | .register r => isExportedRegister r inherited
  | .cluster c => isExportedCluster c inherited

def exportedMembers (effective : RegisterProperties) (members : List Member) : List Member :=
  members.filter (isExportedMember effective)

/-! ## Elements with types -/

/-- An element that is exported as a type. -/
inductive Element where
  | peripheral (p : Peripheral)
  | member (m : Member)
  deriving Repr

namespace Element

def name : Element → String
  | peripheral p => p.name
  | member (.register r) => r.name
  | member (.cluster c) => c.name

def typeName (e : Element) : String := swiftName e.name

def properties : Element → RegisterProperties
  | peripheral p => p.properties
  | member (.register r) => r.properties
  | member (.cluster c) => c.properties

/-- The address of an element relative to the one around it. -/
def offset : Element → Int
  | peripheral p => p.baseAddress
  | member (.register r) => r.addressOffset
  | member (.cluster c) => c.addressOffset

/-- The element that an element is an alias of. -/
def derivedFrom : Element → Option String
  | peripheral p => p.derivedFrom
  | member (.register _) => none
  | member (.cluster c) => c.derivedFrom

/-- The members of an element, which an alias does not show. -/
def members : Element → List Member
  | peripheral p => if p.derivedFrom.isSome then [] else membersOf p.registers p.clusters
  | member (.register _) => []
  | member (.cluster c) =>
      if c.derivedFrom.isSome then [] else membersOf c.registers c.clusters

end Element

/-! ## Size of an element -/

def totalWeight {α : Type} (weight : α → Nat) : List α → Nat
  | [] => 0
  | x :: xs => weight x + totalWeight weight xs

theorem totalWeight_append {α : Type} (weight : α → Nat) (xs ys : List α) :
    totalWeight weight (xs ++ ys) = totalWeight weight xs + totalWeight weight ys := by
  induction xs with
  | nil => simp [totalWeight]
  | cons x xs ih =>
      simp only [List.cons_append, totalWeight, ih]
      omega

theorem totalWeight_map {α β : Type} (weight : β → Nat) (f : α → β) (xs : List α) :
    totalWeight weight (xs.map f) = totalWeight (fun x => weight (f x)) xs := by
  induction xs with
  | nil => rfl
  | cons x xs ih => simp only [List.map_cons, totalWeight, ih]

theorem totalWeight_filter_le {α : Type} (weight : α → Nat) (test : α → Bool) (xs : List α) :
    totalWeight weight (xs.filter test) ≤ totalWeight weight xs := by
  induction xs with
  | nil => exact Nat.le_refl _
  | cons x xs ih =>
      rw [List.filter_cons]
      split
      · simp only [totalWeight]
        omega
      · simp only [totalWeight]
        omega

mutual

/-- The number of types that a cluster can stand for: its own and those below it. -/
def clusterWeight : Cluster → Nat
  | ⟨_, _, _, _, _, _, registers, none⟩ => 1 + (registers.getD []).length
  | ⟨_, _, _, _, _, _, registers, some clusters⟩ =>
      1 + (registers.getD []).length + clustersWeight clusters

def clustersWeight : List Cluster → Nat
  | [] => 0
  | c :: cs => clusterWeight c + clustersWeight cs

end

def memberWeight : Member → Nat
  | .register _ => 1
  | .cluster c => clusterWeight c

def membersWeight (members : List Member) : Nat :=
  totalWeight memberWeight members

def elementWeight : Element → Nat
  | .peripheral p => 1 + membersWeight (membersOf p.registers p.clusters)
  | .member m => memberWeight m

theorem membersWeight_map_register (rs : List Register) :
    membersWeight (rs.map .register) = rs.length := by
  induction rs with
  | nil => rfl
  | cons r rs ih =>
      simp only [membersWeight, List.map_cons, totalWeight, List.length_cons] at ih ⊢
      rw [ih]
      simp only [memberWeight]
      omega

theorem membersWeight_map_cluster (cs : List Cluster) :
    membersWeight (cs.map .cluster) = clustersWeight cs := by
  induction cs with
  | nil => simp [membersWeight, totalWeight, clustersWeight]
  | cons c cs ih =>
      simp only [membersWeight, List.map_cons, totalWeight, clustersWeight] at ih ⊢
      rw [ih]
      rfl

theorem membersWeight_membersOf (registers : Option (List Register))
    (clusters : Option (List Cluster)) :
    membersWeight (membersOf registers clusters) =
      (registers.getD []).length + clustersWeight (clusters.getD []) := by
  rw [← membersWeight_map_register, ← membersWeight_map_cluster]
  exact totalWeight_append memberWeight _ _

theorem clusterWeight_eq (c : Cluster) :
    clusterWeight c = 1 + membersWeight (membersOf c.registers c.clusters) := by
  rw [membersWeight_membersOf]
  obtain ⟨_, _, _, _, _, _, registers, _ | clusters⟩ := c
  · simp [clusterWeight, clustersWeight]
  · simp [clusterWeight]
    omega

theorem membersWeight_members_lt (e : Element) : membersWeight e.members < elementWeight e := by
  match e with
  | .peripheral p =>
      simp only [Element.members, elementWeight]
      split
      · simp only [membersWeight, totalWeight]
        omega
      · omega
  | .member (.register r) =>
      simp [Element.members, elementWeight, memberWeight, membersWeight, totalWeight]
  | .member (.cluster c) =>
      simp only [Element.members, elementWeight, memberWeight, clusterWeight_eq]
      split
      · simp only [membersWeight, totalWeight]
        omega
      · omega

end RegisterMap.Export
