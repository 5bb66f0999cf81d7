import RegisterMap.Model.Device

/-!
# Items of a device

The items of a device are the device and everything in it that has a name, in the
order in which they are decoded: the device before its peripherals, every other
item behind the items that it holds.
-/

namespace RegisterMap.Model

inductive Item where
  | device (d : Device)
  | peripheral (p : Peripheral)
  | cluster (c : Cluster)
  | register (r : Register)
  | field (f : Field)

namespace Item

def name : Item → String
  | device d => d.name
  | peripheral p => p.name
  | cluster c => c.name
  | register r => r.name
  | field f => f.name

def description : Item → Option String
  | device d => d.description
  | peripheral p => p.description
  | cluster c => c.description
  | register r => r.description
  | field f => f.description

def derivedFrom : Item → Option String
  | peripheral p => p.derivedFrom
  | cluster c => c.derivedFrom
  | device _ | register _ | field _ => none

/-- The base address of a peripheral, or the offset of a cluster or a register. -/
def address? : Item → Option Int
  | peripheral p => some p.baseAddress
  | cluster c => some c.addressOffset
  | register r => some r.addressOffset
  | device _ | field _ => none

def bits? : Item → Option BitRange
  | field f => some f.bits
  | device _ | peripheral _ | cluster _ | register _ => none

def dimension : Item → Option Dimension
  | peripheral p => p.dimension
  | cluster c => c.dimension
  | register r => r.dimension
  | field f => f.dimension
  | device _ => none

/-- The register properties that an item sets.  A field sets none. -/
def properties : Item → RegisterProperties
  | device d => d.properties
  | peripheral p => p.properties
  | cluster c => c.properties
  | register r => r.properties
  | field _ => {}

def writeConstraint : Item → Option WriteConstraint
  | register r => r.writeConstraint
  | field f => f.writeConstraint
  | device _ | peripheral _ | cluster _ => none

end Item

/-! ## Order -/

def Register.items (r : Register) : List Item :=
  (r.fields.getD []).map .field ++ [.register r]

mutual

def Cluster.items : Cluster → List Item
  | ⟨name, addressOffset, description, derivedFrom, dimension, properties, registers, none⟩ =>
      (registers.getD []).flatMap Register.items ++
        [.cluster ⟨name, addressOffset, description, derivedFrom, dimension, properties,
          registers, none⟩]
  | ⟨name, addressOffset, description, derivedFrom, dimension, properties, registers,
      some clusters⟩ =>
      (registers.getD []).flatMap Register.items ++ itemsOfClusters clusters ++
        [.cluster ⟨name, addressOffset, description, derivedFrom, dimension, properties,
          registers, some clusters⟩]

def itemsOfClusters : List Cluster → List Item
  | [] => []
  | c :: cs => c.items ++ itemsOfClusters cs

end

def Peripheral.items (p : Peripheral) : List Item :=
  (p.registers.getD []).flatMap Register.items ++ (p.clusters.getD []).flatMap Cluster.items ++
    [.peripheral p]

def Device.items (device : Device) : List Item :=
  .device device :: device.peripherals.flatMap Peripheral.items

theorem itemsOfClusters_eq (cs : List Cluster) : itemsOfClusters cs = cs.flatMap Cluster.items := by
  induction cs with
  | nil => rfl
  | cons c cs ih => rw [itemsOfClusters, List.flatMap_cons, ih]

theorem Cluster.items_eq (c : Cluster) :
    c.items = (c.registers.getD []).flatMap Register.items ++
      (c.clusters.getD []).flatMap Cluster.items ++ [.cluster c] := by
  obtain ⟨name, addressOffset, description, derivedFrom, dimension, properties, registers,
    _ | clusters⟩ := c
  · simp only [items, Option.getD_none, List.flatMap_nil, List.append_nil]
  · simp only [items, itemsOfClusters_eq, Option.getD_some]

theorem Cluster.sizeOf_lt_of_mem {c d : Cluster} (h : d ∈ c.clusters.getD []) :
    sizeOf d < sizeOf c := by
  obtain ⟨name, addressOffset, description, derivedFrom, dimension, properties, registers,
    _ | clusters⟩ := c
  · cases h
  · have hlt := List.sizeOf_lt_of_mem h
    simp only [mk.sizeOf_spec, Option.some.sizeOf_spec, Option.getD_some] at hlt ⊢
    omega

/-! ## Items of members -/

section

variable {P : Item → Prop}

theorem Register.forall_items_iff {r : Register} :
    (∀ i ∈ r.items, P i) ↔ (∀ f ∈ r.fields.getD [], P (.field f)) ∧ P (.register r) := by
  simp only [Register.items, List.forall_mem_append, List.forall_mem_map, List.forall_mem_singleton]

theorem Cluster.forall_items_iff {c : Cluster} :
    (∀ i ∈ c.items, P i) ↔ ((∀ r ∈ c.registers.getD [], ∀ i ∈ r.items, P i) ∧
      ∀ d ∈ c.clusters.getD [], ∀ i ∈ d.items, P i) ∧ P (.cluster c) := by
  rw [Cluster.items_eq]
  simp only [List.forall_mem_append, List.forall_mem_flatMap, List.forall_mem_singleton]

theorem Peripheral.forall_items_iff {p : Peripheral} :
    (∀ i ∈ p.items, P i) ↔ ((∀ r ∈ p.registers.getD [], ∀ i ∈ r.items, P i) ∧
      ∀ c ∈ p.clusters.getD [], ∀ i ∈ c.items, P i) ∧ P (.peripheral p) := by
  simp only [Peripheral.items, List.forall_mem_append, List.forall_mem_flatMap,
    List.forall_mem_singleton]

theorem Device.forall_items_iff {device : Device} :
    (∀ i ∈ device.items, P i) ↔
      P (.device device) ∧ ∀ p ∈ device.peripherals, ∀ i ∈ p.items, P i := by
  simp only [Device.items, List.forall_mem_cons, List.forall_mem_flatMap]

end

end RegisterMap.Model
