import RegisterMap.Model.Device

/-!
# Devices without descriptions

What is left of a device when all descriptions are taken out of it.  Two devices
that leave the same are the same but for what is described in them.
-/

namespace RegisterMap.Model

def Field.bare (f : Field) : Field :=
  { f with description := none }

def Register.bare (r : Register) : Register :=
  { r with description := none, fields := r.fields.map (·.map Field.bare) }

mutual

def Cluster.bare : Cluster → Cluster
  | ⟨name, addressOffset, _, derivedFrom, dimension, properties, registers, none⟩ =>
      ⟨name, addressOffset, none, derivedFrom, dimension, properties,
        registers.map (·.map Register.bare), none⟩
  | ⟨name, addressOffset, _, derivedFrom, dimension, properties, registers, some clusters⟩ =>
      ⟨name, addressOffset, none, derivedFrom, dimension, properties,
        registers.map (·.map Register.bare), some (bareClusters clusters)⟩

def bareClusters : List Cluster → List Cluster
  | [] => []
  | c :: cs => c.bare :: bareClusters cs

end

theorem bareClusters_eq (cs : List Cluster) : bareClusters cs = cs.map Cluster.bare := by
  induction cs with
  | nil => rfl
  | cons c cs ih => rw [bareClusters, List.map_cons, ih]

def Peripheral.bare (p : Peripheral) : Peripheral :=
  { p with
    description := none
    registers := p.registers.map (·.map Register.bare)
    clusters := p.clusters.map (·.map Cluster.bare) }

def Device.bare (device : Device) : Device :=
  { device with
    description := none
    peripherals := device.peripherals.map Peripheral.bare }

namespace Cluster

theorem bare_eq (c : Cluster) : c.bare =
    { c with
      description := none
      registers := c.registers.map (·.map Register.bare)
      clusters := c.clusters.map (·.map Cluster.bare) } := by
  obtain ⟨name, addressOffset, description, derivedFrom, dimension, properties, registers,
    _ | clusters⟩ := c
  · rfl
  · simp only [bare, bareClusters_eq, Option.map_some]

@[simp] theorem bare_name (c : Cluster) : c.bare.name = c.name := by rw [bare_eq]

@[simp] theorem bare_addressOffset (c : Cluster) : c.bare.addressOffset = c.addressOffset := by
  rw [bare_eq]

@[simp] theorem bare_derivedFrom (c : Cluster) : c.bare.derivedFrom = c.derivedFrom := by
  rw [bare_eq]

@[simp] theorem bare_dimension (c : Cluster) : c.bare.dimension = c.dimension := by
  rw [bare_eq]

@[simp] theorem bare_properties (c : Cluster) : c.bare.properties = c.properties := by
  rw [bare_eq]

@[simp] theorem bare_registers (c : Cluster) :
    c.bare.registers = c.registers.map (·.map Register.bare) := by
  rw [bare_eq]

@[simp] theorem bare_clusters (c : Cluster) :
    c.bare.clusters = c.clusters.map (·.map Cluster.bare) := by
  rw [bare_eq]

end Cluster

theorem getD_map_map {α β : Type} (f : α → β) (xs? : Option (List α)) :
    (xs?.map (·.map f)).getD [] = (xs?.getD []).map f := by
  cases xs? <;> rfl

end RegisterMap.Model
