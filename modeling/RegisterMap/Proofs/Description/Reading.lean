import Mathlib.Tactic.MkIffOfInductiveProp
import RegisterMap.Proofs.Description.Invariance

/-!
# What elements are read as

An element of a description is read as a value if the values that it gives itself
are those of the value, and the elements in it are read, one by one and in their
order, as the parts of the value.  Decoding an element gives a value exactly if
the element is read as it, wherever it stands.
-/

namespace RegisterMap.Description

open RegisterMap.Model RegisterMap.Report.Outcome RegisterMap.Xml

/-! ## Readings -/

/-- The children with a tag in the first child with another, if there is one. -/
def contained (e : Element) (container tag : String) : List Element :=
  (e.child? container).elim [] (tagged · tag)

def ReadsConstraint (e : Element) (constraint : WriteConstraint) : Prop :=
  constraintIn? e = .ok (some constraint)

@[mk_iff]
structure ReadsField (e : Element) (f : Field) : Prop where
  name : nameOf e = .ok f.name
  description : descriptionOf e = f.description
  bits : bitsOf e = .ok f.bits
  access : accessOf e = .ok f.access
  dimension : dimensionOf e = .ok f.dimension
  writeConstraint : Option.Rel ReadsConstraint (e.child? "writeConstraint") f.writeConstraint

def ReadsFields (e : Element) (fields : List Field) : Prop :=
  List.Forall₂ ReadsField (tagged e "field") fields

@[mk_iff]
structure ReadsRegister (e : Element) (r : Register) : Prop where
  name : nameOf e = .ok r.name
  description : descriptionOf e = r.description
  addressOffset : integer e "addressOffset" .offset = .ok r.addressOffset
  dimension : dimensionOf e = .ok r.dimension
  properties : propertiesOf e = .ok r.properties
  writeConstraint : Option.Rel ReadsConstraint (e.child? "writeConstraint") r.writeConstraint
  fields : Option.Rel ReadsFields (e.child? "fields") r.fields

/-- What a cluster says about itself.  A list of members that is there is not empty. -/
@[mk_iff]
structure ReadsClusterHead (e : Element) (c : Cluster) : Prop where
  name : nameOf e = .ok c.name
  description : descriptionOf e = c.description
  addressOffset : integer e "addressOffset" .offset = .ok c.addressOffset
  derivedFrom : derivedFromOf e = .ok c.derivedFrom
  dimension : dimensionOf e = .ok c.dimension
  properties : propertiesOf e = .ok c.properties
  registers_ne : c.registers ≠ some []
  clusters_ne : c.clusters ≠ some []

inductive ReadsCluster : Element → Cluster → Prop
  | intro {e : Element} {c : Cluster} (head : ReadsClusterHead e c)
      (registers : List.Forall₂ ReadsRegister (tagged e "register") (c.registers.getD []))
      (clusters : List.Forall₂ ReadsCluster (tagged e "cluster") (c.clusters.getD [])) :
      ReadsCluster e c

namespace ReadsCluster

variable {e : Element} {c : Cluster}

theorem head (h : ReadsCluster e c) : ReadsClusterHead e c := by
  cases h with
  | intro head _ _ => exact head

theorem registers (h : ReadsCluster e c) :
    List.Forall₂ ReadsRegister (tagged e "register") (c.registers.getD []) := by
  cases h with
  | intro _ registers _ => exact registers

theorem clusters (h : ReadsCluster e c) :
    List.Forall₂ ReadsCluster (tagged e "cluster") (c.clusters.getD []) := by
  cases h with
  | intro _ _ clusters => exact clusters

end ReadsCluster

/-- What the body of a peripheral holds.  Without a body there are no lists of members. -/
inductive ReadsBody : Option Element → Option (List Register) → Option (List Cluster) → Prop
  | absent : ReadsBody none none none
  | present {body : Element} {registers : List Register} {clusters : List Cluster}
      (hregisters : List.Forall₂ ReadsRegister (tagged body "register") registers)
      (hclusters : List.Forall₂ ReadsCluster (tagged body "cluster") clusters) :
      ReadsBody (some body) (some registers) (some clusters)

@[mk_iff]
structure ReadsPeripheralHead (e : Element) (p : Peripheral) : Prop where
  name : nameOf e = .ok p.name
  description : descriptionOf e = p.description
  baseAddress : integer e "baseAddress" .baseAddress = .ok p.baseAddress
  derivedFrom : derivedFromOf e = .ok p.derivedFrom
  dimension : dimensionOf e = .ok p.dimension
  properties : propertiesOf e = .ok p.properties

structure ReadsPeripheral (e : Element) (p : Peripheral) : Prop
    extends ReadsPeripheralHead e p where
  body : ReadsBody (e.child? "registers") p.registers p.clusters

@[mk_iff]
structure ReadsDevice (root : Element) (device : Device) : Prop where
  tag : root.hasTag "device" = true
  name : nameOf root = .ok device.name
  description : descriptionOf root = device.description
  properties : propertiesOf root = .ok device.properties
  peripherals : List.Forall₂ ReadsPeripheral (contained root "peripherals" "peripheral")
    device.peripherals

/-! ## Children -/

theorem mapM?_eq_ok_iff {ε α β : Type} {f : α → Except ε β} {x : Option α} {y : Option β} :
    x.mapM f = .ok y ↔ Option.Rel (fun a b => f a = .ok b) x y := by
  cases x with
  | none =>
      change Except.ok none = Except.ok y ↔ _
      constructor
      · rintro ⟨⟩
        exact .none
      · rintro ⟨⟩
        rfl
  | some a =>
      change (some <$> f a) = .ok y ↔ _
      simp only [map_eq_pure_bind, bind_eq_ok_iff, pure_eq_ok_iff]
      constructor
      · rintro ⟨b, hb, rfl⟩
        exact .some hb
      · rintro ⟨hb⟩
        exact ⟨_, hb, rfl⟩

namespace Located

/-- The children with a tag in the first child with another, with their chains. -/
def childrenWithin (l : Located) (container tag : String) : List Located :=
  (l.child? container).elim [] (·.childrenNamed tag)

theorem map_element_childrenWithin (l : Located) (container tag : String) :
    (l.childrenWithin container tag).map (·.element) = contained l.element container tag := by
  rw [childrenWithin, contained, ← map_element_child?]
  cases l.child? container with
  | none => rfl
  | some child => exact map_element_childrenNamed child tag

variable {α : Type} {R : Element → α → Prop} {l : Located} {tag : String}

theorem forall₂_childrenNamed_iff {values : List α} :
    List.Forall₂ (fun child a => R child.element a) (l.childrenNamed tag) values ↔
      List.Forall₂ R (tagged l.element tag) values := by
  rw [← map_element_childrenNamed, List.forall₂_map_left_iff]

theorem forall₂_childrenWithin_iff {container : String} {values : List α} :
    List.Forall₂ (fun child a => R child.element a) (l.childrenWithin container tag) values ↔
      List.Forall₂ R (contained l.element container tag) values := by
  rw [← map_element_childrenWithin, List.forall₂_map_left_iff]

theorem rel_child?_iff {value : Option α} :
    Option.Rel (fun child a => R child.element a) (l.child? tag) value ↔
      Option.Rel R (l.element.child? tag) value := by
  rw [← map_element_child?]
  cases l.child? tag <;> cases value <;> constructor <;> rintro ⟨⟩ <;>
    first | exact .none | exact .some ‹_›

theorem forall₂_childrenNamed_congr {decode : Located → Except DecodeError α} {values : List α}
    (h : ∀ child ∈ l.childrenNamed tag, ∀ a, decode child = .ok a ↔ R child.element a) :
    List.Forall₂ (fun child a => decode child = .ok a) (l.childrenNamed tag) values ↔
      List.Forall₂ R (tagged l.element tag) values := by
  rw [← forall₂_childrenNamed_iff]
  generalize l.childrenNamed tag = children at h ⊢
  induction children generalizing values with
  | nil => rw [List.forall₂_nil_left_iff, List.forall₂_nil_left_iff]
  | cons child children ih =>
      rw [List.forall_mem_cons] at h
      rw [List.forall₂_cons_left_iff, List.forall₂_cons_left_iff]
      simp only [h.1, ih h.2]

end Located

theorem decodeAll_eq_ok_iff {α : Type} {decode : Located → Except DecodeError α}
    {R : Element → α → Prop} {l : Located} {tag : String} {values : List α}
    (h : ∀ child ∈ l.childrenNamed tag, ∀ a, decode child = .ok a ↔ R child.element a) :
    decodeAll tag decode l = .ok values ↔ List.Forall₂ R (tagged l.element tag) values :=
  mapM_eq_ok_iff.trans (Located.forall₂_childrenNamed_congr h)

theorem eq_nonempty?_iff {α : Type} {xs : List α} {xs? : Option (List α)} :
    nonempty? xs = xs? ↔ xs = xs?.getD [] ∧ xs? ≠ some [] := by
  cases xs with
  | nil => cases xs? <;> simp [nonempty?, eq_comm]
  | cons x xs =>
      cases xs? with
      | none => simp [nonempty?]
      | some ys =>
          constructor
          · rintro ⟨⟩
            exact ⟨rfl, by simp⟩
          · rintro ⟨rfl, -⟩
            rfl

/-! ## Decoding -/

theorem writeConstraintOf_eq_ok_iff {l : Located} {shape : Shape}
    {constraint? : Option WriteConstraint} : writeConstraintOf l shape = .ok constraint? ↔
      Option.Rel ReadsConstraint (l.element.child? "writeConstraint") constraint? := by
  rw [← Located.rel_child?_iff, writeConstraintOf]
  cases l.child? "writeConstraint" with
  | none =>
      rw [pure_eq_ok_iff]
      constructor
      · rintro rfl
        exact .none
      · rintro ⟨⟩
        rfl
  | some child =>
      simp only [bind_eq_ok_iff, valueOf_eq_ok_iff]
      constructor
      · rintro ⟨_ | constraint, hconstraint, h⟩
        · cases h
        · cases h
          exact .some hconstraint
      · rintro ⟨h⟩
        exact ⟨_, h, rfl⟩

theorem decodeField_eq_ok_iff {l : Located} {f : Field} :
    decodeField l = .ok f ↔ ReadsField l.element f := by
  simp only [decodeField, bind_eq_ok_iff, pure_eq_ok_iff, valueOf_eq_ok_iff,
    writeConstraintOf_eq_ok_iff]
  constructor
  · rintro ⟨name, hname, bits, hbits, access, haccess, dimension, hdimension, constraint,
      hconstraint, rfl⟩
    exact ⟨hname, rfl, hbits, haccess, hdimension, hconstraint⟩
  · intro h
    exact ⟨_, h.name, _, h.bits, _, h.access, _, h.dimension, _, h.writeConstraint,
      by rw [h.description]⟩

theorem decodeRegister_eq_ok_iff {l : Located} {r : Register} :
    decodeRegister l = .ok r ↔ ReadsRegister l.element r := by
  have hfields {container : Located} {fields : List Field} :
      (container.childrenNamed "field").mapM decodeField = .ok fields ↔
        ReadsFields container.element fields :=
    decodeAll_eq_ok_iff fun _ _ _ => decodeField_eq_ok_iff
  simp only [decodeRegister, registerWith, bind_eq_ok_iff, pure_eq_ok_iff, valueOf_eq_ok_iff,
    writeConstraintOf_eq_ok_iff, mapM?_eq_ok_iff, hfields, Located.rel_child?_iff]
  constructor
  · rintro ⟨fields, hfields, name, hname, offset, hoffset, dimension, hdimension, properties,
      hproperties, constraint, hconstraint, rfl⟩
    exact ⟨hname, rfl, hoffset, hdimension, hproperties, hconstraint, hfields⟩
  · intro h
    exact ⟨_, h.fields, _, h.name, _, h.addressOffset, _, h.dimension, _, h.properties, _,
      h.writeConstraint, by rw [h.description]⟩

theorem decodeRegisters_eq_ok_iff {l : Located} {registers : List Register} :
    (l.childrenNamed "register").mapM decodeRegister = .ok registers ↔
      List.Forall₂ ReadsRegister (tagged l.element "register") registers :=
  decodeAll_eq_ok_iff fun _ _ _ => decodeRegister_eq_ok_iff

theorem clusterWith_eq_ok_iff {l : Located} {registers : List Register} {clusters : List Cluster}
    {c : Cluster} : clusterWith l registers clusters = .ok c ↔
      ReadsClusterHead l.element c ∧ registers = c.registers.getD [] ∧
        clusters = c.clusters.getD [] := by
  simp only [clusterWith, bind_eq_ok_iff, pure_eq_ok_iff, valueOf_eq_ok_iff]
  constructor
  · rintro ⟨name, hname, offset, hoffset, base, hbase, dimension, hdimension, properties,
      hproperties, rfl⟩
    have hregisters := eq_nonempty?_iff.mp (Eq.refl (nonempty? registers))
    have hclusters := eq_nonempty?_iff.mp (Eq.refl (nonempty? clusters))
    exact ⟨⟨hname, rfl, hoffset, hbase, hdimension, hproperties, hregisters.2, hclusters.2⟩,
      hregisters.1, hclusters.1⟩
  · rintro ⟨h, hregisters, hclusters⟩
    refine ⟨_, h.name, _, h.addressOffset, _, h.derivedFrom, _, h.dimension, _, h.properties, ?_⟩
    rw [h.description, eq_nonempty?_iff.mpr ⟨hregisters, h.registers_ne⟩,
      eq_nonempty?_iff.mpr ⟨hclusters, h.clusters_ne⟩]
    cases c
    rfl

theorem sizeOf_lt_of_mem_childrenNamed {l child : Located} {tag : String}
    (h : child ∈ l.childrenNamed tag) : sizeOf child.element < sizeOf l.element := by
  have hmem : child.element ∈ tagged l.element tag := by
    rw [← Located.map_element_childrenNamed]
    exact List.mem_map_of_mem h
  exact sizeOf_lt_of_mem_tagged hmem

/-- What holds of a cluster if it holds of all clusters in it holds of every cluster. -/
theorem Located.cluster_induction {P : Located → Prop}
    (h : ∀ l, (∀ child ∈ l.childrenNamed "cluster", P child) → P l) (l : Located) : P l := by
  apply h
  intro child hchild
  have hlt := sizeOf_lt_of_mem_childrenNamed hchild
  exact Located.cluster_induction h child
termination_by sizeOf l.element

theorem decodeClusterAt_eq_ok_iff {l : Located} {c : Cluster} :
    decodeClusterAt l = .ok c ↔ ReadsCluster l.element c := by
  induction l using Located.cluster_induction generalizing c with
  | h l ih =>
      -- Only for the clusters among the children of the element is the iff known.
      have hclusters {clusters : List Cluster} :
          decodeAll "cluster" decodeClusterAt l = .ok clusters ↔
            List.Forall₂ ReadsCluster (tagged l.element "cluster") clusters :=
        decodeAll_eq_ok_iff fun child hchild c => ih child hchild
      rw [decodeClusterAt_eq, decodeAll]
      simp only [bind_eq_ok_iff, decodeRegisters_eq_ok_iff, hclusters, clusterWith_eq_ok_iff]
      constructor
      · rintro ⟨registers, hr, clusters, hc, hhead, rfl, rfl⟩
        exact .intro hhead hr hc
      · intro hc
        exact ⟨_, hc.registers, _, hc.clusters, hc.head, rfl, rfl⟩

theorem peripheralWith_eq_ok_iff {l : Located} {registers : Option (List Register)}
    {clusters : Option (List Cluster)} {p : Peripheral} :
    peripheralWith l registers clusters = .ok p ↔
      ReadsPeripheralHead l.element p ∧ registers = p.registers ∧ clusters = p.clusters := by
  simp only [peripheralWith, bind_eq_ok_iff, pure_eq_ok_iff, valueOf_eq_ok_iff]
  constructor
  · rintro ⟨name, hname, base, hbase, derived, hderived, dimension, hdimension, properties,
      hproperties, rfl⟩
    exact ⟨⟨hname, rfl, hbase, hderived, hdimension, hproperties⟩, rfl, rfl⟩
  · rintro ⟨h, rfl, rfl⟩
    exact ⟨_, h.name, _, h.baseAddress, _, h.derivedFrom, _, h.dimension, _, h.properties,
      by rw [h.description]⟩

theorem decodePeripheral_eq_ok_iff {l : Located} {p : Peripheral} :
    decodePeripheral l = .ok p ↔ ReadsPeripheral l.element p := by
  have hbody := Located.map_element_child? l "registers"
  unfold decodePeripheral
  cases hchild : l.child? "registers" with
  | none =>
      rw [hchild, Option.map_none] at hbody
      rw [peripheralWith_eq_ok_iff]
      constructor
      · rintro ⟨hhead, hregisters, hclusters⟩
        refine ⟨hhead, ?_⟩
        rw [← hbody, ← hregisters, ← hclusters]
        exact .absent
      · intro h
        have hnone := h.body
        rw [← hbody] at hnone
        generalize p.registers = registers, p.clusters = clusters at hnone ⊢
        cases hnone
        exact ⟨h.toReadsPeripheralHead, rfl, rfl⟩
  | some body =>
      rw [hchild, Option.map_some] at hbody
      have hclusters {clusters : List Cluster} :
          decodeAll "cluster" decodeClusterAt body = .ok clusters ↔
            List.Forall₂ ReadsCluster (tagged body.element "cluster") clusters :=
        decodeAll_eq_ok_iff fun _ _ _ => decodeClusterAt_eq_ok_iff
      simp only [decodeClusters_eq_decodeAll, bind_eq_ok_iff, decodeRegisters_eq_ok_iff, hclusters,
        peripheralWith_eq_ok_iff]
      constructor
      · rintro ⟨registers, hr, clusters, hc, hhead, hregisters, hclusters⟩
        refine ⟨hhead, ?_⟩
        rw [← hbody, ← hregisters, ← hclusters]
        exact .present hr hc
      · intro h
        have hsome := h.body
        rw [← hbody] at hsome
        generalize p.registers = registers, p.clusters = clusters at hsome ⊢
        cases hsome with
        | present hr hc => exact ⟨_, hr, _, hc, h.toReadsPeripheralHead, rfl, rfl⟩

theorem decodeDevice_eq {root : Element} (hroot : root.hasTag "device" = true) :
    decodeDevice root = (do
      let name ← valueOf (.root root) .device (nameOf root)
      let properties ← valueOf (.root root) .device (propertiesOf root)
      let peripherals ←
        ((Located.root root).childrenWithin "peripherals" "peripheral").mapM decodePeripheral
      return { name, properties, peripherals, description := descriptionOf root }) := by
  simp only [decodeDevice, Located.childrenWithin, hroot, if_true]
  cases (Located.root root).child? "peripherals" <;> rfl

theorem hasTag_of_decodeDevice {root : Element} {device : Device}
    (h : decodeDevice root = .ok device) : root.hasTag "device" = true := by
  by_contra hroot
  simp only [decodeDevice, hroot] at h
  cases h

theorem decodeDevice_eq_ok_iff {root : Element} {device : Device} :
    decodeDevice root = .ok device ↔ ReadsDevice root device := by
  have hperipherals {peripherals : List Peripheral} :
      ((Located.root root).childrenWithin "peripherals" "peripheral").mapM decodePeripheral =
        .ok peripherals ↔
          List.Forall₂ ReadsPeripheral (contained root "peripherals" "peripheral") peripherals := by
    rw [mapM_eq_ok_iff]
    simp only [decodePeripheral_eq_ok_iff]
    exact Located.forall₂_childrenWithin_iff (l := .root root)
  constructor
  · intro h
    have hroot := hasTag_of_decodeDevice h
    simp only [decodeDevice_eq hroot, bind_eq_ok_iff, pure_eq_ok_iff, valueOf_eq_ok_iff,
      hperipherals] at h
    rcases h with ⟨name, hname, properties, hproperties, peripherals, hp, rfl⟩
    exact ⟨hroot, hname, rfl, hproperties, hp⟩
  · intro h
    simp only [decodeDevice_eq h.tag, bind_eq_ok_iff, pure_eq_ok_iff, valueOf_eq_ok_iff,
      hperipherals]
    exact ⟨_, h.name, _, h.properties, _, h.peripherals, by rw [h.description]⟩

end RegisterMap.Description
