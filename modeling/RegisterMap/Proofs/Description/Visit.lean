import RegisterMap.Proofs.Description.Reading
import RegisterMap.Proofs.Model.Item

/-!
# Visited elements

The elements of a description that are decoded, in the order in which their own
values are read: those of the device before the peripherals, those of every other
element behind the elements in it, registers before clusters.  A decoded device
has one item for each of them, in the same order.
-/

namespace RegisterMap.Description

open RegisterMap.Model RegisterMap.Xml

/-- An element that is decoded, and the kind of value that it is decoded to. -/
structure Visit where
  shape : Shape
  place : Located

/-! ## Order -/

def registerVisits (l : Located) : List Visit :=
  (l.childrenWithin "fields" "field").map (Visit.mk .field) ++ [⟨.register, l⟩]

mutual

/-- The visits of a cluster with a chain that starts at it. -/
def clusterVisits (chain : List Link) : Element → List Visit
  | .mk name attributes line children =>
      let l : Located := ⟨.mk name attributes line children, chain⟩
      (l.childrenNamed "register").flatMap registerVisits ++ clustersVisits chain 0 children ++
        [⟨.cluster, l⟩]

/-- The visits of the clusters among some nodes, which start at some place below a chain. -/
def clustersVisits (chain : List Link) : Nat → List Node → List Visit
  | _, [] => []
  | i, .text _ :: nodes => clustersVisits chain i nodes
  | i, .instruction :: nodes => clustersVisits chain (i + 1) nodes
  | i, .element e :: nodes =>
      if e.hasTag "cluster" then
        clusterVisits (.ofElement (some i) e :: chain) e ++ clustersVisits chain (i + 1) nodes
      else clustersVisits chain (i + 1) nodes

end

def clusterVisitsAt (l : Located) : List Visit :=
  clusterVisits l.chain l.element

def peripheralVisits (l : Located) : List Visit :=
  (l.childrenWithin "registers" "register").flatMap registerVisits ++
    (l.childrenWithin "registers" "cluster").flatMap clusterVisitsAt ++ [⟨.peripheral, l⟩]

def visits (root : Element) : List Visit :=
  ⟨.device, .root root⟩ ::
    ((Located.root root).childrenWithin "peripherals" "peripheral").flatMap peripheralVisits

theorem clustersVisits_eq_flatMap (chain : List Link) (i : Nat) (nodes : List Node) :
    clustersVisits chain i nodes =
      ((Located.childrenFrom chain i nodes).filter (·.element.hasTag "cluster")).flatMap
        clusterVisitsAt := by
  induction nodes generalizing i with
  | nil => rfl
  | cons node nodes ih =>
      cases node with
      | text content => exact ih i
      | instruction => exact ih (i + 1)
      | element e =>
          simp only [clustersVisits, Located.childrenFrom, List.filter_cons, ih]
          by_cases h : e.hasTag "cluster" = true
          · rw [if_pos h, if_pos h, List.flatMap_cons, clusterVisitsAt]
          · rw [if_neg h, if_neg h]

theorem clusterVisitsAt_eq (l : Located) :
    clusterVisitsAt l = (l.childrenNamed "register").flatMap registerVisits ++
      (l.childrenNamed "cluster").flatMap clusterVisitsAt ++ [⟨.cluster, l⟩] := by
  rcases l with ⟨⟨name, attributes, line, children⟩, chain⟩
  rw [clusterVisitsAt, clusterVisits, clustersVisits_eq_flatMap]
  rfl

/-! ## Items -/

/-- True of a visited element and the item that it is read as. -/
inductive ReadsItem : Visit → Item → Prop
  | device {l : Located} {device : Device} (h : ReadsDevice l.element device) :
      ReadsItem ⟨.device, l⟩ (.device device)
  | peripheral {l : Located} {p : Peripheral} (h : ReadsPeripheral l.element p) :
      ReadsItem ⟨.peripheral, l⟩ (.peripheral p)
  | cluster {l : Located} {c : Cluster} (h : ReadsCluster l.element c) :
      ReadsItem ⟨.cluster, l⟩ (.cluster c)
  | register {l : Located} {r : Register} (h : ReadsRegister l.element r) :
      ReadsItem ⟨.register, l⟩ (.register r)
  | field {l : Located} {f : Field} (h : ReadsField l.element f) :
      ReadsItem ⟨.field, l⟩ (.field f)

/-- True of visits and items that belong together one by one. -/
abbrev ReadsItems : List Visit → List Item → Prop := List.Forall₂ ReadsItem

theorem ReadsRegister.items {l : Located} {r : Register} (h : ReadsRegister l.element r) :
    ReadsItems (registerVisits l) r.items := by
  have hfields : List.Forall₂ ReadsField (contained l.element "fields" "field")
      (r.fields.getD []) := by
    have hrel := h.fields
    unfold contained
    generalize l.element.child? "fields" = container, r.fields = fields at hrel ⊢
    cases hrel with
    | none => exact .nil
    | some hfields => exact hfields
  apply List.rel_append
  · rw [List.forall₂_map_left_iff, List.forall₂_map_right_iff]
    exact (Located.forall₂_childrenWithin_iff.mpr hfields).imp fun _ _ => .field
  · exact .cons (.register h) .nil

theorem readsItems_registers {children : List Located} {registers : List Register}
    (h : List.Forall₂ (fun child r => ReadsRegister child.element r) children registers) :
    ReadsItems (children.flatMap registerVisits) (registers.flatMap Register.items) :=
  List.rel_flatMap h fun _ _ => ReadsRegister.items

theorem ReadsCluster.items {l : Located} {c : Cluster} (h : ReadsCluster l.element c) :
    ReadsItems (clusterVisitsAt l) c.items := by
  induction l using Located.cluster_induction generalizing c with
  | h l ih =>
      rw [clusterVisitsAt_eq, c.items_eq]
      have hclusters := Located.forall₂_childrenNamed_iff.mpr h.clusters
      apply List.rel_append (List.rel_append _ _)
      · exact .cons (.cluster h) .nil
      · exact readsItems_registers (Located.forall₂_childrenNamed_iff.mpr h.registers)
      · exact List.rel_flatMap ((List.forall₂_and_left _ _).mpr ⟨ih, hclusters⟩)
          fun child d hd => hd.1 hd.2

theorem ReadsPeripheral.items {l : Located} {p : Peripheral} (h : ReadsPeripheral l.element p) :
    ReadsItems (peripheralVisits l) p.items := by
  have hmembers : List.Forall₂ ReadsRegister (contained l.element "registers" "register")
      (p.registers.getD []) ∧ List.Forall₂ ReadsCluster
        (contained l.element "registers" "cluster") (p.clusters.getD []) := by
    have hbody := h.body
    unfold contained
    generalize l.element.child? "registers" = body, p.registers = registers,
      p.clusters = clusters at hbody ⊢
    cases hbody with
    | absent => exact ⟨.nil, .nil⟩
    | present hregisters hclusters => exact ⟨hregisters, hclusters⟩
  rcases hmembers with ⟨hregisters, hclusters⟩
  apply List.rel_append (List.rel_append _ _)
  · exact .cons (.peripheral h) .nil
  · exact readsItems_registers (Located.forall₂_childrenWithin_iff.mpr hregisters)
  · exact List.rel_flatMap (Located.forall₂_childrenWithin_iff.mpr hclusters)
      fun _ _ => ReadsCluster.items

/-- A device that is read has an item for each visited element, in the order of the visits. -/
theorem ReadsDevice.items {root : Element} {device : Device} (h : ReadsDevice root device) :
    ReadsItems (visits root) device.items := by
  apply List.Forall₂.cons (.device h)
  exact List.rel_flatMap (Located.forall₂_childrenWithin_iff (l := .root root) |>.mpr h.peripherals)
    fun _ _ => ReadsPeripheral.items

end RegisterMap.Description
