import RegisterMap.Proofs.Description.Bits
import RegisterMap.Proofs.Description.Reading
import RegisterMap.Proofs.Description.Value
import RegisterMap.Proofs.Model.WellFormed
import RegisterMap.Proofs.Number.Numeral

/-!
# Plain descriptions

A plain description shows each value of a device in a child of its own: texts as
they are, numbers as plain numerals in any base, bit ranges by their ends.  In
which order the children of different tags stand is left open, and so is what else
stands between them.  A device that can be described is read from each of its
plain descriptions as it is.
-/

namespace RegisterMap.Description

open RegisterMap.Export (IsWord?)
open RegisterMap.Model RegisterMap.Number RegisterMap.Report.Outcome RegisterMap.Text
open RegisterMap.Xml

/-! ## Descriptions -/

/-- True of an element whose children with a tag show some values, one each, in their order. -/
abbrev ShowsAll {α : Type} (Shows : Element → α → Prop) (e : Element) (tag : String)
    (values : List α) : Prop :=
  List.Forall₂ Shows (tagged e tag) values

def ShowsText (e : Element) (text : String) : Prop :=
  e.children = [.text text]

def ShowsInteger (e : Element) (n : Int) : Prop :=
  ∃ text m, ShowsText e text ∧ Spells text m ∧ n = (m : Int)

def ShowsTruth (e : Element) : Bool → Prop
  | true => ShowsText e "true" ∨ ShowsText e "1"
  | false => ShowsText e "false" ∨ ShowsText e "0"

structure ShowsDimension (e : Element) (dimension : Option Dimension) : Prop where
  count : ShowsAll ShowsInteger e "dim" (dimension.bind (·.count)).toList
  stride : ShowsAll ShowsInteger e "dimIncrement" (dimension.bind (·.stride)).toList

structure ShowsProperties (e : Element) (properties : RegisterProperties) : Prop where
  size : ShowsAll ShowsInteger e "size" properties.size.toList
  access : ShowsAll ShowsText e "access" (properties.access.map Access.word).toList
  protection : ShowsAll ShowsText e "protection" (properties.protection.map Protection.word).toList
  resetValue : ShowsAll ShowsInteger e "resetValue" properties.resetValue.toList
  resetMask : ShowsAll ShowsInteger e "resetMask" properties.resetMask.toList

structure ShowsRange (e : Element) (bounds : Int × Int) : Prop where
  minimum : ShowsAll ShowsInteger e "minimum" [bounds.1]
  maximum : ShowsAll ShowsInteger e "maximum" [bounds.2]

/-- True of an element without a child for a truth value and without one in its place. -/
structure ShowsNoTruth (e : Element) (tag : String) (property : Property) : Prop where
  value : tagged e tag = []
  standIn : tagged e property.word = []

/-- How an element shows a write constraint: by a child of one of the three kinds. -/
inductive ShowsConstraint (e : Element) : WriteConstraint → Prop
  | writeAsRead {value : Bool} (h : ShowsAll ShowsTruth e "writeAsRead" [value]) :
      ShowsConstraint e (.writeAsRead value)
  | useEnumeratedValues {value : Bool} (hread : ShowsNoTruth e "writeAsRead" .writeAsRead)
      (h : ShowsAll ShowsTruth e "useEnumeratedValues" [value]) :
      ShowsConstraint e (.useEnumeratedValues value)
  | range {low high : Int} (hread : ShowsNoTruth e "writeAsRead" .writeAsRead)
      (huse : ShowsNoTruth e "useEnumeratedValues" .useEnumeratedValues)
      (h : ShowsAll ShowsRange e "range" [(low, high)]) :
      ShowsConstraint e (.range (some low) (some high))

structure ShowsField (e : Element) (f : Field) : Prop where
  name : ShowsAll ShowsText e "name" [f.name]
  description : ShowsAll ShowsText e "description" f.description.toList
  lsb : ShowsAll ShowsInteger e "lsb" [f.bits.lsb]
  msb : ShowsAll ShowsInteger e "msb" [f.bits.msb]
  access : ShowsAll ShowsText e "access" (f.access.map Access.word).toList
  dimension : ShowsDimension e f.dimension
  writeConstraint : ShowsAll ShowsConstraint e "writeConstraint" f.writeConstraint.toList

structure ShowsRegister (e : Element) (r : Register) : Prop where
  name : ShowsAll ShowsText e "name" [r.name]
  description : ShowsAll ShowsText e "description" r.description.toList
  addressOffset : ShowsAll ShowsInteger e "addressOffset" [r.addressOffset]
  dimension : ShowsDimension e r.dimension
  properties : ShowsProperties e r.properties
  writeConstraint : ShowsAll ShowsConstraint e "writeConstraint" r.writeConstraint.toList
  fields : ShowsAll (ShowsAll ShowsField · "field") e "fields" r.fields.toList

/-- What a cluster shows of itself.  The base of an alias is an attribute. -/
structure ShowsClusterHead (e : Element) (c : Cluster) : Prop where
  name : ShowsAll ShowsText e "name" [c.name]
  description : ShowsAll ShowsText e "description" c.description.toList
  addressOffset : ShowsAll ShowsInteger e "addressOffset" [c.addressOffset]
  derivedFrom : e.attribute? "derivedFrom" = c.derivedFrom
  dimension : ShowsDimension e c.dimension
  properties : ShowsProperties e c.properties

/-- The registers and the clusters of a cluster may be mixed among its children. -/
inductive ShowsCluster : Element → Cluster → Prop
  | intro {e : Element} {c : Cluster} (head : ShowsClusterHead e c)
      (registers : List.Forall₂ ShowsRegister (tagged e "register") (c.registers.getD []))
      (clusters : List.Forall₂ ShowsCluster (tagged e "cluster") (c.clusters.getD [])) :
      ShowsCluster e c

/-- How a peripheral shows its members, mixed or not, in one body.  Without members it has none. -/
inductive ShowsBody (e : Element) : Option (List Register) → Option (List Cluster) → Prop
  | absent (h : tagged e "registers" = []) : ShowsBody e none none
  | present {body : Element} {registers : List Register} {clusters : List Cluster}
      (h : tagged e "registers" = [body])
      (hregisters : ShowsAll ShowsRegister body "register" registers)
      (hclusters : ShowsAll ShowsCluster body "cluster" clusters) :
      ShowsBody e (some registers) (some clusters)

structure ShowsPeripheral (e : Element) (p : Peripheral) : Prop where
  name : ShowsAll ShowsText e "name" [p.name]
  description : ShowsAll ShowsText e "description" p.description.toList
  baseAddress : ShowsAll ShowsInteger e "baseAddress" [p.baseAddress]
  derivedFrom : e.attribute? "derivedFrom" = p.derivedFrom
  dimension : ShowsDimension e p.dimension
  properties : ShowsProperties e p.properties
  body : ShowsBody e p.registers p.clusters

/-- How a device shows its peripherals.  Without peripherals it may go without a body. -/
inductive ShowsPeripherals (root : Element) : List Peripheral → Prop
  | absent (h : tagged root "peripherals" = []) : ShowsPeripherals root []
  | present {body : Element} {peripherals : List Peripheral}
      (h : tagged root "peripherals" = [body])
      (hperipherals : ShowsAll ShowsPeripheral body "peripheral" peripherals) :
      ShowsPeripherals root peripherals

/-- True of a plain description of a device. -/
structure ShowsDevice (root : Element) (device : Device) : Prop where
  tag : root.hasTag "device" = true
  name : ShowsAll ShowsText root "name" [device.name]
  description : ShowsAll ShowsText root "description" device.description.toList
  properties : ShowsProperties root device.properties
  peripherals : ShowsPeripherals root device.peripherals

/-! ## Values -/

section

variable {e : Element} {tag : String} {α : Type} {R : Element → α → Prop}

theorem rel_child?_of_showsAll {value : Option α} (h : ShowsAll R e tag value.toList) :
    Option.Rel R (e.child? tag) value := by
  rw [child?_eq_head?]
  unfold ShowsAll at h
  generalize tagged e tag = children at h ⊢
  cases value with
  | none =>
      cases h
      exact .none
  | some a =>
      cases h with
      | cons hchild _ => exact .some hchild

theorem exists_child_of_showsAll {a : α} (h : ShowsAll R e tag [a]) :
    ∃ child, e.child? tag = some child ∧ R child a := by
  have hrel : Option.Rel R (e.child? tag) (some a) := rel_child?_of_showsAll h
  generalize e.child? tag = child at hrel ⊢
  cases hrel with
  | some hchild => exact ⟨_, rfl, hchild⟩

theorem child?_of_tagged_nil (h : tagged e tag = []) : e.child? tag = none := by
  rw [child?_eq_head?, h, List.head?_nil]

theorem ShowsText.text?_eq {text : String} (h : ShowsText e text) : e.text? = some text := by
  unfold ShowsText at h
  have htake : e.children.takeWhile Node.isText = [.text text] := by
    rw [h]
    rfl
  simp [Element.text?, htake, Node.text?, String.join]

theorem nameOf_of_shows {name : String} (h : ShowsAll ShowsText e "name" [name])
    (hname : IsTrimmed name) : nameOf e = .ok name := by
  rcases exists_child_of_showsAll h with ⟨child, hchild, htext⟩
  refine nameOf_eq_ok_iff.mpr ⟨child, hchild, ?_, hname⟩
  rw [htext.text?_eq, Option.getD_some, trim_of_isTrimmed hname]

theorem descriptionOf_of_shows {description : Option String}
    (h : ShowsAll ShowsText e "description" description.toList)
    (hdescription : ∀ text ∈ description, IsTrimmed text) : descriptionOf e = description := by
  cases description with
  | none => rw [descriptionOf, child?_of_tagged_nil (List.forall₂_nil_right_iff.mp h)]
  | some text =>
      have htrimmed := hdescription text rfl
      rcases exists_child_of_showsAll h with ⟨child, hchild, htext⟩
      refine descriptionOf_eq_some_iff.mpr ⟨child, hchild, ?_, htrimmed⟩
      rw [htext.text?_eq, Option.getD_some, trim_of_isTrimmed htrimmed]

theorem derivedFromOf_of_shows {base : Option String} (h : e.attribute? "derivedFrom" = base)
    (hbase : ∀ text ∈ base, IsTrimmed text) : derivedFromOf e = .ok base := by
  rw [derivedFromOf_eq_ok_iff, h]
  cases base with
  | none => exact .none
  | some text => exact .some ⟨trim_of_isTrimmed (hbase text rfl), hbase text rfl⟩

theorem ShowsInteger.givesInteger {child : Element} {n : Int} (h : ShowsInteger child n)
    (hword : isWord n = true) : GivesInteger child n := by
  rcases h with ⟨text, m, htext, hspells, rfl⟩
  simp only [isWord, Bool.and_eq_true, decide_eq_true_eq] at hword
  exact .text htext.text?_eq (readScaled_of_spells hspells (by omega))

theorem integer?_of_shows {property : Property} {n? : Option Int}
    (h : ShowsAll ShowsInteger e tag n?.toList) (hword : IsWord? n?) :
    integer? e tag property = .ok n? := by
  have hrel := rel_child?_of_showsAll h
  generalize hchild : e.child? tag = child at hrel
  cases hrel with
  | none => exact integer?_eq_ok_none_iff.mpr hchild
  | some hn =>
      exact integer?_eq_some_iff.mpr ⟨_, hchild, .inl (hn.givesInteger (hword _ rfl))⟩

theorem integer_of_shows {property : Property} {n : Int} (h : ShowsAll ShowsInteger e tag [n])
    (hword : isWord n = true) : integer e tag property = .ok n := by
  rcases exists_child_of_showsAll h with ⟨child, hchild, hn⟩
  exact integer_eq_ok_iff.mpr (.inl ⟨child, hchild, hn.givesInteger hword⟩)

theorem word?_of_shows {word : α → String} {ofWord? : String → Option α}
    (hword : ∀ a, ofWord? (trim (word a)) = some a) {value : Option α}
    (h : ShowsAll ShowsText e tag (value.map word).toList) :
    word? e tag ofWord? = .ok value := by
  have hrel := rel_child?_of_showsAll h
  unfold word?
  generalize e.child? tag = child at hrel ⊢
  cases value with
  | none =>
      cases hrel
      rfl
  | some a =>
      cases hrel with
      | some htext => simp only [htext.text?_eq, Option.getD_some, hword]

theorem ofWord?_word_access (access : Access) :
    Access.ofWord? (trim access.word) = some access := by
  cases access <;> decide +kernel

theorem ofWord?_word_protection (protection : Protection) :
    Protection.ofWord? (trim protection.word) = some protection := by
  cases protection <;> decide +kernel

theorem truthIn?_of_shows {property : Property} {value : Bool}
    (h : ShowsAll ShowsTruth e tag [value]) : truthIn? e tag property = some value := by
  rcases exists_child_of_showsAll h with ⟨child, hchild, hvalue⟩
  simp only [truthIn?, hchild]
  cases value <;> rcases hvalue with htext | htext <;> rw [htext.text?_eq] <;> rfl

theorem ShowsNoTruth.truthIn?_eq {property : Property} (h : ShowsNoTruth e tag property) :
    truthIn? e tag property = none := by
  simp only [truthIn?, child?_of_tagged_nil h.value, child?_of_tagged_nil h.standIn,
    Option.map_none]

theorem boundOf_of_shows {bound : Property} {n : Int} (h : ShowsAll ShowsInteger e bound.word [n])
    (hword : isWord n = true) : boundOf e bound = .ok (some n) := by
  rcases exists_child_of_showsAll h with ⟨child, hchild, hn⟩
  have hread : integerOf child bound.word = .ok n :=
    integerOf_eq_ok_iff.mpr (hn.givesInteger hword)
  simp only [boundOf, hchild, hread]
  rfl

end

variable {e : Element}

theorem ShowsProperties.propertiesOf_eq {properties : RegisterProperties}
    (h : ShowsProperties e properties) (hform : properties.WellFormed) :
    propertiesOf e = .ok properties := by
  have haccess : accessOf e = .ok properties.access := word?_of_shows ofWord?_word_access h.access
  simp only [propertiesOf, integer?_of_shows h.size hform.size, haccess,
    word?_of_shows ofWord?_word_protection h.protection,
    integer?_of_shows h.resetValue hform.resetValue, integer?_of_shows h.resetMask hform.resetMask]
  rfl

theorem ShowsDimension.dimensionOf_eq {dimension : Option Dimension}
    (h : ShowsDimension e dimension) (hform : ∀ d ∈ dimension, d.WellFormed) :
    dimensionOf e = .ok dimension := by
  rcases dimension with _ | ⟨_ | count, stride⟩
  · have hcount : integer? e "dim" .count = .ok none := integer?_of_shows h.count nofun
    rw [dimensionOf, hcount]
    rfl
  · exact absurd (hform _ rfl).counted (by simp)
  · have hcount : integer? e "dim" .count = .ok (some count) :=
      integer?_of_shows h.count (hform _ rfl).count
    have hstride : integer? e "dimIncrement" .stride = .ok stride :=
      integer?_of_shows h.stride (hform _ rfl).stride
    rw [dimensionOf, hcount]
    simp only [bind, Except.bind, hstride]
    rfl

theorem ShowsConstraint.reads {constraint : WriteConstraint} (h : ShowsConstraint e constraint)
    (hbounded : constraint.Bounded) : ReadsConstraint e constraint := by
  unfold ReadsConstraint constraintIn?
  cases h with
  | writeAsRead h => rw [truthIn?_of_shows h]; rfl
  | useEnumeratedValues hread h =>
      rw [hread.truthIn?_eq, truthIn?_of_shows h]; rfl
  | range hread huse h =>
      rcases exists_child_of_showsAll h with ⟨range, hrange, hmin, hmax⟩
      cases hbounded with
      | range hlow hhigh =>
          rw [hread.truthIn?_eq, huse.truthIn?_eq, hrange]
          have hlow : boundOf range .minimum = .ok (some _) := boundOf_of_shows hmin hlow
          have hhigh : boundOf range .maximum = .ok (some _) := boundOf_of_shows hmax hhigh
          simp only [hlow, hhigh]
          rfl

/-! ## Items -/

theorem rel_constraint_of_shows {constraint : Option WriteConstraint}
    (h : ShowsAll ShowsConstraint e "writeConstraint" constraint.toList)
    (hbounded : ∀ c ∈ constraint, c.Bounded) :
    Option.Rel ReadsConstraint (e.child? "writeConstraint") constraint := by
  have hrel := rel_child?_of_showsAll h
  generalize e.child? "writeConstraint" = child at hrel ⊢
  cases hrel with
  | none => exact .none
  | some hconstraint => exact .some (hconstraint.reads (hbounded _ rfl))

theorem ShowsField.reads {f : Field} (h : ShowsField e f)
    (hf : (Item.field f).Describable) : ReadsField e f where
  name := nameOf_of_shows h.name hf.name
  description := descriptionOf_of_shows h.description hf.description
  bits := by
    have hbits : WritesBits e f.bits :=
      .ends (integer?_of_shows h.lsb (isWord?_some (hf.lsb _ rfl)))
        (integer?_of_shows h.msb (isWord?_some (hf.msb _ rfl))) (hf.bits _ rfl).ordered
    exact bitsOf_eq_ok_iff.mpr (.written hbits)
  access := word?_of_shows ofWord?_word_access h.access
  dimension := h.dimension.dimensionOf_eq hf.dimension
  writeConstraint := rel_constraint_of_shows h.writeConstraint hf.bounds

theorem ShowsRegister.reads {r : Register} (h : ShowsRegister e r)
    (hr : ∀ i ∈ r.items, i.Describable) : ReadsRegister e r := by
  rw [Register.forall_items_iff] at hr
  rcases hr with ⟨hfields, hr⟩
  refine {
    name := nameOf_of_shows h.name hr.name
    description := descriptionOf_of_shows h.description hr.description
    addressOffset := integer_of_shows h.addressOffset (hr.address _ rfl)
    dimension := h.dimension.dimensionOf_eq hr.dimension
    properties := h.properties.propertiesOf_eq hr.properties
    writeConstraint := rel_constraint_of_shows h.writeConstraint hr.bounds
    fields := ?_ }
  have hrel := rel_child?_of_showsAll h.fields
  generalize e.child? "fields" = container, r.fields = fields at hrel hfields ⊢
  cases hrel with
  | none => exact .none
  | some hshows =>
      exact .some (forall₂_imp_of_mem hshows fun _ _ f hf hshown => hshown.reads (hfields f hf))

theorem forall₂_registers_of_shows {es : List Element} {registers : List Register}
    (h : List.Forall₂ ShowsRegister es registers)
    (hregisters : ∀ r ∈ registers, ∀ i ∈ r.items, i.Describable) :
    List.Forall₂ ReadsRegister es registers :=
  forall₂_imp_of_mem h fun _ _ r hr hshown => hshown.reads (hregisters r hr)

theorem ShowsCluster.reads {e : Element} {c : Cluster} (h : ShowsCluster e c)
    (hc : ∀ i ∈ c.items, i.Describable) : ReadsCluster e c := by
  rw [Cluster.forall_items_iff] at hc
  rcases hc with ⟨⟨hregisters, hclusters⟩, hc⟩
  cases h with
  | intro head registers clusters =>
      refine .intro {
        name := nameOf_of_shows head.name hc.name
        description := descriptionOf_of_shows head.description hc.description
        addressOffset := integer_of_shows head.addressOffset (hc.address _ rfl)
        derivedFrom := derivedFromOf_of_shows head.derivedFrom hc.derivedFrom
        dimension := head.dimension.dimensionOf_eq hc.dimension
        properties := head.properties.propertiesOf_eq hc.properties
        registers_ne := hc.members.1
        clusters_ne := hc.members.2 } (forall₂_registers_of_shows registers hregisters) ?_
      -- The induction is on the element: each cluster in it is one of its children.
      apply forall₂_imp_of_mem clusters
      intro child hchild d hd hshown
      have hlt := sizeOf_lt_of_mem_tagged hchild
      exact hshown.reads (hclusters d hd)
termination_by sizeOf e

theorem ShowsBody.reads {registers : Option (List Register)} {clusters : Option (List Cluster)}
    (h : ShowsBody e registers clusters)
    (hregisters : ∀ r ∈ registers.getD [], ∀ i ∈ r.items, i.Describable)
    (hclusters : ∀ c ∈ clusters.getD [], ∀ i ∈ c.items, i.Describable) :
    ReadsBody (e.child? "registers") registers clusters := by
  cases h with
  | absent h =>
      rw [child?_of_tagged_nil h]
      exact .absent
  | present h hr hc =>
      rw [child?_eq_head?, h]
      refine .present (forall₂_registers_of_shows hr hregisters) ?_
      exact forall₂_imp_of_mem hc fun _ _ c hc hshown => hshown.reads (hclusters c hc)

theorem ShowsPeripheral.reads {p : Peripheral} (h : ShowsPeripheral e p)
    (hp : ∀ i ∈ p.items, i.Describable) : ReadsPeripheral e p := by
  rw [Peripheral.forall_items_iff] at hp
  rcases hp with ⟨⟨hregisters, hclusters⟩, hp⟩
  exact {
    name := nameOf_of_shows h.name hp.name
    description := descriptionOf_of_shows h.description hp.description
    baseAddress := integer_of_shows h.baseAddress (hp.address _ rfl)
    derivedFrom := derivedFromOf_of_shows h.derivedFrom hp.derivedFrom
    dimension := h.dimension.dimensionOf_eq hp.dimension
    properties := h.properties.propertiesOf_eq hp.properties
    body := h.body.reads hregisters hclusters }

theorem ShowsPeripherals.reads {root : Element} {peripherals : List Peripheral}
    (h : ShowsPeripherals root peripherals)
    (hperipherals : ∀ p ∈ peripherals, ∀ i ∈ p.items, i.Describable) :
    List.Forall₂ ReadsPeripheral (contained root "peripherals" "peripheral") peripherals := by
  unfold contained
  cases h with
  | absent h =>
      rw [child?_of_tagged_nil h]
      exact .nil
  | present h hshows =>
      rw [child?_eq_head?, h]
      exact forall₂_imp_of_mem hshows fun _ _ p hp hshown => hshown.reads (hperipherals p hp)

/-- A device that can be described is read from each of its plain descriptions as it is. -/
theorem ShowsDevice.reads {root : Element} {device : Device} (h : ShowsDevice root device)
    (hdevice : device.Describable) : ReadsDevice root device := by
  rw [Device.Describable, Device.forall_items_iff] at hdevice
  rcases hdevice with ⟨hself, hperipherals⟩
  exact {
    tag := h.tag
    name := nameOf_of_shows h.name hself.name
    description := descriptionOf_of_shows h.description hself.description
    properties := h.properties.propertiesOf_eq hself.properties
    peripherals := h.peripherals.reads hperipherals }

end RegisterMap.Description
