import RegisterMap.Proofs.Description.Bits
import RegisterMap.Proofs.Description.Value
import RegisterMap.Proofs.Description.Visit
import RegisterMap.Proofs.Model.WellFormed

/-!
# Well-formed devices

What holds of decoded devices.  Their names and descriptions are trimmed, and their
lists of members are there or absent as the kind of the item wants it.  If no child
stands in for a value, their numbers are words, their bit ranges are ordered and their
dimensions have a count.
-/

namespace RegisterMap.Description

open RegisterMap.Export (IsWord?)
open RegisterMap.Model RegisterMap.Number RegisterMap.Report.Outcome RegisterMap.Text
open RegisterMap.Xml

/-! ## Values -/

theorem isTrimmed_of_nameOf {e : Element} {name : String} (h : nameOf e = .ok name) :
    IsTrimmed name := by
  rcases nameOf_eq_ok_iff.mp h with ⟨_, _, _, hname⟩
  exact hname

theorem isTrimmed_of_descriptionOf {e : Element} {description : String}
    (h : descriptionOf e = some description) : IsTrimmed description := by
  rcases descriptionOf_eq_some_iff.mp h with ⟨_, _, _, hdescription⟩
  exact hdescription

theorem isTrimmed_of_derivedFromOf {e : Element} {base : String}
    (h : derivedFromOf e = .ok (some base)) : IsTrimmed base := by
  have hrel := derivedFromOf_eq_ok_iff.mp h
  generalize e.attribute? "derivedFrom" = value at hrel
  cases hrel with
  | some hbase => exact hbase.2

namespace HoldsNoStandIn

variable {e : Element}

theorem wellFormed_dimensionOf (h : HoldsNoStandIn e) {dimension : Option Dimension}
    (hread : dimensionOf e = .ok dimension) : ∀ d ∈ dimension, d.WellFormed := by
  intro d hd
  rw [dimensionOf, orStandIn_eq_ok_iff_of_none (h.own .dimension (by decide)), bind_eq_ok_iff]
    at hread
  rcases hread with ⟨_ | count, hcount, hread⟩
  · cases hread
    cases hd
  · rcases bind_eq_ok_iff.mp hread with ⟨stride, hstride, hread⟩
    cases hread
    cases hd
    exact ⟨rfl, h.isWord?_integer? (by decide) hcount, h.isWord?_integer? (by decide) hstride⟩

theorem wellFormed_propertiesOf (h : HoldsNoStandIn e) {properties : RegisterProperties}
    (hread : propertiesOf e = .ok properties) : properties.WellFormed := by
  rw [propertiesOf, orStandIn_eq_ok_iff_of_none (h.own .registerProperties (by decide))] at hread
  simp only [bind_eq_ok_iff, pure_eq_ok_iff] at hread
  rcases hread with ⟨size, hsize, _, _, _, _, value, hvalue, mask, hmask, rfl⟩
  exact ⟨h.isWord?_integer? (by decide) hsize, h.isWord?_integer? (by decide) hvalue,
    h.isWord?_integer? (by decide) hmask⟩

theorem wellFormed_bitsOf (h : HoldsNoStandIn e) {bits : BitRange}
    (hread : bitsOf e = .ok bits) : bits.WellFormed := by
  cases h.writesBits hread with
  | ends hlsb hmsb hle => exact ⟨h.isWord?_integer? (by decide) hlsb _ rfl, hle⟩
  | span hends hlsb hwidth hle => exact ⟨h.isWord?_integer? (by decide) hlsb _ rfl, hle⟩
  | brackets hends hlsb hchild hbits =>
      rcases words_of_readBitRange hbits with ⟨hlsb, -, hle⟩
      exact ⟨hlsb, hle⟩

end HoldsNoStandIn

/-! ## Items -/

theorem ReadsBody.isSome_eq {body : Option Element} {registers : Option (List Register)}
    {clusters : Option (List Cluster)} (h : ReadsBody body registers clusters) :
    registers.isSome = clusters.isSome := by
  cases h <;> rfl

/-- The texts and the lists of an item are as they should be, whatever stands in for its numbers. -/
theorem ReadsItem.labelled {v : Visit} {i : Item} (h : ReadsItem v i) : i.Labelled := by
  cases h with
  | device h =>
      exact {
        name := isTrimmed_of_nameOf h.name
        description := fun _ hd => isTrimmed_of_descriptionOf (h.description.trans hd)
        derivedFrom := nofun
        members := trivial }
  | peripheral h =>
      exact {
        name := isTrimmed_of_nameOf h.name
        description := fun _ hd => isTrimmed_of_descriptionOf (h.description.trans hd)
        derivedFrom := fun _ hb => isTrimmed_of_derivedFromOf (h.derivedFrom.trans (congrArg _ hb))
        members := h.body.isSome_eq }
  | cluster h =>
      have hhead := h.head
      exact {
        name := isTrimmed_of_nameOf hhead.name
        description := fun _ hd => isTrimmed_of_descriptionOf (hhead.description.trans hd)
        derivedFrom := fun _ hb =>
          isTrimmed_of_derivedFromOf (hhead.derivedFrom.trans (congrArg _ hb))
        members := ⟨hhead.registers_ne, hhead.clusters_ne⟩ }
  | register h =>
      exact {
        name := isTrimmed_of_nameOf h.name
        description := fun _ hd => isTrimmed_of_descriptionOf (h.description.trans hd)
        derivedFrom := nofun
        members := trivial }
  | field h =>
      exact {
        name := isTrimmed_of_nameOf h.name
        description := fun _ hd => isTrimmed_of_descriptionOf (h.description.trans hd)
        derivedFrom := nofun
        members := trivial }

theorem ReadsItem.wellFormed {v : Visit} {i : Item} (h : ReadsItem v i)
    (hplain : HoldsNoStandIn v.place.element) : i.WellFormed := by
  refine Item.wellFormed_of_labelled h.labelled ?_ ?_ ?_ ?_
  · cases h with
    | device h => exact nofun
    | peripheral h => exact isWord?_some (hplain.isWord_integer (by decide) h.baseAddress)
    | cluster h => exact isWord?_some (hplain.isWord_integer (by decide) h.head.addressOffset)
    | register h => exact isWord?_some (hplain.isWord_integer (by decide) h.addressOffset)
    | field h => exact nofun
  · cases h with
    | field h =>
        rintro _ ⟨⟩
        exact hplain.wellFormed_bitsOf h.bits
    | _ => exact nofun
  · cases h with
    | device h => exact nofun
    | peripheral h => exact hplain.wellFormed_dimensionOf h.dimension
    | cluster h => exact hplain.wellFormed_dimensionOf h.head.dimension
    | register h => exact hplain.wellFormed_dimensionOf h.dimension
    | field h => exact hplain.wellFormed_dimensionOf h.dimension
  · cases h with
    | device h => exact hplain.wellFormed_propertiesOf h.properties
    | peripheral h => exact hplain.wellFormed_propertiesOf h.properties
    | cluster h => exact hplain.wellFormed_propertiesOf h.head.properties
    | register h => exact hplain.wellFormed_propertiesOf h.properties
    | field h => exact RegisterProperties.wellFormed_empty

/-! ## Devices -/

theorem ReadsDevice.labelled {root : Element} {device : Device} (h : ReadsDevice root device) :
    ∀ i ∈ device.items, i.Labelled := by
  intro i hi
  rcases exists_mem_left h.items hi with ⟨v, -, hv⟩
  exact hv.labelled

theorem ReadsDevice.wellFormed {root : Element} {device : Device} (h : ReadsDevice root device)
    (hplain : ∀ v ∈ visits root, HoldsNoStandIn v.place.element) : device.WellFormed := by
  intro i hi
  rcases exists_mem_left h.items hi with ⟨v, hmem, hv⟩
  exact hv.wellFormed (hplain v hmem)

/--
A decoded device is what its document is read as: each list in it holds what the elements
of the document are read as, in their order.  Its texts and its lists are well-formed, and
so is all of it unless a child stands in for a value somewhere.
-/
theorem decodeDevice_wellFormed {root : Element} {device : Device}
    (h : decodeDevice root = .ok device) :
    ((∀ v ∈ visits root, HoldsNoStandIn v.place.element) → device.WellFormed) ∧
      (∀ i ∈ device.items, i.Labelled) ∧ ReadsDevice root device := by
  have hreads := decodeDevice_eq_ok_iff.mp h
  exact ⟨hreads.wellFormed, hreads.labelled, hreads⟩

/-! ### A port with blanks around its texts -/

def pinNode : Node :=
  groupNode "field" [textNode "name" " PIN%s ", textNode "bitRange" "[ 3 : 0x0 ]",
    textNode "dim" "#1000"]

def outputNode : Node :=
  groupNode "register" [textNode "name" "OUT", textNode "addressOffset" "0x504",
    textNode "description" "  ", groupNode "fields" [pinNode]]

def latchNode : Node :=
  .element (.mk ⟨none, "cluster"⟩ [⟨⟨none, "derivedFrom"⟩, " LATCH "⟩] 1
    [textNode "name" "SHADOW", textNode "addressOffset" "0x10"])

def portElement : Element :=
  deviceDocument "Chip"
    [groupNode "peripheral" [textNode "name" "PORT", textNode "baseAddress" "0x5000_0000",
      textNode "description" " All pins. ", groupNode "registers" [latchNode, outputNode]]]

def portDevice : Device where
  name := "Chip"
  peripherals := [{
    name := "PORT"
    baseAddress := 0x50000000
    description := some "All pins."
    registers := some [{
      name := "OUT"
      addressOffset := 0x504
      fields := some [{ name := "PIN%s", bits := ⟨0, 3⟩, dimension := some ⟨some 8, none⟩ }] }]
    clusters := some [{ name := "SHADOW", addressOffset := 0x10, derivedFrom := some "LATCH" }] }]

theorem decodeDevice_wellFormed_port :
    decodeDevice portElement = .ok portDevice ∧
      (∀ v ∈ visits portElement, HoldsNoStandIn v.place.element) ∧ portDevice.WellFormed ∧
      ReadsDevice portElement portDevice := by
  have hdecode : decodeDevice portElement = .ok portDevice := rfl
  have hplain : ∀ v ∈ visits portElement, HoldsNoStandIn v.place.element := by decide
  rcases decodeDevice_wellFormed hdecode with ⟨hformed, -, hreads⟩
  exact ⟨hdecode, hplain, hformed hplain, hreads⟩

/-! ### A register below its block -/

/-- A port whose register has no offset but a child that is named like one. -/
def belowPort : Element :=
  .mk ⟨none, "peripheral"⟩ [⟨⟨none, "derivedFrom"⟩, "BASE"⟩] 1
    [textNode "name" "PORT", textNode "baseAddress" "0x2000",
      groupNode "registers" [groupNode "register" [textNode "name" "OUT", textNode "offset" "-5"]]]

def belowDocument : Element :=
  deviceDocument "Chip"
    [groupNode "peripheral" [textNode "name" "BASE", textNode "baseAddress" "0x1000"],
      .element belowPort]

def belowRegister : Register where
  name := "OUT"
  addressOffset := -5

def belowDevice : Device where
  name := "Chip"
  peripherals := [
    { name := "BASE", baseAddress := 0x1000 },
    { name := "PORT"
      baseAddress := 0x2000
      derivedFrom := some "BASE"
      registers := some [belowRegister]
      clusters := some [] }]

/-- What stands in for an offset is taken for one even if it is negative. -/
theorem decodeDevice_standIn_negative :
    decodeDevice belowDocument = .ok belowDevice ∧ ¬belowDevice.WellFormed := by
  refine ⟨rfl, fun h => ?_⟩
  have hmem : Item.register belowRegister ∈ belowDevice.items := by
    simp [Device.items, belowDevice, Peripheral.items, Register.items]
  exact absurd ((h _ hmem).address _ rfl) (by decide)

end RegisterMap.Description
