import RegisterMap.Proofs.Derivation.Bare
import RegisterMap.Proofs.Export.Outcome

/-!
# Exports without descriptions

What is declared, where it is declared and whether all addresses fit is the same for a
device and for what is left of it without descriptions.
-/

namespace RegisterMap.Export

open RegisterMap.Derivation RegisterMap.Model RegisterMap.Number RegisterMap.Report
open RegisterMap.Swift

/-! ## Elements -/

def Member.bare : Member → Member
  | .register r => .register r.bare
  | .cluster c => .cluster c.bare

def Element.bare : Element → Element
  | .peripheral p => .peripheral p.bare
  | .member m => .member m.bare

theorem membersOf_bare (registers : Option (List Register)) (clusters : Option (List Cluster)) :
    membersOf (registers.map (·.map Register.bare)) (clusters.map (·.map Cluster.bare)) =
      (membersOf registers clusters).map Member.bare := by
  simp only [membersOf, getD_map_map, List.map_append, List.map_map]
  rfl

namespace Element

@[simp] theorem name_bare (e : Element) : e.bare.name = e.name := by
  match e with
  | .peripheral _ => rfl
  | .member (.register _) => rfl
  | .member (.cluster c) => exact c.bare_name

@[simp] theorem typeName_bare (e : Element) : e.bare.typeName = e.typeName := by
  rw [typeName, typeName, name_bare]

@[simp] theorem properties_bare (e : Element) : e.bare.properties = e.properties := by
  match e with
  | .peripheral _ => rfl
  | .member (.register _) => rfl
  | .member (.cluster c) => exact c.bare_properties

@[simp] theorem offset_bare (e : Element) : e.bare.offset = e.offset := by
  match e with
  | .peripheral _ => rfl
  | .member (.register _) => rfl
  | .member (.cluster c) => exact c.bare_addressOffset

@[simp] theorem derivedFrom_bare (e : Element) : e.bare.derivedFrom = e.derivedFrom := by
  match e with
  | .peripheral _ => rfl
  | .member (.register _) => rfl
  | .member (.cluster c) => exact c.bare_derivedFrom

@[simp] theorem members_bare (e : Element) : e.bare.members = e.members.map Member.bare := by
  match e with
  | .peripheral p =>
      simp only [bare, members, Peripheral.bare, membersOf_bare]
      split <;> rfl
  | .member (.register _) => rfl
  | .member (.cluster c) =>
      simp only [bare, Member.bare, members, Cluster.bare_derivedFrom, Cluster.bare_registers,
        Cluster.bare_clusters, membersOf_bare]
      split <;> rfl

@[simp] theorem fields_bare (e : Element) : e.bare.fields = e.fields.map Field.bare := by
  match e with
  | .peripheral _ => rfl
  | .member (.register r) => exact getD_map_map _ _
  | .member (.cluster _) => rfl

end Element

@[simp] theorem memberExpansion?_bare (inherited : RegisterProperties) (m : Member) :
    memberExpansion? inherited m.bare = memberExpansion? inherited m := by
  cases m with
  | register r => rfl
  | cluster c =>
      simp only [Member.bare, memberExpansion?, clusterExpansion?, Cluster.bare_properties,
        Cluster.bare_dimension]

@[simp] theorem isExportedMember_bare (inherited : RegisterProperties) (m : Member) :
    isExportedMember inherited m.bare = isExportedMember inherited m := by
  cases m with
  | register r => rfl
  | cluster c =>
      simp only [Member.bare, isExportedMember, isExportedCluster, clusterExpansion?,
        Cluster.bare_properties, Cluster.bare_dimension]

theorem exportedMembers_bare (effective : RegisterProperties) (members : List Member) :
    exportedMembers effective (members.map Member.bare) =
      (exportedMembers effective members).map Member.bare := by
  simp only [exportedMembers, List.filter_map, Function.comp_def, isExportedMember_bare]

theorem memberFits_bare {inherited : RegisterProperties} {m : Member} :
    MemberFits inherited m.bare ↔ MemberFits inherited m := by
  cases m with
  | register r => rfl
  | cluster c =>
      simp only [Member.bare, MemberFits, clusterExpansion?, Cluster.bare_properties,
        Cluster.bare_dimension, Cluster.bare_addressOffset]

/-! ## Sites and sections -/

def Site.bare (t : Site) : Site :=
  { t with element := t.element.bare }

def Section.bare (s : Section) : Section :=
  { s with elements := s.elements.map Element.bare }

namespace Site

@[simp] theorem effective_bare (t : Site) : t.bare.effective = t.effective := by
  rw [effective, bare, Element.properties_bare, effective]

theorem fits_bare {t : Site} : t.bare.Fits ↔ t.Fits := by
  have haddress : isWord (t.bare.address + t.bare.element.offset) =
      isWord (t.address + t.element.offset) := by
    rw [bare, Element.offset_bare]
  have hmembers : (∀ m ∈ t.bare.element.members, isExportedMember t.bare.effective m = true →
        MemberFits t.bare.effective m) ↔
      ∀ m ∈ t.element.members, isExportedMember t.effective m = true →
        MemberFits t.effective m := by
    rw [effective_bare, bare, Element.members_bare, List.forall_mem_map]
    simp only [isExportedMember_bare, memberFits_bare]
  have hfields : (∀ f ∈ t.bare.element.fields, FieldFits f) ↔
      ∀ f ∈ t.element.fields, FieldFits f := by
    rw [bare, Element.fields_bare, List.forall_mem_map]
    rfl
  constructor
  · intro h
    exact ⟨haddress ▸ h.address, hmembers.mp h.members, hfields.mp h.fields⟩
  · intro h
    exact ⟨haddress ▸ h.address, hmembers.mpr h.members, hfields.mpr h.fields⟩

end Site

namespace Section

theorem sites_bare (s : Section) : s.bare.sites = s.sites.map Site.bare := by
  simp only [sites, bare, List.map_map]
  rfl

theorem below?_bare (s : Section) (e : Element) :
    s.bare.below? e.bare = (s.below? e).map Section.bare := by
  have hinherited : s.bare.inherited = s.inherited := rfl
  unfold below?
  simp only [Element.properties_bare, Element.members_bare, hinherited, exportedMembers_bare,
    Element.typeName_bare, Element.offset_bare]
  cases exportedMembers (e.properties.inheriting s.inherited) e.members with
  | nil => rfl
  | cons m members =>
      simp only [List.map_cons, Option.map_some, bare, List.map_map]
      rfl

theorem below_bare (s : Section) : s.bare.below = s.below.map Section.bare := by
  simp only [below, List.map_filterMap]
  rw [bare, List.filterMap_map]
  exact List.filterMap_congr fun e _ => s.below?_bare e

end Section

theorem queueOrder_bare (queue : List Section) :
    queueOrder (queue.map Section.bare) = (queueOrder queue).map Section.bare := by
  fun_induction queueOrder queue with
  | case1 => simp [queueOrder]
  | case2 s queue ih =>
      rw [List.map_append] at ih
      rw [List.map_cons, queueOrder, Section.below_bare, ih, List.map_cons]

theorem Site.sections_bare (s : Site) : s.bare.sections = s.sections.map Section.bare := by
  have horder (t : Site) : t.sections = queueOrder [t.own] := by rw [queueOrder_own, sections]
  have hown : [s.bare.own] = [s.own].map Section.bare := rfl
  rw [horder, horder, hown, queueOrder_bare]

/-! ## Devices -/

theorem findPeripheral_bare (device : Device) (name : String) :
    findPeripheral device.bare name = (findPeripheral device name).map Peripheral.bare := by
  have hnames : device.bare.peripheralNames = device.peripheralNames := List.map_map
  have hfind : device.bare.peripherals.reverse.find? (·.name == name) =
      (device.peripherals.reverse.find? (·.name == name)).map Peripheral.bare := by
    rw [Device.bare, ← List.map_reverse, List.find?_map]
    rfl
  simp only [findPeripheral, hnames, hfind]
  cases device.peripherals.reverse.find? (·.name == name) <;> rfl

theorem sortByName_bare (peripherals : List Peripheral) :
    sortByName (peripherals.map Peripheral.bare) =
      (sortByName peripherals).map Peripheral.bare := by
  have hsorted := List.map_mergeSort (f := Peripheral.bare) (l := peripherals)
    (r := fun p q => decide (p.name ≤ q.name)) (s := fun p q => decide (p.name ≤ q.name))
    fun _ _ _ _ => rfl
  exact hsorted.symm

theorem selectPeripherals_bare (device : Device) (names : List String) :
    selectPeripherals device.bare names =
      (selectPeripherals device names).map (·.map Peripheral.bare) := by
  have hfound : names.eraseDups.mapM (findPeripheral device.bare) =
      (names.eraseDups.mapM (findPeripheral device)).map (·.map Peripheral.bare) := by
    rw [← Outcome.mapM_map_values]
    exact congrArg names.eraseDups.mapM (funext fun name => findPeripheral_bare device name)
  simp only [selectPeripherals, hfound]
  split
  · exact congrArg Except.ok (sortByName_bare device.peripherals)
  · cases names.eraseDups.mapM (findPeripheral device) with
    | error e => rfl
    | ok found => exact congrArg Except.ok (sortByName_bare found)

theorem shownPeripherals_bare (device : Device) (selected : List Peripheral) :
    shownPeripherals device.bare (selected.map Peripheral.bare) =
      (shownPeripherals device selected).map Peripheral.bare :=
  List.filter_map

theorem peripheralSite_bare (options : Options) (device : Device) (p : Peripheral) :
    peripheralSite options device.bare p.bare = (peripheralSite options device p).bare := rfl

theorem forall_fits_bare {s : Site} :
    (∀ place t, s.bare.at? place = some t → t.Fits) ↔ ∀ place t, s.at? place = some t → t.Fits := by
  have hsites (r : Site) : (∀ place t, r.at? place = some t → t.Fits) ↔
      ∀ t ∈ r.sections.flatMap Section.sites, t.Fits := by
    simp only [Site.mem_sites_sections]
    exact ⟨fun h t ⟨place, hat⟩ => h place t hat, fun h place t hat => h t ⟨place, hat⟩⟩
  have hbare : s.bare.sections.flatMap Section.sites =
      (s.sections.flatMap Section.sites).map Site.bare := by
    simp only [Site.sections_bare, List.flatMap_map, List.map_flatMap, Section.sites_bare]
  rw [hsites, hsites, hbare, List.forall_mem_map]
  simp only [Site.fits_bare]

/-- Whether the addresses of a device fit does not depend on what is described in it. -/
theorem selectionFits_bare {options : Options} {device : Device} {selected : List Peripheral} :
    SelectionFits options device.bare (selected.map Peripheral.bare) ↔
      SelectionFits options device selected := by
  have hinstances : (∀ p ∈ selected.map Peripheral.bare, InstancesFit device.bare.properties p) ↔
      ∀ p ∈ selected, InstancesFit device.properties p := by
    rw [List.forall_mem_map]
    rfl
  have htypes : (∀ p ∈ shownPeripherals device.bare (selected.map Peripheral.bare), ∀ place t,
        (peripheralSite options device.bare p).at? place = some t → t.Fits) ↔
      ∀ p ∈ shownPeripherals device selected, ∀ place t,
        (peripheralSite options device p).at? place = some t → t.Fits := by
    rw [shownPeripherals_bare, List.forall_mem_map]
    simp only [peripheralSite_bare, forall_fits_bare]
  constructor
  · intro h
    exact ⟨hinstances.mp h.instances, htypes.mp h.types⟩
  · intro h
    exact ⟨hinstances.mpr h.instances, htypes.mpr h.types⟩

end RegisterMap.Export
