import RegisterMap.Proofs.Derivation.Validation
import RegisterMap.Proofs.Export.Inheritance
import RegisterMap.Proofs.Export.Outcome

/-!
# Elements that are left out

Whether an element is left out is decided where its instances or members are declared:
a register without a size, an element without replicas, or one whose replicas are at an
unknown distance.  The decision holds for the rest of the export.  What is left out has
no unit and no type, everything else has, and each missing size or distance is told once.
-/

namespace RegisterMap.Export

open RegisterMap.Derivation RegisterMap.Model RegisterMap.Report RegisterMap.Swift

/-! ## Reasons to leave an element out -/

namespace Element

def count? (e : Element) : Option Int :=
  e.dimension.bind Dimension.count

def ownStride? (e : Element) : Option Int :=
  e.dimension.bind Dimension.stride

/-- True of an element with replicas at a distance that nothing tells. -/
def LacksStride (size : Option Int) (e : Element) : Prop :=
  (∃ count ∈ e.count?, 0 < count) ∧ e.ownStride? = none ∧ size = none

instance (size : Option Int) (e : Element) : Decidable (e.LacksStride size) :=
  inferInstanceAs (Decidable ((∃ count ∈ e.count?, 0 < count) ∧ _ ∧ _))

/-- True of an element of which nothing is declared, for the size that is in effect at it. -/
def Skipped (size : Option Int) (e : Element) : Prop :=
  match e with
  | .member (.register _) => size = none ∨ e.count? = some 0
  | _ => e.count? = some 0 ∨ e.LacksStride size

/-- What is told about an element, for the size that is in effect at it. -/
def warning? (size : Option Int) (e : Element) : Option Event :=
  match e with
  | .member (.register _) => if size.isNone then some (.unknownSize e.typeName) else none
  | _ => if e.LacksStride size then some (.unknownStride e.name) else none

/-- True of an element with a number of replicas that is not negative, if it has any. -/
def CountNonneg (e : Element) : Prop :=
  ∀ count ∈ e.count?, 0 ≤ count

instance (e : Element) : Decidable e.CountNonneg :=
  inferInstanceAs (Decidable (∀ count ∈ e.count?, 0 ≤ count))

theorem noReplica_iff {size : Option Int} {e : Element} (h : e.CountNonneg) :
    NoReplica e.dimension size ↔ e.count? = some 0 ∨ e.LacksStride size := by
  unfold CountNonneg at h
  unfold NoReplica LacksStride ownStride?
  unfold count? at h ⊢
  generalize e.dimension = dimension at h ⊢
  cases dimension with
  | none => simp
  | some d =>
      cases hcount : d.count with
      | none => simp [hcount]
      | some count =>
          have hnonneg := h count hcount
          simp only [Option.mem_def, Option.some.injEq, exists_eq_left', hcount, Option.bind_some]
          constructor
          · rintro (hle | hnone)
            · exact .inl (by omega)
            · by_cases hzero : count = 0
              · exact .inl hzero
              · exact .inr ⟨by omega, hnone⟩
          · rintro (hzero | ⟨-, hnone⟩)
            · exact .inl (by omega)
            · exact .inr hnone

/-- With counts that are not negative, the reasons are the ones that members are shown by. -/
theorem leftOut_iff_skipped {size : Option Int} {e : Element} (h : e.CountNonneg) :
    e.LeftOut size ↔ e.Skipped size := by
  rw [LeftOut, noReplica_iff h]
  rcases e with p | ⟨r | c⟩
  · simp [IsRegister, Skipped]
  · have hregister : (Element.member (.register r)).IsRegister := ⟨r, rfl⟩
    simp only [hregister, true_and, Skipped, LacksStride]
    constructor
    · rintro (hsize | hcount | ⟨-, -, hsize⟩)
      · exact .inl hsize
      · exact .inr hcount
      · exact .inl hsize
    · rintro (hsize | hcount)
      · exact .inl hsize
      · exact .inr (.inl hcount)
  · simp [IsRegister, Skipped]

theorem expansion?_eq_none_iff (size : Option Int) {e : Element} (h : e.CountNonneg) :
    Dimension.expansion? e.dimension size = none ↔ e.LacksStride size := by
  rw [Dimension.expansion?_eq_none_iff, Dimension.stride?, Option.or_eq_none_iff]
  refine and_congr_left fun _ => exists_congr fun count => and_congr_right fun hcount => ?_
  have hnonneg := h count hcount
  omega

end Element

theorem isExportedMember_iff {inherited : RegisterProperties} {m : Member}
    (h : (Element.member m).CountNonneg) :
    isExportedMember inherited m = true ↔
      ¬(Element.member m).Skipped ((Element.member m).properties.inheriting inherited).size := by
  rw [← Element.leftOut_iff_skipped h]
  constructor
  · intro hexported
    refine not_leftOut_of_isExportedMember hexported ?_
    rintro r rfl d hd count hcount
    exact h count (Option.bind_eq_some_iff.mpr ⟨d, hd, hcount⟩)
  · exact isExportedMember_of_not_leftOut

/-! ## What is told -/

/-- True of an event that tells of an element that is left out. -/
def Event.isSkip : Event → Bool
  | .unknownSize _ | .unknownStride _ => true
  | _ => false

def skips (events : List Event) : List Event :=
  events.filter Event.isSkip

@[simp] theorem skips_append (xs ys : List Event) : skips (xs ++ ys) = skips xs ++ skips ys :=
  List.filter_append ..

theorem skips_flatMap {α : Type} (f : α → List Event) (xs : List α) :
    skips (xs.flatMap f) = xs.flatMap fun x => skips (f x) :=
  List.filter_flatMap ..

theorem flatMap_toList {α β : Type} (f : α → Option β) (xs : List α) :
    (xs.flatMap fun x => (f x).toList) = xs.filterMap f :=
  (List.filterMap_eq_flatMap_toList f xs).symm

theorem instanceEvents_eq {inherited : RegisterProperties} {p : Peripheral}
    (h : (Element.peripheral p).CountNonneg) :
    instanceEvents inherited p =
      ((Element.peripheral p).warning? (p.properties.inheriting inherited).size).toList := by
  have hnone := Element.expansion?_eq_none_iff (p.properties.inheriting inherited).size h
  simp only [instanceEvents, Element.warning?, ← hnone]
  rw [peripheralExpansion?, Element.dimension]
  cases Dimension.expansion? p.dimension (p.properties.inheriting inherited).size with
  | none => rfl
  | some x => rfl

theorem memberEvents_eq {inherited : RegisterProperties} {m : Member}
    (h : (Element.member m).CountNonneg) :
    memberEvents inherited m =
      ((Element.member m).warning?
        ((Element.member m).properties.inheriting inherited).size).toList := by
  cases m with
  | cluster c =>
      have hnone := Element.expansion?_eq_none_iff (c.properties.inheriting inherited).size h
      simp only [memberEvents, memberExpansion?, leftOutEvent, Element.warning?,
        Element.properties, ← hnone]
      rw [clusterExpansion?, Element.dimension]
      cases Dimension.expansion? c.dimension (c.properties.inheriting inherited).size with
      | none => rfl
      | some x => rfl
  | register r =>
      simp only [memberEvents, memberExpansion?, leftOutEvent, Element.warning?,
        Element.properties]
      rcases Option.eq_none_or_eq_some (r.properties.inheriting inherited).size with
        hsize | ⟨size, hsize⟩
      · simp [hsize, Element.typeName, Element.name]
      · -- The size is the distance of replicas without a distance of their own.
        have hsome : registerExpansion? r (r.properties.inheriting inherited) ≠ none := by
          intro hnone
          rw [registerExpansion?, Dimension.expansion?_eq_none_iff, hsize] at hnone
          simp [Dimension.stride?] at hnone
        rcases Option.ne_none_iff_exists'.mp hsome with ⟨x, hx⟩
        simp [hsize, hx]

theorem Element.isSkip_of_warning? {size : Option Int} {e : Element} {event : Event}
    (h : e.warning? size = some event) : event.isSkip = true := by
  unfold warning? at h
  split at h
  all_goals
    rw [Option.ite_none_right_eq_some, Option.some.injEq] at h
    rw [← h.2]
    rfl

theorem skips_warnings {α : Type} (f : α → Option Int) (g : α → Element) (xs : List α) :
    skips (xs.filterMap fun x => (g x).warning? (f x)) =
      xs.filterMap fun x => (g x).warning? (f x) := by
  rw [skips, List.filter_eq_self]
  intro event hevent
  rcases List.mem_filterMap.mp hevent with ⟨x, -, hx⟩
  exact Element.isSkip_of_warning? hx

theorem skips_reservedFields (access : Option Access) (names : FieldNames)
    (fields : List Field) : skips (reservedFields access names fields) = [] := by
  induction fields generalizing names with
  | nil => rfl
  | cons f fields ih =>
      rcases exists_fieldExpansion f with ⟨x, hx⟩
      simp only [reservedFields, hx, skips_append, ih, List.append_nil]
      split <;> rfl

theorem skips_reportMissingBases (selected : List Peripheral) :
    skips (reportMissingBases selected).events = [] := by
  rw [reportMissingBases, Trace.events_recordAll, skips, List.filter_eq_nil_iff]
  intro event hevent
  rcases List.mem_filterMap.mp hevent with ⟨p, -, hp⟩
  cases hbase : p.derivedFrom with
  | none => simp [hbase] at hp
  | some base =>
      simp only [hbase, Option.ite_none_left_eq_some, Option.some.injEq] at hp
      simp [← hp.2, Event.isSkip]

/-! ## Left out of a tree -/

theorem Element.mem_allMembers_of_mem {e : Element} {m : Member} (h : m ∈ e.members) :
    m ∈ e.allMembers := by
  cases halias : e.derivedFrom with
  | none => rwa [Element.members_of_definition halias] at h
  | some base =>
      rw [Element.members_of_alias (by simp [halias])] at h
      cases h

namespace Site

/-- With each block, what is missing to show its members is told. -/
theorem skips_events {t : Site} (h : t.element.Throughout Element.CountNonneg) :
    skips t.events = t.element.members.filterMap fun m =>
      (Element.member m).warning? ((Element.member m).properties.inheriting t.effective).size := by
  rcases t with ⟨e, enclosing, inherited, address⟩
  have hblock : skips (e.members.flatMap (memberEvents (e.properties.inheriting inherited))) =
      e.members.filterMap fun m => (Element.member m).warning?
        ((Element.member m).properties.inheriting (e.properties.inheriting inherited)).size := by
    rw [← skips_warnings, ← flatMap_toList]
    refine congrArg skips (List.flatMap_congr fun m hm => memberEvents_eq ?_)
    exact (h.member (Element.mem_allMembers_of_mem hm)).own
  cases e with
  | peripheral p => exact hblock
  | member m =>
      cases m with
      | cluster c => exact hblock
      | register r => exact skips_reservedFields ..

end Site

variable {options : Options} {device : Device} {p : Peripheral}

/-- The sizes that decide about members are those of the nearest elements around them. -/
theorem size_member_eq_nearest {place : Place} {t : Site}
    (hat : (peripheralSite options device p).at? place = some t) (m : Member) :
    ((Element.member m).properties.inheriting t.effective).size =
      nearest device (.member m :: (peripheralSite options device p).way place) (·.size) := by
  rw [Site.effective_eq_nearest rfl hat, ← nearestProperties_cons]
  rfl

theorem size_peripheral_eq_nearest (device : Device) (p : Peripheral) :
    (p.properties.inheriting device.properties).size =
      nearest device [.peripheral p] (·.size) := by
  rw [nearest_cons, nearest_nil]
  rfl

/-- What is told about members that are left out in the unit of a peripheral, block by block. -/
def memberWarnings (options : Options) (device : Device) (p : Peripheral) : List Event :=
  let root := peripheralSite options device p
  (root.declarations root.levelOrder).flatMap fun (place, t) =>
    t.element.members.filterMap fun m =>
      (Element.member m).warning? (nearest device (.member m :: root.way place) (·.size))

theorem skips_peripheralEvents (hcounts : (Element.peripheral p).Throughout Element.CountNonneg) :
    skips (peripheralEvents options device p) = memberWarnings options device p := by
  have hwrote : skips [.wrote (peripheralUnit options device p)] = [] := rfl
  rw [peripheralEvents, skips_append, hwrote, List.append_nil, Site.allEvents, skips_flatMap,
    memberWarnings]
  refine List.flatMap_congr fun declared hmem => ?_
  rcases declared with ⟨place, t⟩
  have hat := Site.mem_declarations_levelOrder.mp hmem
  rw [Site.skips_events (Site.throughout_at? hcounts hat)]
  exact List.filterMap_congr fun m _ => by rw [size_member_eq_nearest hat]

/-- In the unit of a peripheral, the members that are shown are those with a type. -/
structure UnitLeavesOut (options : Options) (device : Device) (p : Peripheral) : Prop where
  /-- The sections of the unit declare the types of the sites of the peripheral. -/
  walk : (sectionsCode options [peripheralSection options device p]).outcome =
    .ok ((peripheralSite options device p).sections.map (Section.types options))
  sites : (peripheralSite options device p).sections.flatMap Section.sites =
    ((peripheralSite options device p).declarations
      (peripheralSite options device p).levelOrder).map Prod.snd
  /-- A member has a text in the block around it exactly if its type is declared, that is,
  if there is no reason to leave it out. -/
  members : ∀ place t,
    (place, t) ∈ (peripheralSite options device p).declarations
      (peripheralSite options device p).levelOrder →
    t.element.derivedFrom = none → ∀ i m, t.element.allMembers[i]? = some m →
    (memberAccessors options t.effective m).outcome = .ok (memberTexts options t.effective m) ∧
      (memberTexts options t.effective m ≠ [] ↔ ∃ u, u.element = .member m ∧
        (place ++ [i], u) ∈ (peripheralSite options device p).declarations
          (peripheralSite options device p).levelOrder) ∧
      (memberTexts options t.effective m = [] ↔ (Element.member m).Skipped
        (nearest device (.member m :: (peripheralSite options device p).way place) (·.size)))
  /-- The type of a register says how wide the register is. -/
  widths : ∀ place t r,
    (place, t) ∈ (peripheralSite options device p).declarations
      (peripheralSite options device p).levelOrder →
    t.element = .member (.register r) → ∃ size,
      nearest device ((peripheralSite options device p).way place) (·.size) = some size ∧
        ∃ body, t.type options = .block
          ((Subject.mk r.description (swiftName r.name) options.modifiers).registerHeading size)
          body

theorem unitLeavesOut (hcounts : (Element.peripheral p).Throughout Element.CountNonneg)
    (hfits : ∀ place t, (peripheralSite options device p).at? place = some t → t.Fits) :
    UnitLeavesOut options device p where
  walk := (sectionsCode_settled options device p).outcome_iff.mpr ⟨hfits, rfl⟩
  sites := Site.sites_sections _
  members := by
    intro place t hdeclared halias i m hm
    have hat := Site.mem_declarations_levelOrder.mp hdeclared
    have hmem : m ∈ t.element.members := by
      rw [Element.members_of_definition halias]
      exact List.mem_of_getElem? hm
    have hcount := ((Site.throughout_at? hcounts hat).member (List.mem_of_getElem? hm)).own
    have htexts := memberTexts_ne_nil_iff options t.effective m
    refine ⟨?_, ?_, ?_⟩
    · exact (memberAccessors_settled options t.effective m).outcome_iff.mpr
        ⟨(hfits place t hat).members m hmem, rfl⟩
    · rw [htexts]
      simp only [Site.mem_declarations_levelOrder, Site.at?_concat, hat, Option.bind_some,
        Site.member?_eq_some_iff, hm, Option.some.injEq, exists_eq_left', halias, true_and]
      constructor
      · intro hexported
        exact ⟨t.inside m, rfl, hexported, rfl⟩
      · rintro ⟨u, -, hexported, -⟩
        exact hexported
    · rw [← not_iff_not, ← ne_eq, htexts, isExportedMember_iff hcount, size_member_eq_nearest hat]
  widths := by
    intro place t r hdeclared hr
    have hat := Site.mem_declarations_levelOrder.mp hdeclared
    have hinherits := inheritsNearest_of_at? hat (hfits place t hat)
    rcases hinherits.register r hr with ⟨size, members, hsize, htype, -, -⟩
    exact ⟨size, hsize, _, htype⟩

/-! ## Left out of a device -/

/-- The selected peripherals with an instance in the unit of the device. -/
def withInstances (options : Options) (device : Device) (selected : List Peripheral) :
    List Peripheral :=
  selected.filter fun p => instanceTexts options device.properties p ≠ []

theorem shownPeripherals_eq (options : Options) (device : Device) (selected : List Peripheral) :
    shownPeripherals device selected = withInstances options device selected := by
  refine List.filter_congr fun p _ => ?_
  rw [Bool.eq_iff_iff, decide_eq_true_iff, instanceTexts_ne_nil_iff]

theorem deviceUnit_withInstances (options : Options) (device : Device)
    (selected : List Peripheral) :
    deviceUnit options device (withInstances options device selected) =
      deviceUnit options device selected := by
  have htexts : (withInstances options device selected).flatMap
      (instanceTexts options device.properties) =
        selected.flatMap (instanceTexts options device.properties) := by
    induction selected with
    | nil => rfl
    | cons p selected ih =>
        simp only [withInstances] at ih
        simp only [withInstances, List.filter_cons, List.flatMap_cons]
        split
        · rw [List.flatMap_cons, ih]
        · rename_i hnil
          simp only [ne_eq, decide_not, Bool.not_eq_true, Bool.not_eq_false', decide_eq_true_iff]
            at hnil
          rw [ih, hnil, List.nil_append]
  simp only [deviceUnit, deviceCode, htexts]

/-- What an export leaves out, and what it tells about it. -/
structure LeavesOut (options : Options) (device : Device) (selected : List Peripheral) :
    Prop where
  /-- A peripheral has an instance in the unit of the device, unless there is a reason to
  leave it out. -/
  instances : ∀ p ∈ selected,
    (peripheralAccessors options device.properties p).outcome =
        .ok (instanceTexts options device.properties p) ∧
      (instanceTexts options device.properties p = [] ↔
        (Element.peripheral p).Skipped (nearest device [.peripheral p] (·.size)))
  /-- The unit of the device declares all instances, and the peripherals with an instance
  have units. -/
  units : writtenUnits (exportDevice options device).events =
    deviceUnit options device selected ::
      (withInstances options device selected).map (peripheralUnit options device)
  members : ∀ p ∈ withInstances options device selected, UnitLeavesOut options device p
  /-- What is missing is told once for each element that it is missing at, and nothing is
  told about the others. -/
  warnings : skips (exportDevice options device).events =
    selected.filterMap (fun p =>
        (Element.peripheral p).warning? (nearest device [.peripheral p] (·.size))) ++
      (withInstances options device selected).flatMap (memberWarnings options device)

theorem isExportedPeripheral_iff_not_skipped
    (h : (Element.peripheral p).CountNonneg) :
    isExportedPeripheral device.properties p = true ↔
      ¬(Element.peripheral p).Skipped (nearest device [.peripheral p] (·.size)) := by
  rw [isExportedPeripheral_iff_not_leftOut, Element.leftOut_iff_skipped h,
    size_peripheral_eq_nearest]

theorem skips_selectionEvents {selected : List Peripheral}
    (hcounts : ∀ p ∈ selected, (Element.peripheral p).Throughout Element.CountNonneg) :
    skips (selectionEvents options device selected) =
      selected.filterMap (fun p =>
          (Element.peripheral p).warning? (nearest device [.peripheral p] (·.size))) ++
        (shownPeripherals device selected).flatMap (memberWarnings options device) := by
  have hinstances : selected.flatMap (instanceEvents device.properties) =
      selected.filterMap fun p =>
        (Element.peripheral p).warning? (nearest device [.peripheral p] (·.size)) := by
    rw [← flatMap_toList]
    refine List.flatMap_congr fun p hp => ?_
    rw [instanceEvents_eq (hcounts p hp).own, size_peripheral_eq_nearest]
  have hwrote : skips [.wrote (deviceUnit options device (shownPeripherals device selected))] =
      [] := rfl
  rw [selectionEvents, skips_append, skips_append, skips_reportMissingBases, List.nil_append,
    deviceEvents, skips_append, hinstances, skips_warnings, hwrote, List.append_nil, skips_flatMap]
  refine congrArg _ (List.flatMap_congr fun p hp => ?_)
  exact skips_peripheralEvents (hcounts p (List.mem_filter.mp hp).1)

def valueRegister : Register where
  name := "VALUE"
  addressOffset := 0
  properties := { size := some 32 }

def statusRegister : Register where
  name := "STATUS"
  addressOffset := 4

def emptyBank : Cluster where
  name := "BANK%s"
  addressOffset := 8
  dimension := some ⟨some 0, none⟩

def looseGroup : Cluster where
  name := "GROUP%s"
  addressOffset := 16
  dimension := some ⟨some 2, none⟩

def sensor : Peripheral where
  name := "SENSOR"
  registers := some [valueRegister, statusRegister]
  clusters := some [emptyBank, looseGroup]

def sensorArray : Peripheral where
  name := "ARRAY%s"
  dimension := some ⟨some 2, none⟩

def sensorDevice : Device where
  peripherals := [sensorArray, sensor]

theorem throughout_countNonneg_sensorDevice :
    ∀ p ∈ sensorDevice.peripherals, (Element.peripheral p).Throughout Element.CountNonneg := by
  have hleaf {e : Element} (hown : e.CountNonneg) (hmembers : e.allMembers = []) :
      e.Throughout Element.CountNonneg := by
    refine .intro hown fun m hm => ?_
    rw [hmembers] at hm
    cases hm
  intro p hp
  simp only [sensorDevice, List.mem_cons, List.not_mem_nil, or_false] at hp
  rcases hp with rfl | rfl
  · exact hleaf (by decide) rfl
  · refine .intro (by decide) fun m hm => ?_
    simp only [Element.allMembers, sensor, membersOf, Option.getD_some, List.map_cons, List.map_nil,
      List.cons_append, List.nil_append, List.mem_cons, List.not_mem_nil, or_false] at hm
    rcases hm with rfl | rfl | rfl | rfl
    all_goals exact hleaf (by decide) rfl

theorem selectPeripherals_sensorDevice :
    selectPeripherals sensorDevice [] = .ok sensorDevice.peripherals := by
  have hsorted : sortByName sensorDevice.peripherals = sensorDevice.peripherals := by
    refine List.mergeSort_of_pairwise ?_
    simp [sensorDevice, sensorArray, sensor]
  rw [← hsorted]
  rfl

theorem exportDevice_sensorDevice : (exportDevice {} sensorDevice).outcome = .ok () := by
  have hvalid : validate sensorDevice = .ok () :=
    validate_of_definitions (by simp [sensorDevice, sensorArray, sensor]) (by decide)
  refine exportDevice_of_parts hvalid selectPeripherals_sensorDevice rfl ?_
  intro pair hpair
  obtain rfl := List.mem_singleton.mp hpair
  exact ⟨_, rfl⟩

end RegisterMap.Export
