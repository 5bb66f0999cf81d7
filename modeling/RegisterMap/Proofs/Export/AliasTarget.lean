import RegisterMap.Proofs.Export.ClusterWay
import RegisterMap.Proofs.Export.StoredUnits

/-!
# Bases of aliases

The type of a derived element is an alias of the type of its base.  Validation looks
for bases among all elements of a device, while an export leaves elements out, and
with them all that is below.  So an alias can be written without its base: exactly
the bases that are shown themselves are written.
-/

namespace RegisterMap.Export

open RegisterMap.Derivation RegisterMap.Model RegisterMap.Report RegisterMap.Swift
open RegisterMap.Description (decodeDevice deviceDocument groupNode textNode)

/-! ## Bases -/

/-- The path of the type at the end of a way. -/
def wayPath (way : List Element) : List String :=
  typePath (wayNames way)

/-- The innermost element of a way is derived, so that its type is an alias. -/
def IsAlias (way : List Element) : Prop :=
  ∃ e outer, way = e :: outer ∧ e.derivedFrom.isSome = true

/-- The elements of a device that the reference of a derived element leads to. -/
inductive IsBase (device : Device) : List Element → List Element → Prop
  | peripheral {p q : Peripheral} :
      p.derivedFrom = some q.name → q ∈ device.peripherals →
      IsBase device [.peripheral p] [.peripheral q]
  | cluster {c d : Cluster} {outer around : List Element} {target : String} :
      c.derivedFrom = some target → DeviceWay device (.member (.cluster d) :: around) →
      LeadsTo device (wayPath outer) (typePath (components target))
        (wayPath (.member (.cluster d) :: around)) →
      IsBase device (.member (.cluster c) :: outer) (.member (.cluster d) :: around)

variable {options : Options} {device : Device}

/-- In a device that passes validation, every derived element has a base. -/
theorem exists_isBase (hvalid : validate device = .ok ()) {way : List Element}
    (hway : DeviceWay device way) (halias : IsAlias way) : ∃ base, IsBase device way base := by
  rcases resolves_of_validate hvalid with ⟨hperipherals, hclusters⟩
  rcases halias with ⟨e, outer, rfl, hderived⟩
  rcases Option.isSome_iff_exists.mp hderived with ⟨target, htarget⟩
  match e with
  | .peripheral p =>
      cases hway with
      | peripheral hp =>
          rcases (hperipherals p hp target htarget).1 with ⟨q, hq, rfl⟩
          exact ⟨_, .peripheral htarget hq⟩
  | .member (.register r) => cases htarget
  | .member (.cluster c) =>
      rcases hway.exists_clusterAt? rfl with ⟨place, hplace⟩
      rcases hclusters place _ c hplace target htarget with ⟨found, hleads, -⟩
      rw [wayNames_cons, List.dropLast_concat] at hleads
      rcases hleads with ⟨scope, hscope, hfound, ⟨place', names, d, hd, rfl⟩, hlongest⟩
      rcases exists_clusterAt?_iff.mp ⟨place', hd⟩ with ⟨around, haround, rfl⟩
      have hleads : LeadsTo device (wayPath outer) (typePath (components target))
          (wayPath (.member (.cluster d) :: around)) :=
        ⟨scope, hscope, hfound, ⟨place', _, d, hd, rfl⟩, hlongest⟩
      exact ⟨_, .cluster htarget haround hleads⟩

/-! ## Written types -/

/-- The way to an element whose type is declared in some unit of an export. -/
def WritesType (options : Options) (device : Device) (way : List Element) : Prop :=
  ∃ p ∈ exportedPeripherals options device,
    peripheralUnit options device p ∈ writtenUnits (exportDevice options device).events ∧
      ∃ place t, (place, t) ∈ (peripheralSite options device p).declarations
          (peripheralSite options device p).levelOrder ∧
        (peripheralSite options device p).way place = way

/-- The way to an element of a device that is not left out, and neither is anything around it. -/
def ShownWay (device : Device) (way : List Element) : Prop :=
  ∃ p ∈ device.peripherals,
    ¬(Element.peripheral p).LeftOut (nearest device [.peripheral p] (·.size)) ∧
      DeclaredWay device p way

theorem mem_exportedPeripherals (hall : options.selectedPeripherals = []) {p : Peripheral} :
    p ∈ exportedPeripherals options device ↔ p ∈ device.peripherals ∧
      ¬(Element.peripheral p).LeftOut (nearest device [.peripheral p] (·.size)) := by
  have hselected : selectPeripherals device options.selectedPeripherals =
      .ok (sortByName device.peripherals) := by
    rw [hall]
    rfl
  have hsize : nearest device [.peripheral p] (·.size) =
      (p.properties.inheriting device.properties).size := by
    rw [nearest_cons, nearest_nil]
    rfl
  rw [hsize, ← isExportedPeripheral_iff_not_leftOut]
  simp [exportedPeripherals, hselected, sortByName]

theorem peripheralUnit_mem_writtenUnits (h : (exportDevice options device).outcome = .ok ())
    {p : Peripheral} (hp : p ∈ exportedPeripherals options device) :
    peripheralUnit options device p ∈ writtenUnits (exportDevice options device).events := by
  have hexported := exported_of_exportDevice h
  rw [hexported.units]
  refine List.mem_cons_of_mem _ (List.mem_flatMap.mpr ⟨p, hp, ?_⟩)
  rw [writtenUnits_writePeripheralUnit (hexported.written p hp)]
  exact List.mem_singleton_self _

/-- Registers apart, an export of all peripherals writes the types that the device shows. -/
theorem writesType_iff_shownWay (hall : options.selectedPeripherals = [])
    (h : (exportDevice options device).outcome = .ok ()) {way : List Element}
    (hkind : ∀ r outer, way ≠ .member (.register r) :: outer) :
    WritesType options device way ↔ ShownWay device way := by
  constructor
  · rintro ⟨p, hp, -, place, t, hdeclared, rfl⟩
    rw [mem_exportedPeripherals hall] at hp
    have hat := Site.mem_declarations_levelOrder.mp hdeclared
    refine ⟨p, hp.1, hp.2, declaredWay_of_at? hat ?_⟩
    intro r hr
    rcases Site.exists_outer hat with ⟨outer, hway⟩
    rw [hr] at hway
    exact absurd hway (hkind r outer)
  · rintro ⟨p, hp, hshown, hway⟩
    have hexported := (mem_exportedPeripherals hall).mpr ⟨hp, hshown⟩
    rcases hway.exists_site options with ⟨place, t, hat, hends⟩
    exact ⟨p, hexported, peripheralUnit_mem_writtenUnits h hexported, place, t,
      Site.mem_declarations_levelOrder.mpr hat, hends⟩

theorem IsAlias.ne_register {way : List Element} (h : IsAlias way) (r : Register)
    (outer : List Element) : way ≠ .member (.register r) :: outer := by
  rintro rfl
  rcases h with ⟨e, outer', heq, hderived⟩
  obtain ⟨rfl, -⟩ := List.cons.inj heq
  cases hderived

theorem IsBase.ne_register {way base : List Element} (h : IsBase device way base) (r : Register)
    (outer : List Element) : base ≠ .member (.register r) :: outer := by
  cases h <;> simp

/-- The line that declares a type stands in the unit in which the type is declared. -/
theorem exists_hasLine_of_writesType (h : (exportDevice options device).outcome = .ok ())
    {e : Element} {outer : List Element} (hwrites : WritesType options device (e :: outer)) :
    ∃ unit ∈ writtenUnits (exportDevice options device).events,
      HasLine options.indentation (declarationLine options e) unit.text := by
  rcases hwrites with ⟨p, hp, hunit, place, t, hdeclared, hway⟩
  have hat := Site.mem_declarations_levelOrder.mp hdeclared
  rcases Site.exists_outer hat with ⟨outer', houter⟩
  obtain ⟨rfl, -⟩ := List.cons.inj (hway.symm.trans houter)
  rcases List.mem_flatMap.mp (Site.mem_sites_sections.mpr ⟨place, hat⟩) with ⟨s, hs, ht⟩
  have helement : t.element ∈ s.elements := by
    rcases List.mem_map.mp ht with ⟨e, he, rfl⟩
    exact he
  have hwritten := (exported_of_exportDevice h).written p hp
  exact ⟨_, hunit, hasLine_of_mem_sections hwritten hs helement⟩

/--
In an export of all peripherals of a valid device, every alias has a base in the
device.  Every alias has a base whose type is written too exactly if every alias that
the device shows has a base that it shows.
-/
theorem exportDevice_bases_written_iff (hvalidate : options.validateDerivations = true)
    (hall : options.selectedPeripherals = [])
    (h : (exportDevice options device).outcome = .ok ()) :
    (∀ way, WritesType options device way → IsAlias way → ∃ base, IsBase device way base) ∧
      ((∀ way, WritesType options device way → IsAlias way →
          ∃ base, IsBase device way base ∧ WritesType options device base) ↔
        ∀ way, ShownWay device way → IsAlias way →
          ∃ base, IsBase device way base ∧ ShownWay device base) ∧
      ∀ e outer, WritesType options device (e :: outer) →
        ∃ unit ∈ writtenUnits (exportDevice options device).events,
          HasLine options.indentation (declarationLine options e) unit.text := by
  have hvalid := validate_of_exportDevice hvalidate h
  refine ⟨?_, ?_, fun e outer => exists_hasLine_of_writesType h⟩
  · intro way hwrites halias
    rcases (writesType_iff_shownWay hall h halias.ne_register).mp hwrites with ⟨p, hp, -, hway⟩
    exact exists_isBase hvalid (hway.deviceWay hp) halias
  · refine forall_congr' fun way => ?_
    constructor
    · intro hbases hshown halias
      have hwrites := (writesType_iff_shownWay hall h halias.ne_register).mpr hshown
      rcases hbases hwrites halias with ⟨base, hbase, hwritten⟩
      exact ⟨base, hbase, (writesType_iff_shownWay hall h hbase.ne_register).mp hwritten⟩
    · intro hbases hwrites halias
      have hshown := (writesType_iff_shownWay hall h halias.ne_register).mp hwrites
      rcases hbases hshown halias with ⟨base, hbase, hshown⟩
      exact ⟨base, hbase, (writesType_iff_shownWay hall h hbase.ne_register).mpr hshown⟩

/-! ### A base with and without replicas -/

def baseOf (dimension : Option Dimension) : Peripheral where
  name := "A"
  baseAddress := 0x1000
  dimension := dimension

def derivedOfBase : Peripheral where
  name := "B"
  baseAddress := 0x2000
  derivedFrom := some "A"

def derivedDevice (dimension : Option Dimension) : Device where
  name := "D"
  peripherals := [baseOf dimension, derivedOfBase]

/-- The base is repeated, but its count is zero. -/
def emptyBaseDocument : Xml.Element :=
  deviceDocument "D" [
    groupNode "peripheral" [
      textNode "name" "A", textNode "baseAddress" "0x1000", textNode "dim" "0"],
    .element (.mk ⟨none, "peripheral"⟩ [⟨⟨none, "derivedFrom"⟩, "A"⟩] 1 [
      textNode "name" "B", textNode "baseAddress" "0x2000"])]

def noReplicas : Dimension where
  count := some 0

theorem selectPeripherals_derivedDevice (dimension : Option Dimension) :
    selectPeripherals (derivedDevice dimension) [] = .ok (derivedDevice dimension).peripherals := by
  have hsorted : sortByName (derivedDevice dimension).peripherals =
      (derivedDevice dimension).peripherals := by
    refine List.mergeSort_of_pairwise ?_
    simp [derivedDevice, baseOf, derivedOfBase]
  rw [← hsorted]
  rfl

theorem validate_derivedDevice (dimension : Option Dimension) :
    validate (derivedDevice dimension) = .ok () := by
  refine validate_of_reachable rfl (unreachable_eq_nil_iff.mpr ?_)
  have hbase : ReachesDefinition (derivedDevice dimension).peripherals (baseOf dimension) :=
    .definition rfl
  intro p hp
  rcases List.mem_cons.mp hp with rfl | hp
  · exact hbase
  · obtain rfl := List.mem_singleton.mp hp
    exact .derived rfl List.mem_cons_self hbase

theorem exportDevice_derivedDevice : (exportDevice {} (derivedDevice none)).outcome = .ok () := by
  refine exportDevice_of_parts (validate_derivedDevice none) (selectPeripherals_derivedDevice none)
    rfl ?_
  intro pair hpair
  rcases List.mem_cons.mp hpair with rfl | hpair
  · exact ⟨_, rfl⟩
  · obtain rfl := List.mem_singleton.mp hpair
    exact ⟨_, rfl⟩

theorem exportDevice_emptyBase :
    (exportDevice {} (derivedDevice (some noReplicas))).outcome = .ok () := by
  refine exportDevice_of_parts (validate_derivedDevice _) (selectPeripherals_derivedDevice _)
    rfl ?_
  intro pair hpair
  obtain rfl := List.mem_singleton.mp hpair
  exact ⟨_, rfl⟩

theorem names_units_emptyBase :
    (writtenUnits (exportDevice {} (derivedDevice (some noReplicas))).events).map (·.name) =
      ["Device.swift", "B.swift"] := by
  have hselected := selectPeripherals_derivedDevice (some noReplicas)
  rw [names_writtenUnits exportDevice_emptyBase]
  simp only [unitTypeNames, exportedPeripherals, hselected]
  rfl

theorem eq_of_declaredWay {p : Peripheral} (hp : (Element.peripheral p).allMembers = [])
    {way : List Element} (h : DeclaredWay device p way) : way = [.peripheral p] := by
  induction h with
  | peripheral => rfl
  | member _ _ hm _ ih =>
      obtain ⟨rfl, rfl⟩ := List.cons.inj ih
      rw [hp] at hm
      cases hm

theorem exportDevice_bases_written_iff_pair :
    (exportDevice {} (derivedDevice none)).outcome = .ok () ∧
      ∀ way, WritesType {} (derivedDevice none) way → IsAlias way →
        ∃ base, IsBase (derivedDevice none) way base ∧ WritesType {} (derivedDevice none) base := by
  have hbases := exportDevice_bases_written_iff rfl rfl exportDevice_derivedDevice
  refine ⟨exportDevice_derivedDevice, hbases.2.1.mpr ?_⟩
  rintro way ⟨p, hp, -, hway⟩ ⟨e, outer, rfl, hderived⟩
  have hmem : baseOf none ∈ (derivedDevice none).peripherals := List.mem_cons_self
  have hshown : ShownWay (derivedDevice none) [.peripheral (baseOf none)] := by
    refine ⟨baseOf none, hmem, ?_, .peripheral⟩
    simp [Element.LeftOut, Element.IsRegister, NoReplica, Element.dimension, baseOf]
  rcases List.mem_cons.mp hp with rfl | hp
  · obtain ⟨rfl, -⟩ := List.cons.inj (eq_of_declaredWay rfl hway)
    cases hderived
  · obtain rfl := List.mem_singleton.mp hp
    rw [eq_of_declaredWay rfl hway]
    exact ⟨_, .peripheral rfl hmem, hshown⟩

/-- A base that is repeated no times is not written, though validation finds it. -/
theorem exportDevice_alias_without_base :
    decodeDevice emptyBaseDocument = .ok (derivedDevice (some noReplicas)) ∧
      validate (derivedDevice (some noReplicas)) = .ok () ∧
      (exportDevice {} (derivedDevice (some noReplicas))).outcome = .ok () ∧
      (writtenUnits (exportDevice {} (derivedDevice (some noReplicas))).events).map (·.name) =
        ["Device.swift", "B.swift"] ∧
      ¬∀ way, WritesType {} (derivedDevice (some noReplicas)) way → IsAlias way →
        ∃ base, IsBase (derivedDevice (some noReplicas)) way base ∧
          WritesType {} (derivedDevice (some noReplicas)) base := by
  refine ⟨rfl, validate_derivedDevice _, exportDevice_emptyBase, names_units_emptyBase, ?_⟩
  intro hbases
  have hmem : derivedOfBase ∈ (derivedDevice (some noReplicas)).peripherals :=
    List.mem_cons_of_mem _ (List.mem_singleton_self _)
  have hshown : ShownWay (derivedDevice (some noReplicas)) [.peripheral derivedOfBase] := by
    refine ⟨derivedOfBase, hmem, ?_, .peripheral⟩
    simp [Element.LeftOut, Element.IsRegister, NoReplica, Element.dimension, derivedOfBase]
  have hwrites := (writesType_iff_shownWay rfl exportDevice_emptyBase (by simp)).mpr hshown
  rcases hbases _ hwrites ⟨_, _, rfl, rfl⟩ with ⟨base, hbase, hwritten⟩
  have hkind := hbase.ne_register
  rcases (writesType_iff_shownWay rfl exportDevice_emptyBase hkind).mp hwritten with
    ⟨p, hp, hp', hway⟩
  cases hbase with
  | @peripheral _ q hname hq =>
      cases hway
      apply hp'
      rcases List.mem_cons.mp hq with rfl | hq
      · exact .inr ⟨noReplicas, rfl, 0, rfl, .inl (Int.le_refl 0)⟩
      · obtain rfl := List.mem_singleton.mp hq
        exact absurd hname (by decide)

end RegisterMap.Export
