import RegisterMap.Proofs.Description.Words
import RegisterMap.Proofs.Derivation.Validation
import RegisterMap.Proofs.Export.Declared
import RegisterMap.Proofs.Export.DeviceUnit
import RegisterMap.Proofs.Swift.PlainText
import RegisterMap.Proofs.Swift.UnitStore

/-!
# Stored units of a device

The unit of a device holds all instances, and the unit of a peripheral declares
its type.  Units are stored by names that are made from names of the device, so
all of them are kept exactly if these names stay apart.
-/

namespace RegisterMap.Export

open RegisterMap.Description (decodeDevice deviceDocument groupNode textNode)
open RegisterMap.Model RegisterMap.Number RegisterMap.Report RegisterMap.Swift

/-! ## Lines of declarations -/

theorem isLine_instanceLine (options : Options) (p : Peripheral) (r : Replica) :
    IsLine (instanceLine (instanceSubject options p) p.baseAddress r) := by
  have hmodifiers := isPlain_instanceModifiers options
  have hname := isPlain_swiftName p.name
  have hproperty : IsPlain (identifier (instanceName (swiftName p.name) ++ r.suffix)) :=
    (isPlain_append.mpr ⟨hname.instanceName, isPlain_suffix r⟩).identifier
  have hplain : IsPlain (instanceLine (instanceSubject options p) p.baseAddress r) := by
    simp only [instanceLine, instanceSubject, Subject.propertyName, isPlain_append]
    exact ⟨⟨⟨⟨⟨⟨⟨hmodifiers, by decide⟩, hproperty⟩, by decide⟩, hname.identifier⟩, by decide⟩,
      isPlain_hexLiteral _⟩, by decide⟩
  exact hplain.isLine (by simp [instanceLine, String.toList_append] : 'l' ∈ _) (by decide)

/-! ## Lines of units -/

theorem hasLine_deviceUnit {options : Options} {device : Device} {exported : List Peripheral}
    {p : Peripheral} (hp : p ∈ exported) {x : Expansion}
    (hx : peripheralExpansion? p (p.properties.inheriting device.properties) = some x)
    {r : Replica} (hr : r ∈ x.replicas) :
    HasLine options.indentation (instanceLine (instanceSubject options p) p.baseAddress r)
      (deviceUnit options device exported).text := by
  have htext : (instanceSubject options p).documented
        [instanceLine (instanceSubject options p) p.baseAddress r] ∈
      exported.flatMap (instanceTexts options device.properties) := by
    refine List.mem_flatMap.mpr ⟨p, hp, ?_⟩
    simp only [instanceTexts, hx]
    exact List.mem_map_of_mem hr
  have hbody := Code.mem_spaced (List.mem_map_of_mem (f := fun text => [Code.lines text]) htext)
    (List.mem_singleton_self _)
  have hshows := Code.shows_documented (instanceSubject options p)
    (instanceLine (instanceSubject options p) p.baseAddress r)
  have hline := isLine_instanceLine options p r
  unfold deviceUnit deviceCode
  split
  · exact Code.hasLine_text _ hline (List.mem_cons_of_mem _ (List.mem_singleton_self _))
      (.inside _ hbody hshows)
  · exact Code.hasLine_text _ hline (List.mem_cons_of_mem _ hbody) hshows

/-- The unit of a peripheral declares the types of the elements of its sections. -/
theorem hasLine_of_mem_sections {options : Options} {device : Device} {p : Peripheral}
    (h : (writePeripheralUnit options device p).outcome = .ok ()) {s : Section}
    (hs : s ∈ (peripheralSite options device p).sections) {e : Element} (he : e ∈ s.elements) :
    HasLine options.indentation (declarationLine options e)
      (peripheralUnit options device p).text := by
  have hunit := writtenUnits_writePeripheralUnit h
  rcases writePeripheralUnit_eq_ok h with ⟨codes, hcodes, hunits⟩
  rw [hunits, List.singleton_inj] at hunit
  rw [← hunit]
  exact (showsSection_of_mem hcodes hs).types e he

theorem hasLine_peripheralUnit {options : Options} {device : Device} {p : Peripheral}
    (h : (writePeripheralUnit options device p).outcome = .ok ()) :
    ∃ text, writtenUnits (writePeripheralUnit options device p).events = [⟨unitName p, text⟩] ∧
      HasLine options.indentation (declarationLine options (.peripheral p)) text :=
  ⟨_, writtenUnits_writePeripheralUnit h,
    hasLine_of_mem_sections h List.mem_cons_self (List.mem_singleton_self _)⟩

/-! ## What is stored -/

/-- The units of a device as they are stored, one after the other. -/
def storedUnits (options : Options) (device : Device) : List SourceUnit :=
  (UnitStore.ofUnits (writtenUnits (exportDevice options device).events)).units

/-- True of an export whose units are all stored with what they declare. -/
structure NothingLost (options : Options) (device : Device) : Prop where
  /-- There is one unit for the device and one for each peripheral with an instance. -/
  count : (storedUnits options device).length = (exportedPeripherals options device).length + 1
  /-- The unit of the device holds all instances. -/
  instances : ∃ unit ∈ storedUnits options device, unit.name = deviceUnitName ∧
    ∀ p ∈ exportedPeripherals options device, ∀ x,
      peripheralExpansion? p (p.properties.inheriting device.properties) = some x →
      ∀ r ∈ x.replicas, HasLine options.indentation
        (instanceLine (instanceSubject options p) p.baseAddress r) unit.text
  /-- The type of each peripheral with an instance is declared in some unit. -/
  types : ∀ p ∈ exportedPeripherals options device, ∃ unit ∈ storedUnits options device,
    HasLine options.indentation (declarationLine options (.peripheral p)) unit.text

/-- The names of the types that name the units of an export. -/
def unitTypeNames (options : Options) (device : Device) : List String :=
  "Device" :: (exportedPeripherals options device).map fun p => swiftName p.name

theorem names_writtenUnits {options : Options} {device : Device}
    (h : (exportDevice options device).outcome = .ok ()) :
    (writtenUnits (exportDevice options device).events).map (·.name) =
      (unitTypeNames options device).map (· ++ ".swift") := by
  have hexported := exported_of_exportDevice h
  have hname : ∀ p ∈ exportedPeripherals options device,
      (writtenUnits (writePeripheralUnit options device p).events).map (·.name) =
        [unitName p] := by
    intro p hp
    rcases hasLine_peripheralUnit (hexported.written p hp) with ⟨text, hunits, -⟩
    rw [hunits, List.map_singleton]
  rw [hexported.units, List.map_cons, List.map_flatMap, List.flatMap_congr hname, unitTypeNames,
    List.map_cons, List.map_map, ← List.map_eq_flatMap]
  rfl

theorem nodup_names_writtenUnits_iff {options : Options} {device : Device}
    (h : (exportDevice options device).outcome = .ok ()) :
    ((writtenUnits (exportDevice options device).events).map (·.name)).Nodup ↔
      (unitTypeNames options device).Nodup := by
  rw [names_writtenUnits h]
  refine List.nodup_map_iff ?_
  intro a b hab
  exact (String.append_left_inj _).mp hab

theorem length_writtenUnits {options : Options} {device : Device}
    (h : (exportDevice options device).outcome = .ok ()) :
    (writtenUnits (exportDevice options device).events).length =
      (exportedPeripherals options device).length + 1 := by
  have hnames := congrArg List.length (names_writtenUnits h)
  simpa [unitTypeNames] using hnames

theorem NothingLost.nodup {options : Options} {device : Device}
    (hkept : NothingLost options device) (h : (exportDevice options device).outcome = .ok ()) :
    (unitTypeNames options device).Nodup := by
  rw [← nodup_names_writtenUnits_iff h]
  exact UnitStore.nodup_of_length_ofUnits (hkept.count.trans (length_writtenUnits h).symm)

/--
No unit of an export is lost exactly if the names of its peripherals with an instance
stay apart from each other and from the name of the device unit as Swift names.
-/
theorem exportDevice_nothingLost_iff {options : Options} {device : Device}
    (h : (exportDevice options device).outcome = .ok ()) :
    (∃ selected, selectPeripherals device options.selectedPeripherals = .ok selected ∧
        (writeDeviceUnit options device selected).outcome =
          .ok (exportedPeripherals options device)) ∧
      (NothingLost options device ↔ (unitTypeNames options device).Nodup) := by
  have hexported := exported_of_exportDevice h
  refine ⟨hexported.declared, ?_⟩
  constructor
  · intro hkept
    exact hkept.nodup h
  · intro hnodup
    have hstored : storedUnits options device =
        writtenUnits (exportDevice options device).events :=
      UnitStore.units_ofUnits_of_nodup ((nodup_names_writtenUnits_iff h).mpr hnodup)
    refine ⟨?_, ?_, ?_⟩
    · rw [hstored, length_writtenUnits h]
    · rw [hstored, hexported.units]
      exact ⟨_, List.mem_cons_self, rfl, fun p hp x hx r hr => hasLine_deviceUnit hp hx hr⟩
    · intro p hp
      rcases hasLine_peripheralUnit (hexported.written p hp) with ⟨text, hunits, hline⟩
      rw [hstored, hexported.units]
      refine ⟨⟨unitName p, text⟩, List.mem_cons_of_mem _ (List.mem_flatMap.mpr ⟨p, hp, ?_⟩), hline⟩
      rw [hunits]
      exact List.mem_singleton_self _

/-! ### Devices with one peripheral -/

def plainDocument (name : String) : Xml.Element :=
  deviceDocument "D" [groupNode "peripheral" [
    textNode "name" name, textNode "baseAddress" "0x40000000"]]

def plainDevice (name : String) : Device where
  name := "D"
  peripherals := [{ name, baseAddress := 0x40000000 }]

theorem selectPeripherals_plainDevice (name : String) :
    selectPeripherals (plainDevice name) [] = .ok (plainDevice name).peripherals := by
  simp [selectPeripherals, sortByName, plainDevice]
  rfl

theorem exportDevice_plainDevice (name : String) :
    (exportDevice {} (plainDevice name)).outcome = .ok () := by
  refine exportDevice_of_parts ?_ (selectPeripherals_plainDevice name) rfl ?_
  · exact Derivation.validate_of_definitions (by simp [plainDevice])
      (by simp [Derivation.deviceClusters, plainDevice, Derivation.pathsOfAll])
  · intro pair hpair
    obtain rfl := List.mem_singleton.mp hpair
    exact ⟨_, rfl⟩

theorem unitTypeNames_plainDevice (name : String) :
    unitTypeNames {} (plainDevice name) = ["Device", swiftName name] := by
  have hselected := selectPeripherals_plainDevice name
  simp only [unitTypeNames, exportedPeripherals, hselected]
  rfl

theorem exportDevice_nothingLost_iff_timer :
    (exportDevice {} (plainDevice "TIMER")).outcome = .ok () ∧
      NothingLost {} (plainDevice "TIMER") := by
  have hnames : (unitTypeNames {} (plainDevice "TIMER")).Nodup := by
    rw [unitTypeNames_plainDevice]
    decide
  have hok := exportDevice_plainDevice "TIMER"
  exact ⟨hok, (exportDevice_nothingLost_iff hok).2.mpr hnames⟩

/-- The unit of a peripheral named like the unit of the device replaces it. -/
theorem exportDevice_loses_device_unit :
    decodeDevice (plainDocument "Device") = .ok (plainDevice "Device") ∧
      (exportDevice {} (plainDevice "Device")).outcome = .ok () ∧
      ¬NothingLost {} (plainDevice "Device") := by
  refine ⟨rfl, exportDevice_plainDevice "Device", ?_⟩
  intro hkept
  have hnames := hkept.nodup (exportDevice_plainDevice "Device")
  rw [unitTypeNames_plainDevice] at hnames
  exact absurd hnames (by decide)

end RegisterMap.Export
