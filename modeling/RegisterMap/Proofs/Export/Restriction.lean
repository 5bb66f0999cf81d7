import RegisterMap.Proofs.Export.OtherSelection
import RegisterMap.Proofs.Swift.UnitStore

/-!
# Exports of some of the peripherals

If the units of a device can be told apart by their names, an export of some of its
peripherals is a part of the export of all of them: the units of these peripherals are
the same, and the unit of the device declares their instances in the same order.
-/

namespace RegisterMap.Export

open RegisterMap.Derivation RegisterMap.Model RegisterMap.Report RegisterMap.Swift

/-- True of a device whose units have names of their own. -/
structure NamesApart (device : Device) : Prop where
  distinct : (device.peripherals.map fun p => swiftName p.name).Nodup
  ne_device : ∀ p ∈ device.peripherals, swiftName p.name ≠ "Device"

/-- True of the unit of a peripheral with one of some names. -/
def belongsTo (names : List String) (unit : SourceUnit) : Bool :=
  names.any fun name => unit.name == swiftName name ++ ".swift"

/-- The units that are kept by a store when it is given some units one after the other. -/
def keptUnits (units : List SourceUnit) : List SourceUnit :=
  (UnitStore.ofUnits units).units

variable {options : Options} {device : Device} {names : List String}

namespace NamesApart

theorem nodup_peripheralNames (h : NamesApart device) : device.peripheralNames.Nodup := by
  have hdistinct := h.distinct
  rw [← Function.comp_def, ← List.map_map] at hdistinct
  exact .of_map swiftName hdistinct

theorem belongsTo_deviceUnit (h : NamesApart device)
    (hknown : ∀ name ∈ names, name ∈ device.peripheralNames) (exported : List Peripheral) :
    belongsTo names (deviceUnit options device exported) = false := by
  rw [belongsTo, List.any_eq_false]
  intro name hname
  rcases List.mem_map.mp (hknown name hname) with ⟨p, hp, rfl⟩
  have hne : "Device" ++ ".swift" ≠ swiftName p.name ++ ".swift" := by
    rw [ne_eq, String.append_left_inj]
    exact (h.ne_device p hp).symm
  simpa [deviceUnit, deviceUnitName] using hne

theorem belongsTo_peripheralUnit (h : NamesApart device)
    (hknown : ∀ name ∈ names, name ∈ device.peripheralNames) {p : Peripheral}
    (hp : p ∈ device.peripherals) :
    belongsTo names (peripheralUnit options device p) = names.contains p.name := by
  rw [Bool.eq_iff_iff, belongsTo, List.any_eq_true, List.contains_iff_mem]
  constructor
  · intro ⟨name, hname, hunit⟩
    rcases List.mem_map.mp (hknown name hname) with ⟨q, hq, rfl⟩
    have hsame : swiftName p.name ++ ".swift" = swiftName q.name ++ ".swift" := by
      simpa [peripheralUnit, unitName] using hunit
    rw [String.append_left_inj] at hsame
    rwa [List.inj_on_of_nodup_map h.distinct hp hq hsame]
  · intro hname
    exact ⟨p.name, hname, by simp [peripheralUnit, unitName]⟩

/-- The units that belong to some names are those of the peripherals with these names. -/
theorem filter_belongsTo (h : NamesApart device)
    (hknown : ∀ name ∈ names, name ∈ device.peripheralNames) {exported : List Peripheral}
    (hexported : ∀ p ∈ exported, p ∈ device.peripherals) :
    (deviceUnit options device exported :: exported.map (peripheralUnit options device)).filter
        (belongsTo names) =
      (exported.filter fun p => names.contains p.name).map (peripheralUnit options device) := by
  have hown : belongsTo names (deviceUnit options device exported) = false :=
    h.belongsTo_deviceUnit hknown exported
  rw [List.filter_cons, hown, if_neg Bool.false_ne_true, List.filter_map]
  refine congrArg _ (List.filter_congr fun p hp => ?_)
  exact h.belongsTo_peripheralUnit hknown (hexported p hp)

/-- A store keeps all units of some of the peripherals, each of them once. -/
theorem keptUnits_eq (h : NamesApart device) {exported : List Peripheral}
    (hexported : exported.Sublist (sortByName device.peripherals)) :
    keptUnits (deviceUnit options device exported ::
        exported.map (peripheralUnit options device)) =
      deviceUnit options device exported :: exported.map (peripheralUnit options device) := by
  have hsorted := sortByName_perm device.peripherals
  have htypes : ("Device" :: exported.map fun p => swiftName p.name).Nodup := by
    refine List.nodup_cons.mpr ⟨?_, ?_⟩
    · intro hmem
      rcases List.mem_map.mp hmem with ⟨p, hp, hname⟩
      exact h.ne_device p (hsorted.mem_iff.mp (hexported.subset hp)) hname
    · exact ((hsorted.map _).nodup_iff.mpr h.distinct).sublist (hexported.map _)
  refine UnitStore.units_ofUnits_of_nodup ?_
  have hinjective : Function.Injective fun type : String => type ++ ".swift" :=
    fun _ _ heq => (String.append_left_inj _).mp heq
  have hnames := htypes.map hinjective
  rw [List.map_cons, List.map_map] at hnames ⊢
  exact hnames

end NamesApart

/-- How the export of the peripherals with some names is a part of the export of all. -/
structure Restricts (options : Options) (device : Device) (names : List String)
    (whole part : Exporting Unit) : Prop where
  finishes : part.outcome = .ok ()
  /-- What the instances of a peripheral are does not depend on the selection. -/
  instances : ∀ p ∈ exportedPeripherals options device,
    (peripheralAccessors options device.properties p).outcome =
      .ok (instanceTexts options device.properties p)
  whole_units : writtenUnits whole.events =
    deviceUnit options device (exportedPeripherals options device) ::
      (exportedPeripherals options device).map (peripheralUnit options device)
  /-- The unit of the device declares the instances of the named peripherals only, and the
  other units are those of the whole export that belong to these peripherals. -/
  part_units : writtenUnits part.events =
    deviceUnit options device
        ((exportedPeripherals options device).filter fun p => names.contains p.name) ::
      (writtenUnits whole.events).filter (belongsTo names)
  /-- No unit takes the place of another one. -/
  whole_kept : keptUnits (writtenUnits whole.events) = writtenUnits whole.events
  part_kept : keptUnits (writtenUnits part.events) = writtenUnits part.events

theorem shownPeripherals_named (device : Device) (names : List String) :
    shownPeripherals device (namedPeripherals device names) =
      (shownPeripherals device (sortByName device.peripherals)).filter
        fun p => names.contains p.name := by
  rw [shownPeripherals, namedPeripherals, List.filter_comm]
  rfl

theorem selectPeripherals_all (hall : options.selectedPeripherals = []) :
    selectPeripherals device options.selectedPeripherals =
      .ok (sortByName device.peripherals) := by
  rw [hall]
  rfl

/-- If all peripherals of a device can be exported, so can those with some names. -/
theorem exportDevice_selecting_named
    (hselected : selectPeripherals device options.selectedPeripherals =
      .ok (sortByName device.peripherals))
    (hnamed : selectPeripherals device names = .ok (namedPeripherals device names))
    (h : (exportDevice options device).outcome = .ok ()) :
    (exportDevice (options.selecting names options.validateDerivations) device).outcome =
      .ok () := by
  have hfits : SelectionFits options device (namedPeripherals device names) :=
    (events_exportDevice hselected h).1.filter fun p => names.contains p.name
  have hvalid : options.validateDerivations = true → validate device = .ok () :=
    fun hvalidate => validate_of_exportDevice hvalidate h
  have hrun : exportDevice (options.selecting names options.validateDerivations) device =
      exportSelected (options.selecting names options.validateDerivations) device :=
    exportDevice_of_valid hvalid
  rw [hrun]
  exact (exportSelected_settled hnamed).outcome_iff.mpr ⟨selectionFits_selecting.mpr hfits, rfl⟩

/--
If all peripherals of a device can be exported, so can any of them.  The units that are
written then are those of the whole export that belong to the selected peripherals, and
the unit of the device with the instances of these peripherals.
-/
theorem exportDevice_restricts (hapart : NamesApart device)
    (hall : options.selectedPeripherals = []) (h : (exportDevice options device).outcome = .ok ())
    (hne : names ≠ []) (hknown : ∀ name ∈ names, name ∈ device.peripheralNames) :
    Restricts options device names (exportDevice options device)
      (exportDevice { options with selectedPeripherals := names } device) := by
  have hselected : selectPeripherals device options.selectedPeripherals =
      .ok (sortByName device.peripherals) := selectPeripherals_all hall
  have hnamed : selectPeripherals device names = .ok (namedPeripherals device names) :=
    selectPeripherals_of_known hapart.nodup_peripheralNames hne hknown
  have hexported := exportedPeripherals_eq hselected
  have hsub : (exportedPeripherals options device).Sublist (sortByName device.peripherals) := by
    rw [hexported]
    exact List.filter_sublist
  have hpart := exportDevice_selecting_named hselected hnamed h
  have hwhole := writtenUnits_exportDevice hselected h
  rw [selectionUnits, ← hexported] at hwhole
  have hnamedUnits :
      writtenUnits (exportDevice { options with selectedPeripherals := names } device).events =
        selectionUnits options device (namedPeripherals device names) :=
    writtenUnits_exportDevice hnamed hpart
  rw [selectionUnits, shownPeripherals_named, ← hexported] at hnamedUnits
  refine ⟨hpart, ?_, hwhole, ?_, ?_, ?_⟩
  · intro p hp
    have hfits := (events_exportDevice hselected h).1
    rw [hexported] at hp
    exact (peripheralAccessors_settled options device.properties p).outcome_iff.mpr
      ⟨hfits.instances p (List.mem_filter.mp hp).1, rfl⟩
  · rw [hwhole, hnamedUnits,
      hapart.filter_belongsTo hknown fun p hp => mem_device_of_exported hp]
  · rw [hwhole]
    exact hapart.keptUnits_eq hsub
  · rw [hnamedUnits]
    exact hapart.keptUnits_eq (List.filter_sublist.trans hsub)

theorem namesApart_boardDevice : NamesApart boardDevice :=
  ⟨by decide, by decide⟩

theorem exportDevice_restricts_board :
    (exportDevice {} boardDevice).outcome = .ok () ∧
      Restricts {} boardDevice ["UART", "TIMER[%s]", "UART"] (exportDevice {} boardDevice)
        (exportDevice { selectedPeripherals := ["UART", "TIMER[%s]", "UART"] } boardDevice) := by
  refine ⟨exportDevice_boardDevice, ?_⟩
  exact exportDevice_restricts namesApart_boardDevice rfl exportDevice_boardDevice (by decide)
    (by decide)

end RegisterMap.Export
