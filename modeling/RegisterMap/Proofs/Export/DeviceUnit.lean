import RegisterMap.Proofs.Export.Accessors
import RegisterMap.Proofs.Export.PeripheralUnit

/-!
# The units of a device

An export that comes to its end has selected its peripherals, found those with an
instance, and finished the unit of the device and then one unit for each of them.
-/

namespace RegisterMap.Export

open RegisterMap.Derivation RegisterMap.Model RegisterMap.Report RegisterMap.Swift

/-! ## Selected and exported peripherals -/

theorem mem_of_findPeripheral {device : Device} {name : String} {p : Peripheral}
    (h : findPeripheral device name = .ok p) : p ∈ device.peripherals ∧ p.name = name := by
  unfold findPeripheral at h
  split at h
  · rename_i q hq
    cases h
    exact ⟨List.mem_reverse.mp (List.mem_of_find?_eq_some hq), by simpa using List.find?_some hq⟩
  · cases h

theorem mem_of_selectPeripherals {device : Device} {names : List String}
    {selected : List Peripheral} (h : selectPeripherals device names = .ok selected) :
    ∀ p ∈ selected, p ∈ device.peripherals := by
  rw [selectPeripherals] at h
  intro p hp
  split at h
  · cases h
    rwa [sortByName, List.mem_mergeSort] at hp
  · rcases Outcome.bind_eq_ok_iff.mp h with ⟨peripherals, hperipherals, hsorted⟩
    cases hsorted
    rw [sortByName, List.mem_mergeSort] at hp
    obtain ⟨name, -, hname⟩ :=
      Outcome.exists_mem_left (Outcome.mapM_eq_ok_iff.mp hperipherals) hp
    exact (mem_of_findPeripheral hname).1

/-- The selected peripherals that get an instance, in the order of their names. -/
def exportedPeripherals (options : Options) (device : Device) : List Peripheral :=
  match selectPeripherals device options.selectedPeripherals with
  | .error _ => []
  | .ok selected => selected.filter (isExportedPeripheral device.properties)

theorem mem_device_of_exported {options : Options} {device : Device} {p : Peripheral}
    (h : p ∈ exportedPeripherals options device) : p ∈ device.peripherals := by
  unfold exportedPeripherals at h
  split at h
  · cases h
  · rename_i selected hselected
    exact mem_of_selectPeripherals hselected p (List.mem_filter.mp h).1

theorem isExported_of_mem {options : Options} {device : Device} {p : Peripheral}
    (h : p ∈ exportedPeripherals options device) :
    isExportedPeripheral device.properties p = true := by
  unfold exportedPeripherals at h
  split at h
  · cases h
  · exact (List.mem_filter.mp h).2

/-! ## The unit of the device -/

theorem instances_settled (options : Options) (device : Device) (peripherals : List Peripheral) :
    Trace.Settled IsOverflow (instances options device peripherals)
      (∀ p ∈ peripherals, InstancesFit device.properties p)
      ((peripherals.filter (isExportedPeripheral device.properties)).map
        fun p => (p, instanceTexts options device.properties p))
      (peripherals.flatMap (instanceEvents device.properties)) := by
  induction peripherals with
  | nil => exact (Trace.Settled.pure []).of_iff (by simp)
  | cons p peripherals ih =>
      have hexported := instanceTexts_ne_nil_iff options device.properties p
      have hown := peripheralAccessors_settled options device.properties p
      have hothers := ih.map fun others =>
        if (instanceTexts options device.properties p).isEmpty then others
        else (p, instanceTexts options device.properties p) :: others
      have hvalue : (if (instanceTexts options device.properties p).isEmpty then
            (peripherals.filter (isExportedPeripheral device.properties)).map
              fun p => (p, instanceTexts options device.properties p)
          else (p, instanceTexts options device.properties p) ::
            (peripherals.filter (isExportedPeripheral device.properties)).map
              fun p => (p, instanceTexts options device.properties p)) =
          ((p :: peripherals).filter (isExportedPeripheral device.properties)).map
            fun p => (p, instanceTexts options device.properties p) := by
        by_cases hp : isExportedPeripheral device.properties p = true
        · simp [hp, hexported.mpr hp]
        · have hnil : instanceTexts options device.properties p = [] := by
            by_contra hne
            exact hp (hexported.mp hne)
          simp [hp, hnil]
      rw [instances, List.forall_mem_cons, List.flatMap_cons, ← hvalue]
      exact hown.bind fun _ => hothers

def deviceCode (options : Options) (device : Device) (exported : List Peripheral) : List Code :=
  let body := Code.declarations (exported.flatMap (instanceTexts options device.properties))
  if options.namespaceUnderDevice then
    let subject : Subject :=
      ⟨device.description, deviceTypeName options device, options.modifiers⟩
    [.block (subject.namespaceHeading options.instanceMemberPeripherals) body]
  else body

def deviceUnit (options : Options) (device : Device) (exported : List Peripheral) : SourceUnit :=
  ⟨deviceUnitName, Code.text options.indentation
    (fileHeader :: deviceCode options device exported)⟩

theorem writeDeviceUnit_eq_ok {options : Options} {device : Device}
    {peripherals exported : List Peripheral}
    (h : (writeDeviceUnit options device peripherals).outcome = .ok exported) :
    exported = peripherals.filter (isExportedPeripheral device.properties) ∧
      (∀ p ∈ exported, ∀ x,
        peripheralExpansion? p (p.properties.inheriting device.properties) = some x →
        ReplicasFit p.baseAddress x) ∧
      writtenUnits (writeDeviceUnit options device peripherals).events =
        [deviceUnit options device exported] := by
  have hnone := instances_finishesNone options device peripherals
  rw [writeDeviceUnit] at h ⊢
  rcases Trace.outcome_bind_eq_ok_iff.mp h with ⟨declared, hdeclared, h⟩
  rcases (instances_settled options device peripherals).outcome_iff.mp hdeclared with ⟨hfits, rfl⟩
  rw [Trace.events_bind_of_ok hdeclared, writtenUnits_append, hnone, List.nil_append]
  simp only [finishUnit_eq, List.map_map] at h ⊢
  rcases Trace.outcome_bind_eq_ok_iff.mp h with ⟨⟨⟩, -, h⟩
  have hexported : exported = peripherals.filter (isExportedPeripheral device.properties) := by
    rw [← Except.ok.inj h]
    exact List.map_id _
  refine ⟨hexported, ?_, ?_⟩
  · intro p hp
    rw [hexported] at hp
    exact hfits p (List.mem_filter.mp hp).1
  · rw [hexported, deviceUnit, deviceCode, List.flatMap_map]
    rfl

/-! ## The export -/

theorem reportMissingBases_finishesNone (peripherals : List Peripheral) :
    FinishesNone (reportMissingBases peripherals) := by
  unfold FinishesNone reportMissingBases
  rw [Trace.events_recordAll, writtenUnits, List.filterMap_filterMap, List.filterMap_eq_nil_iff]
  intro p _
  cases p.derivedFrom with
  | none => rfl
  | some base =>
      simp only [Option.bind_eq_none_iff]
      intro event hevent
      split at hevent
      · cases hevent
      · cases hevent
        rfl

/-- The export of a device whose references are not in question. -/
def exportSelected (options : Options) (device : Device) : Exporting Unit := do
  let selected ← Trace.ofExcept .selection (selectPeripherals device options.selectedPeripherals)
  reportMissingBases selected
  let exported ← writeDeviceUnit options device selected
  exported.forM (writePeripheralUnit options device)

theorem exportDevice_eq (options : Options) (device : Device) :
    exportDevice options device =
      (if options.validateDerivations then Trace.ofExcept .derivation (validate device)
        else pure ()) >>= fun _ => exportSelected options device := by
  unfold exportDevice
  split
  · rfl
  · rw [pure_bind]
    rfl

theorem validate_of_exportDevice {options : Options} {device : Device}
    (hvalidate : options.validateDerivations = true)
    (h : (exportDevice options device).outcome = .ok ()) : validate device = .ok () := by
  rw [exportDevice_eq, if_pos hvalidate] at h
  rcases Trace.outcome_bind_eq_ok_iff.mp h with ⟨⟨⟩, hvalid, -⟩
  exact Trace.outcome_ofExcept_eq_ok_iff.mp hvalid

theorem exportDevice_of_ok {options : Options} {device : Device}
    (h : (exportDevice options device).outcome = .ok ()) :
    exportDevice options device = exportSelected options device := by
  rw [exportDevice_eq] at h ⊢
  rcases Trace.outcome_bind_eq_ok_iff.mp h with ⟨⟨⟩, hvalid, -⟩
  split at hvalid
  · rename_i hvalidate
    rw [if_pos hvalidate, Trace.outcome_ofExcept_eq_ok_iff.mp hvalid, Trace.ofExcept_ok, pure_bind]
  · rename_i hvalidate
    rw [if_neg hvalidate, pure_bind]

theorem exportDevice_of_parts {options : Options} {device : Device} {selected : List Peripheral}
    {declared : List (Peripheral × List String)} (hvalid : validate device = .ok ())
    (hselected : selectPeripherals device options.selectedPeripherals = .ok selected)
    (hdeclared : (instances options device selected).outcome = .ok declared)
    (hunits : ∀ pair ∈ declared, ∃ codes, ((peripheralSite options device pair.1).sections.mapM
      (Section.code options)).outcome = .ok codes) :
    (exportDevice options device).outcome = .ok () := by
  rw [exportDevice_eq, hvalid, Trace.ofExcept_ok, ite_self, pure_bind, exportSelected, hselected,
    Trace.ofExcept_ok, pure_bind, Trace.outcome_bind_eq_ok_iff]
  refine ⟨(), rfl, ?_⟩
  rw [writeDeviceUnit, bind_assoc, Trace.outcome_bind_eq_ok_iff]
  refine ⟨declared, hdeclared, ?_⟩
  simp only [finishUnit_eq]
  rw [bind_assoc, Trace.outcome_bind_eq_ok_iff]
  refine ⟨(), rfl, ?_⟩
  rw [pure_bind, Trace.outcome_forM_eq_ok_iff]
  intro p hp
  rcases List.mem_map.mp hp with ⟨pair, hpair, rfl⟩
  rcases hunits pair hpair with ⟨codes, hcodes⟩
  exact writePeripheralUnit_of_ok hcodes

/-- What an export has done when it comes to its end. -/
structure Exported (options : Options) (device : Device) : Prop where
  /-- The unit of the device was written, and it told the peripherals with an instance. -/
  declared : ∃ selected, selectPeripherals device options.selectedPeripherals = .ok selected ∧
    (writeDeviceUnit options device selected).outcome = .ok (exportedPeripherals options device)
  replicas : ∀ p ∈ exportedPeripherals options device, ∀ x,
    peripheralExpansion? p (p.properties.inheriting device.properties) = some x →
    ReplicasFit p.baseAddress x
  written : ∀ p ∈ exportedPeripherals options device,
    (writePeripheralUnit options device p).outcome = .ok ()
  /-- The unit of the device and those of the peripherals were finished, and no others. -/
  units : writtenUnits (exportDevice options device).events =
    deviceUnit options device (exportedPeripherals options device) ::
      (exportedPeripherals options device).flatMap fun p =>
        writtenUnits (writePeripheralUnit options device p).events

theorem exported_of_exportDevice {options : Options} {device : Device}
    (h : (exportDevice options device).outcome = .ok ()) : Exported options device := by
  have heq := exportDevice_of_ok h
  rw [heq, exportSelected] at h
  rcases Trace.outcome_bind_eq_ok_iff.mp h with ⟨selected, hselected, h⟩
  rcases Trace.outcome_bind_eq_ok_iff.mp h with ⟨⟨⟩, hbases, h⟩
  rcases Trace.outcome_bind_eq_ok_iff.mp h with ⟨exported, hexported, hunits⟩
  rcases writeDeviceUnit_eq_ok hexported with ⟨hfilter, hfits, hdevice⟩
  have hlist : exportedPeripherals options device = exported := by
    rw [exportedPeripherals, Trace.outcome_ofExcept_eq_ok_iff.mp hselected, hfilter]
  have hnone : writtenUnits (reportMissingBases selected).events = [] :=
    reportMissingBases_finishesNone selected
  have hevents : writtenUnits (exportSelected options device).events =
      deviceUnit options device exported ::
        writtenUnits (exported.flatMap fun p => (writePeripheralUnit options device p).events) := by
    rw [exportSelected, Trace.events_bind_of_ok hselected, Trace.events_bind_of_ok hbases,
      Trace.events_bind_of_ok hexported, Trace.events_forM_of_ok hunits]
    simp only [writtenUnits_append, hdevice, hnone, Trace.events_ofExcept, List.nil_append,
      List.singleton_append]
  refine ⟨⟨selected, Trace.outcome_ofExcept_eq_ok_iff.mp hselected, ?_⟩, ?_, ?_, ?_⟩
  · rwa [hlist]
  · rwa [hlist]
  · rw [hlist]
    exact Trace.outcome_forM_eq_ok_iff.mp hunits
  · rw [heq, hlist, hevents, writtenUnits_flatMap]

end RegisterMap.Export
