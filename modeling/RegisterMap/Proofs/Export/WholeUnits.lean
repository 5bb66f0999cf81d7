import RegisterMap.Proofs.Export.OtherSelection

/-!
# Units of an export that fails

An error leaves whole units behind.  Nothing is written before the references and the
selection are in order.  A sum that does not fit in 64 bits ends the export inside one
unit, which is not written; the units before it are, as they are in an export that
comes to its end.
-/

namespace RegisterMap.Export

open RegisterMap.Derivation RegisterMap.Model RegisterMap.Number RegisterMap.Report
open RegisterMap.Swift

/-- True of a peripheral whose unit is written, with the text that it has in every export. -/
structure WritesWhole (options : Options) (device : Device) (p : Peripheral) : Prop where
  finished : (writePeripheralUnit options device p).outcome = .ok () ∧
    writtenUnits (writePeripheralUnit options device p).events = [peripheralUnit options device p]
  /-- Every export that comes to its end with the peripheral among others writes the unit. -/
  same : ∀ names checked peripherals,
    (exportDevice (options.selecting names checked) (holding device peripherals)).outcome =
      .ok () →
    p ∈ exportedPeripherals (options.selecting names checked) (holding device peripherals) →
    peripheralUnit options device p ∈ writtenUnits
      (exportDevice (options.selecting names checked) (holding device peripherals)).events
  /-- The export of the peripheral alone comes to its end. -/
  alone : (exportDevice (options.selecting [] false) (holding device [p])).outcome = .ok () ∧
    writtenUnits (exportDevice (options.selecting [] false) (holding device [p])).events =
      [deviceUnit options device [p], peripheralUnit options device p]

/-- The units that are written up to the end of an export, for each way in which it can end. -/
inductive Leaves (options : Options) (device : Device) :
    Except ExportError Unit → List SourceUnit → Prop
  | derivation (e : DerivationError) : Leaves options device (.error (.derivation e)) []
  | selection (e : UnknownPeripheral) : Leaves options device (.error (.selection e)) []
  /-- The unit of the device cannot be made. -/
  | device {e : AddressOverflow} {selected : List Peripheral} :
      selectPeripherals device options.selectedPeripherals = .ok selected →
      (writeDeviceUnit options device selected).outcome = .error (.overflow e) →
      Leaves options device (.error (.overflow e)) []
  /-- The unit of a peripheral cannot be made, but those of all before it can. -/
  | peripheral {e : AddressOverflow} {selected before after : List Peripheral} {p : Peripheral} :
      selectPeripherals device options.selectedPeripherals = .ok selected →
      (writeDeviceUnit options device selected).outcome = .ok (before ++ p :: after) →
      (before ++ p :: after).Pairwise (fun q r => q.name ≤ r.name) →
      (∀ q ∈ before, WritesWhole options device q) →
      (writePeripheralUnit options device p).outcome = .error (.overflow e) →
      Leaves options device (.error (.overflow e))
        (deviceUnit options device (before ++ p :: after) ::
          before.map (peripheralUnit options device))
  | done {selected exported : List Peripheral} :
      selectPeripherals device options.selectedPeripherals = .ok selected →
      (writeDeviceUnit options device selected).outcome = .ok exported →
      exported.Pairwise (fun q r => q.name ≤ r.name) →
      (∀ q ∈ exported, WritesWhole options device q) →
      Leaves options device (.ok ())
        (deviceUnit options device exported :: exported.map (peripheralUnit options device))

variable {options : Options} {device : Device}

/-- The unit of a peripheral with an instance is written whole, once it can be made. -/
theorem writesWhole {selected : List Peripheral} {p : Peripheral}
    (hp : p ∈ shownPeripherals device selected)
    (hinstances : ∀ p ∈ selected, InstancesFit device.properties p)
    (hunit : (writePeripheralUnit options device p).outcome = .ok ()) :
    WritesWhole options device p := by
  rcases List.mem_filter.mp hp with ⟨hmem, hshown⟩
  refine ⟨⟨hunit, writtenUnits_writePeripheralUnit hunit⟩, ?_,
    exportDevice_alone hshown (hinstances p hmem) hunit⟩
  intro names checked peripherals hok hexported
  rcases exists_selected hok with ⟨others, hothers⟩
  rw [exportedPeripherals_eq hothers] at hexported
  rw [writtenUnits_exportDevice hothers hok]
  exact List.mem_cons_of_mem _ (List.mem_map.mpr ⟨p, hexported, rfl⟩)

/-- The units of peripherals up to the first that cannot be made. -/
theorem writtenUnits_forM_of_ok {peripherals : List Peripheral}
    (h : ∀ q ∈ peripherals, (writePeripheralUnit options device q).outcome = .ok ()) :
    writtenUnits (peripherals.flatMap fun q => (writePeripheralUnit options device q).events) =
      peripherals.map (peripheralUnit options device) := by
  rw [writtenUnits_flatMap, List.map_eq_flatMap]
  exact List.flatMap_congr fun q hq => writtenUnits_writePeripheralUnit (h q hq)

theorem leaves_exportSelected {selected : List Peripheral}
    (hselected : selectPeripherals device options.selectedPeripherals = .ok selected) :
    Leaves options device (exportSelected options device).outcome
      (writtenUnits (exportSelected options device).events) := by
  have hbases := reportMissingBases_finishesNone selected
  have hsettled := writeDeviceUnit_settled options device selected
  have hdevice := writeDeviceUnit_finishesAtEnd options device selected
  rw [exportSelected, hselected, Trace.ofExcept_ok, pure_bind,
    Trace.bind_of_ok (t := reportMissingBases selected) rfl, writtenUnits_append, hbases,
    List.nil_append]
  cases hunit : (writeDeviceUnit options device selected).outcome with
  | error e =>
      -- The unit of the device comes first.
      rcases hsettled.kind_of_error hunit with ⟨overflow, rfl⟩
      rw [Trace.bind_of_error hunit, hdevice.failed _ hunit]
      exact .device hselected hunit
  | ok exported =>
      rcases hsettled.outcome_iff.mp hunit with ⟨hinstances, rfl⟩
      have hsorted : (shownPeripherals device selected).Pairwise fun q r => q.name ≤ r.name :=
        (selectPeripherals_sorted hselected).filter _
      rw [Trace.bind_of_ok hunit, writtenUnits_append, hdevice.done _ hunit]
      cases hunits : ((shownPeripherals device selected).forM
          (writePeripheralUnit options device)).outcome with
      | error e =>
          -- All units before the one that fails are finished, and this one is not.
          rcases Trace.exists_failing_of_forM hunits with
            ⟨before, p, after, hsplit, hbefore, hp, hevents⟩
          rcases (writePeripheralUnit_settled options device p).kind_of_error hp with
            ⟨overflow, rfl⟩
          have hnone := (writePeripheralUnit_finishesAtEnd options device p).failed _ hp
          rw [hevents, writtenUnits_append, hnone, List.append_nil,
            writtenUnits_forM_of_ok hbefore]
          rw [hsplit] at hunit hsorted ⊢
          refine .peripheral hselected hunit hsorted (fun q hq => ?_) hp
          exact writesWhole (by simp [hsplit, hq]) hinstances (hbefore q hq)
      | ok u =>
          have heach := Trace.outcome_forM_eq_ok_iff.mp hunits
          rw [Trace.events_forM_of_ok hunits, writtenUnits_forM_of_ok heach]
          exact .done hselected hunit hsorted
            fun q hq => writesWhole hq hinstances (heach q hq)

/--
When an export ends, whole units have been written: none if references or selected
names are not in order, those of the device and of the first peripherals if a sum does
not fit, and all of them if nothing fails.
-/
theorem exportDevice_leaves_whole_units (options : Options) (device : Device) :
    Leaves options device (exportDevice options device).outcome
      (writtenUnits (exportDevice options device).events) := by
  rcases exportDevice_cases options device with ⟨e, heq⟩ | ⟨e, heq⟩ | ⟨selected, hselected, heq⟩
  · rw [heq]
    exact .derivation e
  · rw [heq]
    exact .selection e
  · rw [heq]
    exact leaves_exportSelected hselected

end RegisterMap.Export
