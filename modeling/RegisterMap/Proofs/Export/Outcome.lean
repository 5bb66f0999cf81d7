import RegisterMap.Proofs.Export.Declared
import RegisterMap.Proofs.Export.DeviceUnit

/-!
# Outcomes of an export

Once references are in order and the peripherals are selected, only an address that
does not fit in 64 bits can end an export early.  An export that comes to its end has
recorded what its peripherals record, one after the other, and whether or not it comes
to its end, the units that it finished are those of the device and of its peripherals.
-/

namespace RegisterMap.Export

open RegisterMap.Derivation RegisterMap.Model RegisterMap.Number RegisterMap.Report
open RegisterMap.Swift

/-! ## Selected peripherals -/

/-- The peripherals with an instance among those that were selected. -/
def shownPeripherals (device : Device) (selected : List Peripheral) : List Peripheral :=
  selected.filter (isExportedPeripheral device.properties)

theorem exportedPeripherals_eq {options : Options} {device : Device} {selected : List Peripheral}
    (h : selectPeripherals device options.selectedPeripherals = .ok selected) :
    exportedPeripherals options device = shownPeripherals device selected := by
  rw [exportedPeripherals, h, shownPeripherals]

/-- Everything that is added up for some selected peripherals fits in 64 bits. -/
structure SelectionFits (options : Options) (device : Device) (selected : List Peripheral) :
    Prop where
  instances : ∀ p ∈ selected, InstancesFit device.properties p
  types : ∀ p ∈ shownPeripherals device selected, ∀ place t,
    (peripheralSite options device p).at? place = some t → t.Fits

/-- What is recorded while the unit of a device is written. -/
def deviceEvents (options : Options) (device : Device) (selected : List Peripheral) :
    List Event :=
  selected.flatMap (instanceEvents device.properties) ++
    [.wrote (deviceUnit options device (shownPeripherals device selected))]

/-- What is recorded while the unit of a peripheral is written. -/
def peripheralEvents (options : Options) (device : Device) (p : Peripheral) : List Event :=
  (peripheralSite options device p).allEvents ++ [.wrote (peripheralUnit options device p)]

/-- What is recorded while selected peripherals are exported. -/
def selectionEvents (options : Options) (device : Device) (selected : List Peripheral) :
    List Event :=
  (reportMissingBases selected).events ++ deviceEvents options device selected ++
    (shownPeripherals device selected).flatMap (peripheralEvents options device)

theorem writeDeviceUnit_settled (options : Options) (device : Device)
    (selected : List Peripheral) :
    Trace.Settled IsOverflow (writeDeviceUnit options device selected)
      (∀ p ∈ selected, InstancesFit device.properties p) (shownPeripherals device selected)
      (deviceEvents options device selected) := by
  have hinstances := instances_settled options device selected
  have hshown : ((selected.filter (isExportedPeripheral device.properties)).map fun p =>
      (p, instanceTexts options device.properties p)).map (·.1) =
      shownPeripherals device selected := by
    rw [List.map_map]
    exact List.map_id _
  rw [writeDeviceUnit]
  refine (hinstances.bind fun _ => ?_).of_iff (and_iff_left trivial)
  simp only [finishUnit_eq, hshown, List.flatMap_map]
  exact (Trace.Settled.record _).map fun _ => shownPeripherals device selected

theorem exportSelected_settled {options : Options} {device : Device} {selected : List Peripheral}
    (hselected : selectPeripherals device options.selectedPeripherals = .ok selected) :
    Trace.Settled IsOverflow (exportSelected options device)
      (SelectionFits options device selected) () (selectionEvents options device selected) := by
  have hbases : Trace.Settled IsOverflow (reportMissingBases selected) True ()
      (reportMissingBases selected).events := .recordAll _
  have hunits := Trace.Settled.forM fun p (_ : p ∈ shownPeripherals device selected) =>
    writePeripheralUnit_settled options device p
  rw [exportSelected, hselected, Trace.ofExcept_ok, pure_bind, selectionEvents,
    List.append_assoc]
  refine (hbases.bind fun _ => (writeDeviceUnit_settled options device selected).bind
    fun _ => hunits).of_iff ?_
  constructor
  · rintro ⟨-, hinstances, htypes⟩
    exact ⟨hinstances, htypes⟩
  · intro hfits
    exact ⟨trivial, hfits.instances, hfits.types⟩

/-- The events of an export that comes to its end. -/
theorem events_exportDevice {options : Options} {device : Device} {selected : List Peripheral}
    (hselected : selectPeripherals device options.selectedPeripherals = .ok selected)
    (h : (exportDevice options device).outcome = .ok ()) :
    SelectionFits options device selected ∧
      (exportDevice options device).events = selectionEvents options device selected := by
  have hsettled := exportSelected_settled hselected
  have heq := exportDevice_of_ok h
  rw [heq] at h ⊢
  exact ⟨(hsettled.outcome_iff.mp h).1, hsettled.events_of_ok h⟩

theorem exists_selected {options : Options} {device : Device}
    (h : (exportDevice options device).outcome = .ok ()) :
    ∃ selected, selectPeripherals device options.selectedPeripherals = .ok selected := by
  rcases (exported_of_exportDevice h).declared with ⟨selected, hselected, -⟩
  exact ⟨selected, hselected⟩

/-! ## Errors -/

theorem exportDevice_of_valid {options : Options} {device : Device}
    (h : options.validateDerivations = true → validate device = .ok ()) :
    exportDevice options device = exportSelected options device := by
  rw [exportDevice_eq]
  split
  · rename_i hvalidate
    rw [h hvalidate, Trace.ofExcept_ok, pure_bind]
  · rw [pure_bind]

theorem exportDevice_of_invalid {options : Options} {device : Device} {e : DerivationError}
    (hvalidate : options.validateDerivations = true) (h : validate device = .error e) :
    exportDevice options device = ⟨[], .error (.derivation e)⟩ := by
  rw [exportDevice_eq, if_pos hvalidate, h]
  rfl

theorem exportSelected_of_unknown {options : Options} {device : Device} {e : UnknownPeripheral}
    (h : selectPeripherals device options.selectedPeripherals = .error e) :
    exportSelected options device = ⟨[], .error (.selection e)⟩ := by
  rw [exportSelected, h]
  rfl

/-- An export fails before it begins, or it goes on with the peripherals that were selected. -/
theorem exportDevice_cases (options : Options) (device : Device) :
    (∃ e, exportDevice options device = ⟨[], .error (.derivation e)⟩) ∨
      (∃ e, exportDevice options device = ⟨[], .error (.selection e)⟩) ∨
      ∃ selected, selectPeripherals device options.selectedPeripherals = .ok selected ∧
        exportDevice options device = exportSelected options device := by
  by_cases hvalid : options.validateDerivations = true → validate device = .ok ()
  · rw [exportDevice_of_valid hvalid]
    cases hselected : selectPeripherals device options.selectedPeripherals with
    | error u => exact .inr (.inl ⟨u, exportSelected_of_unknown hselected⟩)
    | ok selected => exact .inr (.inr ⟨selected, rfl, rfl⟩)
  · rw [Classical.not_imp] at hvalid
    cases hvalidate : validate device with
    | ok u => exact absurd hvalidate hvalid.2
    | error e => exact .inl ⟨e, exportDevice_of_invalid hvalid.1 hvalidate⟩

/-- An export fails before it begins, or else by an address. -/
theorem exportDevice_error_cases {options : Options} {device : Device} {e : ExportError}
    (h : (exportDevice options device).outcome = .error e) :
    ((∃ d, e = .derivation d) ∨ ∃ u, e = .selection u) ∧
        (exportDevice options device).events = [] ∨
      IsOverflow e := by
  rcases exportDevice_cases options device with ⟨d, heq⟩ | ⟨u, heq⟩ | ⟨selected, hselected, heq⟩
  · rw [heq] at h ⊢
    exact .inl ⟨.inl ⟨d, (Except.error.inj h).symm⟩, rfl⟩
  · rw [heq] at h ⊢
    exact .inl ⟨.inr ⟨u, (Except.error.inj h).symm⟩, rfl⟩
  · rw [heq] at h
    exact .inr ((exportSelected_settled hselected).kind_of_error h)

/-- An export cannot fail in the layout of its units. -/
theorem exportDevice_ne_layout (options : Options) (device : Device) (e : LayoutError) :
    (exportDevice options device).outcome ≠ .error (.layout e) := by
  intro h
  rcases exportDevice_error_cases h with ⟨⟨d, hd⟩ | ⟨u, hu⟩, -⟩ | ⟨overflow, hoverflow⟩
  · cases hd
  · cases hu
  · cases hoverflow

/-! ## Finished units -/

/-- True of a computation that finishes a unit if it comes to its end, and else no unit. -/
structure FinishesAtEnd {ε α : Type} (t : Trace ε Event α) (unit : SourceUnit) : Prop where
  done : ∀ a, t.outcome = .ok a → writtenUnits t.events = [unit]
  failed : ∀ e, t.outcome = .error e → writtenUnits t.events = []

/-- Code that finishes no unit is made first, and the unit that holds it is finished last. -/
theorem FinishesAtEnd.bind {ε α β : Type} {t : Trace ε Event α} {f : α → Trace ε Event β}
    {unit : SourceUnit} (ht : FinishesNone t)
    (hf : ∀ a, t.outcome = .ok a → ∃ b, f a = ⟨[.wrote unit], .ok b⟩) :
    FinishesAtEnd (t >>= f) unit := by
  cases h : t.outcome with
  | error e =>
      rw [Trace.bind_of_error h]
      refine ⟨?_, fun _ _ => ht⟩
      intro a hok
      cases hok
  | ok a =>
      rcases hf a h with ⟨b, hb⟩
      rw [Trace.bind_of_ok h, hb]
      refine ⟨fun _ _ => ?_, ?_⟩
      · rw [writtenUnits_append, ht]
        rfl
      · intro e herror
        cases herror

theorem writeDeviceUnit_finishesAtEnd (options : Options) (device : Device)
    (selected : List Peripheral) :
    FinishesAtEnd (writeDeviceUnit options device selected)
      (deviceUnit options device (shownPeripherals device selected)) := by
  rw [writeDeviceUnit]
  refine .bind (instances_finishesNone options device selected) fun declared hdeclared => ?_
  obtain ⟨-, rfl⟩ := (instances_settled options device selected).outcome_iff.mp hdeclared
  simp only [finishUnit_eq, List.flatMap_map]
  exact ⟨_, rfl⟩

theorem writePeripheralUnit_finishesAtEnd (options : Options) (device : Device) (p : Peripheral) :
    FinishesAtEnd (writePeripheralUnit options device p) (peripheralUnit options device p) := by
  rw [writePeripheralUnit]
  refine .bind (sectionsCode_finishesNone options _) fun codes hcodes => ?_
  obtain ⟨-, rfl⟩ := (sectionsCode_settled options device p).outcome_iff.mp hcodes
  rw [finishUnit_eq]
  exact ⟨_, rfl⟩

/-- If each step finishes one unit at its end, the units of a run are some of the first ones. -/
theorem writtenUnits_forM {ε α : Type} {f : α → Trace ε Event Unit} {unit : α → SourceUnit}
    (h : ∀ x, FinishesAtEnd (f x) (unit x)) (xs : List α) :
    ∃ n, writtenUnits (xs.forM f).events = (xs.map unit).take n := by
  induction xs with
  | nil => exact ⟨0, rfl⟩
  | cons x xs ih =>
      change ∃ n, writtenUnits (f x >>= fun _ => xs.forM f).events = _
      cases hx : (f x).outcome with
      | error e => exact ⟨0, by rw [Trace.bind_of_error hx, (h x).failed e hx, List.take_zero]⟩
      | ok u =>
          rcases ih with ⟨n, hn⟩
          refine ⟨n + 1, ?_⟩
          rw [Trace.bind_of_ok hx, writtenUnits_append, (h x).done u hx, hn, List.map_cons,
            List.take_succ_cons, List.singleton_append]

/-- The units of some selected peripherals, if all of them are finished. -/
def selectionUnits (options : Options) (device : Device) (selected : List Peripheral) :
    List SourceUnit :=
  deviceUnit options device (shownPeripherals device selected) ::
    (shownPeripherals device selected).map (peripheralUnit options device)

/-- An export finishes its units in order, and some of the first ones if it ends early. -/
theorem writtenUnits_exportSelected {options : Options} {device : Device}
    {selected : List Peripheral}
    (hselected : selectPeripherals device options.selectedPeripherals = .ok selected) :
    ∃ n, writtenUnits (exportSelected options device).events =
      (selectionUnits options device selected).take n := by
  have hbases := reportMissingBases_finishesNone selected
  have hdevice := writeDeviceUnit_finishesAtEnd options device selected
  rw [exportSelected, hselected, Trace.ofExcept_ok, pure_bind,
    Trace.bind_of_ok (t := reportMissingBases selected) rfl, writtenUnits_append, hbases,
    List.nil_append]
  cases hunit : (writeDeviceUnit options device selected).outcome with
  | error e => exact ⟨0, by rw [Trace.bind_of_error hunit, hdevice.failed e hunit, List.take_zero]⟩
  | ok shown =>
      obtain ⟨n, hn⟩ := writtenUnits_forM (writePeripheralUnit_finishesAtEnd options device)
        (shownPeripherals device selected)
      have hshown := (writeDeviceUnit_settled options device selected).outcome_iff.mp hunit
      refine ⟨n + 1, ?_⟩
      rw [Trace.bind_of_ok hunit, writtenUnits_append, hdevice.done shown hunit, hshown.2, hn,
        selectionUnits, List.take_succ_cons, List.singleton_append]

/-- An export that comes to its end has finished all units of the selected peripherals. -/
theorem writtenUnits_exportDevice {options : Options} {device : Device}
    {selected : List Peripheral}
    (hselected : selectPeripherals device options.selectedPeripherals = .ok selected)
    (h : (exportDevice options device).outcome = .ok ()) :
    writtenUnits (exportDevice options device).events =
      selectionUnits options device selected := by
  have hexported := exported_of_exportDevice h
  have hshown := exportedPeripherals_eq hselected
  rw [hexported.units, hshown, selectionUnits, List.map_eq_flatMap]
  refine congrArg _ (List.flatMap_congr fun p hp => ?_)
  rw [← hshown] at hp
  exact writtenUnits_writePeripheralUnit (hexported.written p hp)

/-- Every unit that an export finishes is that of the device or that of a shown peripheral. -/
theorem eq_of_mem_writtenUnits {options : Options} {device : Device} {unit : SourceUnit}
    (h : unit ∈ writtenUnits (exportDevice options device).events) :
    ∃ selected, selectPeripherals device options.selectedPeripherals = .ok selected ∧
      unit ∈ selectionUnits options device selected := by
  rcases exportDevice_cases options device with ⟨d, heq⟩ | ⟨u, heq⟩ | ⟨selected, hselected, heq⟩
  · rw [heq] at h
    cases h
  · rw [heq] at h
    cases h
  · rcases writtenUnits_exportSelected hselected with ⟨n, hn⟩
    rw [heq, hn] at h
    exact ⟨selected, hselected, List.mem_of_mem_take h⟩

end RegisterMap.Export
