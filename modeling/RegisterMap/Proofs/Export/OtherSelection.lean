import RegisterMap.Proofs.Derivation.Validation
import RegisterMap.Proofs.Export.Outcome
import RegisterMap.Proofs.Export.Selection

/-!
# Exports of other selections

The unit of a peripheral is made from the peripheral and from what the device and the
options say about all of them.  Which other peripherals the device holds, which of them
are selected and whether references are checked does not show in it.
-/

namespace RegisterMap.Export

open RegisterMap.Derivation RegisterMap.Model RegisterMap.Number RegisterMap.Report
open RegisterMap.Swift

/-- The same options for other selected peripherals, with references checked or not. -/
def Options.selecting (options : Options) (names : List String) (checked : Bool) : Options :=
  { options with selectedPeripherals := names, validateDerivations := checked }

/-- A device that says the same of other peripherals. -/
def holding (device : Device) (peripherals : List Peripheral) : Device :=
  { device with peripherals := peripherals }

variable (options : Options) (names : List String) (checked : Bool)

/-! ## Types -/

theorem fieldAccessors_selecting (access : Option Access) (given : FieldNames)
    (fields : List Field) :
    fieldAccessors (options.selecting names checked) access given fields =
      fieldAccessors options access given fields := by
  induction fields generalizing given with
  | nil => rfl
  | cons f fields ih =>
      simp only [fieldAccessors, ih]
      rfl

theorem typeCode_selecting (inherited : RegisterProperties) (address : Int) (e : Element) :
    typeCode (options.selecting names checked) inherited address e =
      typeCode options inherited address e := by
  match e with
  | .peripheral p => rfl
  | .member (.cluster c) => rfl
  | .member (.register r) =>
      simp only [typeCode, registerCode, fieldAccessors_selecting]
      rfl

theorem sectionCode_selecting (s : Section) :
    s.code (options.selecting names checked) = s.code options := by
  have htypes := funext (typeCode_selecting options names checked s.inherited s.address)
  rw [Section.code, Section.code, htypes]

/-! ## Units -/

variable (device : Device) (peripherals : List Peripheral)

theorem writePeripheralUnit_selecting (p : Peripheral) :
    writePeripheralUnit (options.selecting names checked) (holding device peripherals) p =
      writePeripheralUnit options device p := by
  have hcodes := funext (sectionCode_selecting options names checked)
  rw [writePeripheralUnit, writePeripheralUnit, sectionsCode_eq_mapM, sectionsCode_eq_mapM, hcodes]
  rfl

theorem instances_selecting (selected : List Peripheral) :
    instances (options.selecting names checked) (holding device peripherals) selected =
      instances options device selected := by
  induction selected with
  | nil => rfl
  | cons p selected ih =>
      rw [instances, instances, ih]
      rfl

theorem writeDeviceUnit_selecting (selected : List Peripheral) :
    writeDeviceUnit (options.selecting names checked) (holding device peripherals) selected =
      writeDeviceUnit options device selected := by
  rw [writeDeviceUnit, writeDeviceUnit, instances_selecting]
  rfl

variable {options names checked device peripherals}

/-- Two exports that select the same peripherals go on in the same way. -/
theorem exportSelected_selecting {selected : List Peripheral}
    (h : selectPeripherals device options.selectedPeripherals = .ok selected)
    (hother : selectPeripherals (holding device peripherals) names = .ok selected) :
    exportSelected (options.selecting names checked) (holding device peripherals) =
      exportSelected options device := by
  have hunits := funext (writePeripheralUnit_selecting options names checked device peripherals)
  have hnames : (options.selecting names checked).selectedPeripherals = names := rfl
  rw [exportSelected, exportSelected, hnames, h, hother, hunits]
  simp only [Trace.ofExcept_ok, pure_bind, writeDeviceUnit_selecting]

theorem selectionFits_selecting {selected : List Peripheral} :
    SelectionFits (options.selecting names checked) (holding device peripherals) selected ↔
      SelectionFits options device selected :=
  ⟨fun h => ⟨h.instances, h.types⟩, fun h => ⟨h.instances, h.types⟩⟩

/-- What fits for some peripherals fits for a part of them. -/
theorem SelectionFits.filter {selected : List Peripheral}
    (h : SelectionFits options device selected) (test : Peripheral → Bool) :
    SelectionFits options device (selected.filter test) := by
  constructor
  · intro p hp
    exact h.instances p (List.mem_filter.mp hp).1
  · intro p hp
    rw [shownPeripherals, List.mem_filter, List.mem_filter] at hp
    exact h.types p (List.mem_filter.mpr ⟨hp.1.1, hp.2⟩)

theorem selectPeripherals_singleton (p : Peripheral) :
    selectPeripherals (holding device [p]) [] = .ok [p] := by
  have hsorted : sortByName [p] = [p] := List.mergeSort_singleton p
  rw [selectPeripherals, List.isEmpty_nil, if_pos rfl]
  exact congrArg Except.ok hsorted

/-- The export of a device that holds nothing but one peripheral. -/
theorem exportDevice_alone {p : Peripheral}
    (hshown : isExportedPeripheral device.properties p = true)
    (hinstances : InstancesFit device.properties p)
    (hunit : (writePeripheralUnit options device p).outcome = .ok ()) :
    let alone := exportDevice (options.selecting [] false) (holding device [p])
    alone.outcome = .ok () ∧ writtenUnits alone.events =
      [deviceUnit options device [p], peripheralUnit options device p] := by
  intro alone
  have hselected : selectPeripherals (holding device [p]) [] = .ok [p] :=
    selectPeripherals_singleton p
  have hvalid : (options.selecting [] false).validateDerivations = true →
      validate (holding device [p]) = .ok () := by
    intro h
    cases h
  have hlist : shownPeripherals (holding device [p]) [p] = [p] := by
    simp [shownPeripherals, holding, hshown]
  have hfits : SelectionFits (options.selecting [] false) (holding device [p]) [p] := by
    rw [selectionFits_selecting]
    refine ⟨by simpa using hinstances, ?_⟩
    intro q hq
    have hq : q ∈ [p] := (List.mem_filter.mp hq).1
    obtain rfl := List.mem_singleton.mp hq
    exact ((writePeripheralUnit_settled options device q).outcome_iff.mp hunit).1
  have hok : alone.outcome = .ok () := by
    change (exportDevice _ _).outcome = _
    rw [exportDevice_of_valid hvalid]
    exact (exportSelected_settled hselected).outcome_iff.mpr ⟨hfits, rfl⟩
  refine ⟨hok, ?_⟩
  rw [writtenUnits_exportDevice hselected hok, selectionUnits, hlist]
  rfl

/-! ### A board with two serial ports and two timers -/

def serialPort : Peripheral where
  name := "UART"
  baseAddress := 0x40001000
  registers := some [{ name := "DATA", addressOffset := 0, properties := { size := some 32 } }]

def auxiliaryPort : Peripheral where
  name := "AUX"
  baseAddress := 0x40003000
  derivedFrom := some "UART"

def boardTimers : Peripheral where
  name := "TIMER[%s]"
  baseAddress := 0x40002000
  dimension := some ⟨some 2, some 0x100⟩

def boardDevice : Device where
  name := "Board"
  peripherals := [serialPort, boardTimers, auxiliaryPort]

theorem selectPeripherals_boardDevice :
    selectPeripherals boardDevice [] = .ok [auxiliaryPort, boardTimers, serialPort] := by
  have hsorted : [auxiliaryPort, boardTimers, serialPort] = sortByName boardDevice.peripherals := by
    refine eq_sortByName (by decide) (List.reverse_perm boardDevice.peripherals) ?_
    simp [auxiliaryPort, boardTimers, serialPort]
  rw [hsorted]
  rfl

theorem validate_boardDevice : validate boardDevice = .ok () := by
  refine validate_of_reachable rfl (unreachable_eq_nil_iff.mpr ?_)
  have hbase : auxiliaryPort.derivedFrom = some serialPort.name := rfl
  have hserial : ReachesDefinition boardDevice.peripherals serialPort := .definition rfl
  intro p hp
  obtain rfl | rfl | rfl : p = serialPort ∨ p = boardTimers ∨ p = auxiliaryPort := by
    simpa [boardDevice] using hp
  · exact hserial
  · exact .definition rfl
  · exact .derived hbase List.mem_cons_self hserial

theorem exportDevice_boardDevice : (exportDevice {} boardDevice).outcome = .ok () := by
  have hdeclared : (instances {} boardDevice [auxiliaryPort, boardTimers, serialPort]).outcome =
      .ok ([auxiliaryPort, boardTimers, serialPort].map fun p =>
        (p, instanceTexts {} boardDevice.properties p)) := rfl
  refine exportDevice_of_parts validate_boardDevice selectPeripherals_boardDevice hdeclared ?_
  intro pair hpair
  rcases List.mem_map.mp hpair with ⟨p, hp, rfl⟩
  obtain rfl | rfl | rfl : p = auxiliaryPort ∨ p = boardTimers ∨ p = serialPort := by
    simpa using hp
  · exact ⟨_, rfl⟩
  · exact ⟨_, rfl⟩
  · exact ⟨_, rfl⟩

end RegisterMap.Export
