import RegisterMap.Proofs.Derivation.Permutation
import RegisterMap.Proofs.Export.OtherSelection

/-!
# Exports in another document order

The output follows the names of the peripherals.  So two devices that hold the same
peripherals in different orders, with the same names selected in any order, are
exported alike: both exports fail, with errors of one kind, or both write the same
units with the same texts in the same order.
-/

namespace RegisterMap.Export

open RegisterMap.Derivation RegisterMap.Model RegisterMap.Number RegisterMap.Report
open RegisterMap.Swift

/--
Two errors of one kind.  Errors about references are about the same elements, a sum
that does not fit is the same sum, and the selectable names are the same.
-/
inductive ExportError.Alike : ExportError → ExportError → Prop
  | derivation {e e' : DerivationError} : e.Alike e' → Alike (.derivation e) (.derivation e')
  | selection {e e' : UnknownPeripheral} :
      e.validNames.Perm e'.validNames → Alike (.selection e) (.selection e')
  | overflow (e : AddressOverflow) : Alike (.overflow e) (.overflow e)

/-- Two exports that fail with errors of one kind, or that both come to their end. -/
inductive EndAlike : Except ExportError Unit → Except ExportError Unit → Prop
  | failed {e e' : ExportError} : e.Alike e' → EndAlike (.error e) (.error e')
  | done : EndAlike (.ok ()) (.ok ())

variable {options : Options} {device other : Device}

/-- The export of selected peripherals ends at most with an overflow. -/
theorem endAlike_exportSelected {selected : List Peripheral}
    (hselected : selectPeripherals device options.selectedPeripherals = .ok selected) :
    EndAlike (exportSelected options device).outcome (exportSelected options device).outcome := by
  cases hrun : (exportSelected options device).outcome with
  | ok u => exact .done
  | error e =>
      rcases (exportSelected_settled hselected).kind_of_error hrun with ⟨overflow, rfl⟩
      exact .failed (.overflow overflow)

/-- The references of a device are accepted or refused in any order of its peripherals. -/
theorem exportDevice_perm_cases (names : List String)
    (hperm : device.peripherals.Perm other.peripherals) :
    (exportDevice options device = exportSelected options device ∧
        exportDevice (options.selecting names options.validateDerivations) other =
          exportSelected (options.selecting names options.validateDerivations) other) ∨
      ∃ e e', exportDevice options device = ⟨[], .error (.derivation e)⟩ ∧
        exportDevice (options.selecting names options.validateDerivations) other =
          ⟨[], .error (.derivation e')⟩ ∧ e.Alike e' := by
  by_cases hvalidate : options.validateDerivations = true
  · rcases validate_perm hperm with ⟨hvalid, hvalid'⟩ | ⟨e, e', herror, herror', halike⟩
    · exact .inl ⟨exportDevice_of_valid fun _ => hvalid, exportDevice_of_valid fun _ => hvalid'⟩
    · exact .inr ⟨e, e', exportDevice_of_invalid hvalidate herror,
        exportDevice_of_invalid hvalidate herror', halike⟩
  · exact .inl ⟨exportDevice_of_valid fun h => absurd h hvalidate,
      exportDevice_of_valid fun h => absurd h hvalidate⟩

/--
The order of the peripherals in a device, and the order and the repetitions of the
selected names, do not show in an export.
-/
theorem exportDevice_ignores_order {peripherals : List Peripheral} {names : List String}
    (hperm : peripherals.Perm device.peripherals) (hnodup : device.peripheralNames.Nodup)
    (hnames : ∀ name, name ∈ names ↔ name ∈ options.selectedPeripherals) :
    let run := exportDevice options device
    let other := exportDevice { options with selectedPeripherals := names }
      { device with peripherals := peripherals }
    EndAlike run.outcome other.outcome ∧ writtenUnits other.events = writtenUnits run.events := by
  intro run other
  have hother : other = exportDevice (options.selecting names options.validateDerivations)
    (holding device peripherals) := rfl
  have hperm' : device.peripherals.Perm (holding device peripherals).peripherals := hperm.symm
  rcases exportDevice_perm_cases names hperm' with
    ⟨hrun, hrun'⟩ | ⟨e, e', hrun, hrun', halike⟩
  · rw [hother, hrun', show run = _ from hrun]
    rcases selectPeripherals_perm hperm' hnodup fun name => (hnames name).symm with
      ⟨selected, hselected, hselected'⟩ | ⟨e, e', herror, herror', hvalid⟩
    · rw [exportSelected_selecting hselected hselected']
      exact ⟨endAlike_exportSelected hselected, rfl⟩
    · have hunknown : exportSelected (options.selecting names options.validateDerivations)
          (holding device peripherals) = ⟨[], .error (.selection e')⟩ :=
        exportSelected_of_unknown herror'
      rw [exportSelected_of_unknown herror, hunknown]
      exact ⟨.failed (.selection hvalid), rfl⟩
  · rw [hother, hrun', show run = _ from hrun]
    exact ⟨.failed (.derivation halike), rfl⟩

theorem exportDevice_ignores_order_board :
    let run := exportDevice { selectedPeripherals := ["UART", "AUX"] } boardDevice
    let other := exportDevice { selectedPeripherals := ["AUX", "UART", "AUX"] }
      { boardDevice with peripherals := boardDevice.peripherals.reverse }
    boardDevice.peripheralNames.Nodup ∧ EndAlike run.outcome other.outcome ∧
      writtenUnits other.events = writtenUnits run.events := by
  have hperm : boardDevice.peripherals.reverse.Perm boardDevice.peripherals :=
    List.reverse_perm boardDevice.peripherals
  have hnodup : boardDevice.peripheralNames.Nodup := by decide
  refine ⟨hnodup, exportDevice_ignores_order hperm hnodup ?_⟩
  simp [or_comm]

end RegisterMap.Export
