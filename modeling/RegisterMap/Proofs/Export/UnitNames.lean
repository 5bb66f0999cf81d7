import RegisterMap.Proofs.Derivation.PrintedReference
import RegisterMap.Proofs.Export.Outcome
import RegisterMap.Proofs.Export.StoredUnits

/-!
# Names of units

Elements, references and units get their names in the same way, so all of them are made
of Swift names: a type is one, a printed reference has as many as it has components, and
a unit has one in front of its extension, whether or not its export comes to its end.
-/

namespace RegisterMap.Export

open RegisterMap.Derivation RegisterMap.Model RegisterMap.Swift

/-- A unit that is written is that of the device or has the name of the type of a peripheral. -/
theorem exists_typeName_of_mem_writtenUnits {options : Options} {device : Device}
    {unit : SourceUnit} (h : unit ∈ writtenUnits (exportDevice options device).events) :
    ∃ typeName ∈ "Device" :: device.peripherals.map (swiftName ·.name),
      IsSwiftName typeName ∧ unit.name = typeName ++ ".swift" := by
  rcases eq_of_mem_writtenUnits h with ⟨selected, hselected, hunit⟩
  rcases List.mem_cons.mp hunit with rfl | hother
  · exact ⟨"Device", List.mem_cons_self, by decide, rfl⟩
  · rcases List.mem_map.mp hother with ⟨p, hp, rfl⟩
    have hmem := mem_of_selectPeripherals hselected p (List.mem_filter.mp hp).1
    refine ⟨swiftName p.name, ?_, isSwiftName_swiftName p.name, rfl⟩
    exact List.mem_cons_of_mem _ (List.mem_map_of_mem hmem)

/--
Any text is given a Swift name, and only a text that is one already is left as it is.
A reference is printed as Swift names that are joined by dots, one more than it has
dots, and every unit of an export has a Swift name in front of its extension.
-/
theorem swiftNames_wellFormed (name reference : String) (options : Options) (device : Device) :
    (IsSwiftName (swiftName name) ∧ swiftName (swiftName name) = swiftName name ∧
        (swiftName name = name ↔ IsSwiftName name)) ∧
      (∃ names, PrintsNames reference names) ∧
      ∀ unit ∈ writtenUnits (exportDevice options device).events,
        ∃ typeName ∈ "Device" :: device.peripherals.map (swiftName ·.name),
          IsSwiftName typeName ∧ unit.name = typeName ++ ".swift" := by
  refine ⟨⟨isSwiftName_swiftName name, swiftName_swiftName name, swiftName_eq_self_iff⟩, ?_, ?_⟩
  · exact ⟨referencePath reference, aliasTarget_printsNames reference⟩
  · intro unit hunit
    exact exists_typeName_of_mem_writtenUnits hunit

/-- What is left of a name around its placeholder is a placeholder again, and so replaced. -/
theorem swiftNames_wellFormed_nested :
    ∃ unit ∈ writtenUnits (exportDevice {} (plainDevice "[%%ss]")).events,
      unit.name = "__s_.swift" ∧
        ∃ typeName ∈ "Device" :: (plainDevice "[%%ss]").peripherals.map (swiftName ·.name),
          IsSwiftName typeName ∧ unit.name = typeName ++ ".swift" := by
  have hname : "__s_.swift" ∈
      (writtenUnits (exportDevice {} (plainDevice "[%%ss]")).events).map (·.name) := by
    rw [names_writtenUnits (exportDevice_plainDevice "[%%ss]"), unitTypeNames_plainDevice]
    decide
  rcases List.mem_map.mp hname with ⟨unit, hunit, heq⟩
  have hnames := swiftNames_wellFormed "[%%ss]" "[%%ss].CH" {} (plainDevice "[%%ss]")
  exact ⟨unit, hunit, heq, hnames.2.2 unit hunit⟩

end RegisterMap.Export
