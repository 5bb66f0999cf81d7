import RegisterMap.Proofs.Derivation.PrintedReference
import RegisterMap.Proofs.Export.AliasTarget

/-!
# Names of bases

The alias of a derived peripheral prints the name of its base, and the unit of the
base declares a type under an identifier.  The two are one text exactly if the name
of the base has no dot and its type needs no backticks.
-/

namespace RegisterMap.Export

open RegisterMap.Derivation RegisterMap.Model RegisterMap.Swift
open RegisterMap.Description (decodeDevice deviceDocument groupNode textNode)

/-- The lines that declare a type under an identifier. -/
inductive DeclaresUnder (modifiers declared : String) : String → Prop
  | struct : DeclaresUnder modifiers declared (modifiers ++ "struct " ++ declared ++ " \x7b")
  | alias (target : String) :
      DeclaresUnder modifiers declared (modifiers ++ "typealias " ++ declared ++ " = " ++ target)

variable {options : Options} {device : Device} {p q : Peripheral} {target : String}

theorem declaresUnder_declarationLine (options : Options) (e : Element) :
    DeclaresUnder options.modifiers (identifier e.typeName) (declarationLine options e) := by
  unfold declarationLine
  cases e.derivedFrom with
  | none => exact .struct
  | some base => exact .alias (aliasTarget base)

/-- The unit of an exported peripheral holds the line that declares its type. -/
theorem hasLine_of_mem_exportedPeripherals (h : (exportDevice options device).outcome = .ok ())
    (hp : p ∈ exportedPeripherals options device) :
    HasLine options.indentation (declarationLine options (.peripheral p))
      (peripheralUnit options device p).text :=
  hasLine_of_mem_sections ((exported_of_exportDevice h).written p hp) List.mem_cons_self
    (List.mem_singleton_self _)

/--
The alias of a derived peripheral prints the identifier under which the unit of its
base declares the type of the base exactly if the name of the base has no dot and its
Swift name is not a keyword.
-/
theorem exportDevice_alias_names_base_iff (hvalid : validate device = .ok ())
    (h : (exportDevice options device).outcome = .ok ())
    (hp : p ∈ exportedPeripherals options device) (hderived : p.derivedFrom = some target) :
    (peripheralUnit options device p ∈ writtenUnits (exportDevice options device).events ∧
        HasLine options.indentation
          (typeAlias options.modifiers (swiftName p.name) (aliasTarget target))
          (peripheralUnit options device p).text) ∧
      (∃ q ∈ device.peripherals, q.name = target) ∧
      ∀ q ∈ exportedPeripherals options device, q.name = target →
        peripheralUnit options device q ∈ writtenUnits (exportDevice options device).events ∧
          (∃ line, DeclaresUnder options.modifiers (identifier (swiftName q.name)) line ∧
            HasLine options.indentation line (peripheralUnit options device q).text) ∧
          (aliasTarget target = identifier (swiftName q.name) ↔
            '.' ∉ q.name.toList ∧ swiftName q.name ∉ keywords) := by
  have hmem : p ∈ device.peripherals := mem_device_of_exported hp
  refine ⟨⟨peripheralUnit_mem_writtenUnits h hp, ?_⟩, ?_, ?_⟩
  · have hline := hasLine_of_mem_exportedPeripherals h hp
    rwa [declarationLine, show (Element.peripheral p).derivedFrom = some target from hderived]
      at hline
  · exact ((resolves_of_validate hvalid).1 p hmem target hderived).1
  · rintro q hq rfl
    have hdeclares := declaresUnder_declarationLine options (.peripheral q)
    have hline := hasLine_of_mem_exportedPeripherals h hq
    exact ⟨peripheralUnit_mem_writtenUnits h hq, ⟨_, hdeclares, hline⟩,
      aliasTarget_eq_identifier_iff q.name⟩

/-! ### Two ports, one of them derived -/

def portBase (name : String) : Peripheral where
  name := name
  baseAddress := 0x1000

def derivedPort (name : String) : Peripheral where
  name := name ++ "2"
  baseAddress := 0x2000
  derivedFrom := some name

def portDevice (name : String) : Device where
  name := "D"
  peripherals := [portBase name, derivedPort name]

def portDocument (name : String) : Xml.Element :=
  deviceDocument "D" [
    groupNode "peripheral" [textNode "name" name, textNode "baseAddress" "0x1000"],
    .element (.mk ⟨none, "peripheral"⟩ [⟨⟨none, "derivedFrom"⟩, name⟩] 1 [
      textNode "name" (name ++ "2"), textNode "baseAddress" "0x2000"])]

theorem selectPeripherals_portDevice {name : String} (hle : name ≤ name ++ "2") :
    selectPeripherals (portDevice name) [] = .ok (portDevice name).peripherals := by
  have hsorted : sortByName (portDevice name).peripherals = (portDevice name).peripherals := by
    refine List.mergeSort_of_pairwise ?_
    simpa [portDevice, portBase, derivedPort] using hle
  rw [← hsorted]
  rfl

theorem exportedPeripherals_portDevice {name : String} (hle : name ≤ name ++ "2") :
    exportedPeripherals {} (portDevice name) = [portBase name, derivedPort name] := by
  have hselected := selectPeripherals_portDevice hle
  simp only [exportedPeripherals, hselected]
  rfl

theorem validate_portDevice {name : String} (h : danglingElements (portDevice name) = []) :
    validate (portDevice name) = .ok () := by
  refine validate_of_reachable h (unreachable_eq_nil_iff.mpr ?_)
  have hbase : ReachesDefinition (portDevice name).peripherals (portBase name) :=
    .definition rfl
  intro p hp
  rcases List.mem_cons.mp hp with rfl | hp
  · exact hbase
  · obtain rfl := List.mem_singleton.mp hp
    exact .derived rfl List.mem_cons_self hbase

theorem exportDevice_portDevice {name : String} (hle : name ≤ name ++ "2")
    (h : danglingElements (portDevice name) = []) :
    (exportDevice {} (portDevice name)).outcome = .ok () := by
  refine exportDevice_of_parts (validate_portDevice h) (selectPeripherals_portDevice hle) rfl ?_
  intro pair hpair
  rcases List.mem_cons.mp hpair with rfl | hpair
  · exact ⟨_, rfl⟩
  · obtain rfl := List.mem_singleton.mp hpair
    exact ⟨_, rfl⟩

theorem exportDevice_alias_names_base_iff_uart :
    validate (portDevice "UART") = .ok () ∧
      (exportDevice {} (portDevice "UART")).outcome = .ok () ∧
      aliasTarget "UART" = identifier (swiftName "UART") := by
  have hvalid : validate (portDevice "UART") = .ok () := validate_portDevice rfl
  have hle : "UART" ≤ "UART" ++ "2" := by decide
  have hexport := exportDevice_portDevice hle rfl
  have hexported := exportedPeripherals_portDevice hle
  have hbase : portBase "UART" ∈ exportedPeripherals {} (portDevice "UART") := by
    rw [hexported]
    exact List.mem_cons_self
  have hderived : derivedPort "UART" ∈ exportedPeripherals {} (portDevice "UART") := by
    rw [hexported]
    exact List.mem_cons_of_mem _ (List.mem_singleton_self _)
  have hnames := exportDevice_alias_names_base_iff hvalid hexport hderived rfl
  have hsame := (hnames.2.2 (portBase "UART") hbase rfl).2.2
  exact ⟨hvalid, hexport, hsame.mpr ⟨by decide, by decide⟩⟩

/-- What a derived port and its base print, with the names that make the difference. -/
theorem hasLine_portDevice (name : String) (hle : name ≤ name ++ "2")
    (h : danglingElements (portDevice name) = []) :
    HasLine "  " (typeAlias "" (swiftName (name ++ "2")) (aliasTarget name))
        (peripheralUnit {} (portDevice name) (derivedPort name)).text ∧
      HasLine "  " (Subject.mk none (swiftName name) "").structLine
        (peripheralUnit {} (portDevice name) (portBase name)).text := by
  have hexport := exportDevice_portDevice hle h
  have hexported := exportedPeripherals_portDevice hle
  constructor
  · exact hasLine_of_mem_exportedPeripherals hexport (p := derivedPort name) (by simp [hexported])
  · exact hasLine_of_mem_exportedPeripherals hexport (p := portBase name) (by simp [hexported])

/--
The alias of a port that is named like a keyword prints the bare word, and the alias of
one whose name has a dot prints a path.  Neither is what the base declares.
-/
theorem exportDevice_alias_misses_base :
    (decodeDevice (portDocument "switch") = .ok (portDevice "switch") ∧
        validate (portDevice "switch") = .ok () ∧
        (exportDevice {} (portDevice "switch")).outcome = .ok () ∧
        HasLine "  " "typealias switch2 = switch"
          (peripheralUnit {} (portDevice "switch") (derivedPort "switch")).text ∧
        HasLine "  " "struct `switch` \x7b"
          (peripheralUnit {} (portDevice "switch") (portBase "switch")).text) ∧
      decodeDevice (portDocument "A.B") = .ok (portDevice "A.B") ∧
        validate (portDevice "A.B") = .ok () ∧
        (exportDevice {} (portDevice "A.B")).outcome = .ok () ∧
        HasLine "  " "typealias A_B2 = A.B"
          (peripheralUnit {} (portDevice "A.B") (derivedPort "A.B")).text ∧
        HasLine "  " "struct A_B \x7b"
          (peripheralUnit {} (portDevice "A.B") (portBase "A.B")).text := by
  refine ⟨⟨rfl, validate_portDevice rfl, exportDevice_portDevice (by decide) rfl, ?_⟩,
    rfl, validate_portDevice rfl, exportDevice_portDevice (by decide) rfl, ?_⟩
  · exact hasLine_portDevice "switch" (by decide) rfl
  · exact hasLine_portDevice "A.B" (by decide) rfl

end RegisterMap.Export
