import RegisterMap.Proofs.Derivation.Validation
import RegisterMap.Proofs.Export.Outcome
import RegisterMap.Proofs.Swift.SourceLine

/-!
# Layout of written units

Every declaration is made of comments and of statements, and every block has a heading
that ends in its brace.  So whatever device is exported, in the text of a unit every
line stands behind the indentation of the blocks around it, and all blocks end.
-/

namespace RegisterMap.Export

open RegisterMap.Derivation RegisterMap.Model RegisterMap.Number RegisterMap.Report
open RegisterMap.Swift RegisterMap.Text

/-! ## Lines of declarations -/

/-- True of modifiers that can stand in front of the words of a declaration. -/
structure IsLead (modifiers : String) : Prop where
  code : IsCode modifiers
  visible : modifiers = "" ∨ StartsVisible modifiers

namespace IsLead

variable {modifiers : String}

theorem startsVisible (h : IsLead modifiers) {word : String} (hword : StartsVisible word) :
    StartsVisible (modifiers ++ word) := by
  rcases h.visible with rfl | hvisible
  · rwa [String.empty_append]
  · exact hvisible.append word

/-- Modifiers, a word and more code make a statement. -/
theorem isFlat (h : IsLead modifiers) (word rest : String)
    (hword : IsCode word ∧ StartsVisible word) (hrest : IsCode rest) :
    IsFlat (modifiers ++ word ++ rest) := by
  refine isFlat_of_isCode ?_ ((h.startsVisible hword.2).append rest)
  exact isCode_append.mpr ⟨isCode_append.mpr ⟨h.code, hword.1⟩, hrest⟩

theorem hasKind_opening (h : IsLead modifiers) (word name : String)
    (hword : IsCode word ∧ StartsVisible word) (hname : IsSingle name) :
    HasKind .opening (modifiers ++ word ++ name ++ " \x7b") :=
  Swift.hasKind_opening _ (isCode_append.mpr ⟨h.code, hword.1⟩) (h.startsVisible hword.2) hname

end IsLead

theorem isLead_modifiers (options : Options) : IsLead options.modifiers := by
  refine ⟨isCode_modifiers options, ?_⟩
  unfold Options.modifiers
  split
  · exact .inl rfl
  · rename_i level _
    refine .inr ?_
    cases level <;> decide

theorem isLead_instanceModifiers (options : Options) : IsLead options.instanceModifiers := by
  refine ⟨isCode_instanceModifiers options, ?_⟩
  unfold Options.instanceModifiers
  split
  · exact .inr ((isLead_modifiers options).startsVisible (by decide))
  · exact (isLead_modifiers options).visible

/-- An attribute of a declaration is a statement of its own. -/
theorem isFlat_attribute (name rest : String) (hname : IsCode name) (hrest : IsCode rest) :
    IsFlat ("@" ++ name ++ rest) := by
  refine isFlat_of_isCode ?_ (StartsVisible.append (StartsVisible.append (by decide) _) _)
  simp only [isCode_append]
  exact ⟨⟨by decide, hname⟩, hrest⟩

theorem isFlat_widthAttribute (size : Int) :
    IsFlat ("@Register(bitWidth: " ++ toString size ++ ")") := by
  have hrest : IsCode (toString size ++ ")") :=
    isCode_append.mpr ⟨isCode_toString size, by decide⟩
  have hattribute := isFlat_attribute "Register(bitWidth: " _ (by decide) hrest
  simp only [← String.append_assoc] at hattribute
  exact hattribute

/-- A subject whose name is made of the characters of names. -/
structure IsNamed (subject : Subject) : Prop where
  name : IsName subject.typeName
  lead : IsLead subject.modifiers

/-- The lines of the member for a field with some bits, the upper one excluded. -/
def fieldLines (subject : Subject) (access : String) (lsb upper : Int) : List String :=
  ["@" ++ access ++ "(bits: " ++ toString lsb ++ "..<" ++ toString upper ++ ")",
    subject.modifiers ++ "var " ++ identifier (instanceName subject.typeName) ++ ": " ++
      identifier subject.typeName]

theorem isNamed_subject (options : Options) (description : Option String) (name : String) :
    IsNamed ⟨description, swiftName name, options.modifiers⟩ :=
  ⟨isName_swiftName name, isLead_modifiers options⟩

namespace IsNamed

variable {subject : Subject}

theorem isCode_property (h : IsNamed subject) (r : Replica) : IsCode (subject.propertyName r) :=
  (isName_append.mpr ⟨h.name.toLower, isName_replicaSuffix r⟩).isCode_identifier

theorem isCode_type (h : IsNamed subject) : IsCode (identifier subject.typeName) :=
  h.name.isCode_identifier

theorem isFlat_instanceLine (h : IsNamed subject) (baseAddress : Int) (r : Replica) :
    IsFlat (instanceLine subject baseAddress r) := by
  have haddress := isCode_hexLiteral (baseAddress + r.offset)
  have hrest : IsCode (subject.propertyName r ++ (" = " ++ (identifier subject.typeName ++
      ("(unsafeAddress: " ++ (hexLiteral (baseAddress + r.offset) ++ ")"))))) := by
    simp only [isCode_append]
    exact ⟨h.isCode_property r, by decide, h.isCode_type, by decide, haddress, by decide⟩
  have hflat := h.lead.isFlat "let " _ (by decide) hrest
  simpa only [instanceLine, String.append_assoc] using hflat

theorem isFlat_clusterLines (h : IsNamed subject) (addressOffset : Int) (r : Replica) :
    ∀ line ∈ clusterLines subject addressOffset r, IsFlat line := by
  have hoffset := isCode_hexLiteral (addressOffset + r.offset)
  have hrest : IsCode (subject.propertyName r ++ (": " ++ identifier subject.typeName)) := by
    simp only [isCode_append]
    exact ⟨h.isCode_property r, by decide, h.isCode_type⟩
  have hattribute := isFlat_attribute "RegisterBlock(offset: "
    (hexLiteral (addressOffset + r.offset) ++ ")") (by decide)
    (isCode_append.mpr ⟨hoffset, by decide⟩)
  have hmember := h.lead.isFlat "var " _ (by decide) hrest
  simp only [← String.append_assoc] at hattribute hmember
  exact List.forall_mem_cons.mpr ⟨hattribute, List.forall_mem_singleton.mpr hmember⟩

theorem isFlat_registerLines (h : IsNamed subject) (addressOffset : Int) (x : Expansion) :
    ∀ line ∈ registerLines subject addressOffset x, IsFlat line := by
  have hoffset := isCode_hexLiteral addressOffset
  have hproperty : IsCode (identifier (instanceName subject.typeName)) :=
    h.name.toLower.isCode_identifier
  have hmember (kind : String) (hkind : IsCode kind) : IsFlat (subject.modifiers ++ "var " ++
      identifier (instanceName subject.typeName) ++ ": " ++
        (kind ++ identifier subject.typeName ++ ">")) := by
    have hrest : IsCode (identifier (instanceName subject.typeName) ++ (": " ++
        (kind ++ identifier subject.typeName ++ ">"))) := by
      simp only [isCode_append]
      exact ⟨hproperty, by decide, ⟨hkind, h.isCode_type⟩, by decide⟩
    simpa only [String.append_assoc] using h.lead.isFlat "var " _ (by decide) hrest
  unfold registerLines
  cases hcount : x.count with
  | none =>
      have hattribute := isFlat_attribute "RegisterBlock(offset: "
        (hexLiteral addressOffset ++ ")") (by decide) (isCode_append.mpr ⟨hoffset, by decide⟩)
      have hscalar := hmember "Register<" (by decide)
      simp only [← String.append_assoc] at hattribute hscalar
      exact List.forall_mem_cons.mpr ⟨hattribute, List.forall_mem_singleton.mpr hscalar⟩
  | some count =>
      have hrest : IsCode (hexLiteral addressOffset ++ (", stride: " ++ (hexLiteral x.stride ++
          (", count: " ++ (toString count ++ ")"))))) := by
        simp only [isCode_append]
        exact ⟨hoffset, by decide, isCode_hexLiteral _, by decide, isCode_toString _, by decide⟩
      have hattribute := isFlat_attribute "RegisterBlock(offset: " _ (by decide) hrest
      have harray := hmember "RegisterArray<" (by decide)
      simp only [← String.append_assoc] at hattribute harray
      exact List.forall_mem_cons.mpr ⟨hattribute, List.forall_mem_singleton.mpr harray⟩

theorem isFlat_fieldLines (h : IsNamed subject) {access : String} (haccess : IsCode access)
    (lsb upper : Int) : ∀ line ∈ fieldLines subject access lsb upper, IsFlat line := by
  have hbits : IsCode ("(bits: " ++ (toString lsb ++ ("..<" ++ (toString upper ++ ")")))) := by
    simp only [isCode_append]
    exact ⟨by decide, isCode_toString _, by decide, isCode_toString _, by decide⟩
  have hrest : IsCode (identifier (instanceName subject.typeName) ++
      (": " ++ identifier subject.typeName)) := by
    simp only [isCode_append]
    exact ⟨h.name.toLower.isCode_identifier, by decide, h.isCode_type⟩
  have hattribute := isFlat_attribute access _ haccess hbits
  have hmember := h.lead.isFlat "var " _ (by decide) hrest
  simp only [← String.append_assoc] at hattribute hmember
  exact List.forall_mem_cons.mpr ⟨hattribute, List.forall_mem_singleton.mpr hmember⟩

theorem hasKind_structLine (h : IsNamed subject) : HasKind .opening subject.structLine :=
  h.lead.hasKind_opening "struct " _ (by decide) h.name.isSingle.identifier

end IsNamed

theorem isFlat_typeAlias (options : Options) (e : Element) (base : String) :
    IsFlat (typeAlias options.modifiers e.typeName (aliasTarget base)) := by
  have hrest : IsCode (identifier e.typeName ++ (" = " ++ aliasTarget base)) := by
    simp only [isCode_append]
    exact ⟨(isName_swiftName e.name).isCode_identifier, by decide, isCode_aliasTarget base⟩
  have hflat := (isLead_modifiers options).isFlat "typealias " _ (by decide) hrest
  simpa only [typeAlias, String.append_assoc] using hflat

/-! ## Nested declarations -/

variable {options : Options}

theorem nested_instanceTexts (hindent : IsIndentation options.indentation)
    (inherited : RegisterProperties) (p : Peripheral) :
    ∀ text ∈ instanceTexts options inherited p,
      Code.Nested options.indentation [.lines text] := by
  have hnamed : IsNamed (instanceSubject options p) :=
    ⟨isName_swiftName p.name, isLead_instanceModifiers options⟩
  intro text htext
  unfold instanceTexts at htext
  split at htext
  · cases htext
  · rcases List.mem_map.mp htext with ⟨r, -, rfl⟩
    refine .documented hindent _ (List.cons_ne_nil _ _) ?_
    exact List.forall_mem_singleton.mpr (hnamed.isFlat_instanceLine p.baseAddress r)

theorem nested_replicaTexts (hindent : IsIndentation options.indentation) (m : Member)
    (x : Expansion) :
    ∀ text ∈ replicaTexts options m x, Code.Nested options.indentation [.lines text] := by
  intro text htext
  cases m with
  | cluster c =>
      rcases List.mem_map.mp htext with ⟨r, -, rfl⟩
      have hlines := (isNamed_subject options c.description c.name).isFlat_clusterLines
        c.addressOffset r
      exact .documented hindent _ (List.cons_ne_nil _ _) hlines
  | register r =>
      have hlines := (isNamed_subject options r.description r.name).isFlat_registerLines
        r.addressOffset x
      have hne : registerLines (memberSubject options (.register r)) r.addressOffset x ≠ [] := by
        unfold registerLines
        split <;> exact List.cons_ne_nil _ _
      rw [replicaTexts, registerTexts] at htext
      split at htext
      · cases htext
      · obtain rfl := List.mem_singleton.mp htext
        exact .documented hindent _ hne hlines

theorem nested_memberTexts (hindent : IsIndentation options.indentation)
    (inherited : RegisterProperties) (m : Member) :
    ∀ text ∈ memberTexts options inherited m, Code.Nested options.indentation [.lines text] := by
  intro text htext
  unfold memberTexts at htext
  split at htext
  · cases htext
  · exact nested_replicaTexts hindent m _ text htext

theorem nested_fieldText (hindent : IsIndentation options.indentation) (access : Option Access)
    {m : FieldMember} (hname : IsName m.typeName) :
    Code.Nested options.indentation [.lines (m.text options access)] := by
  let subject : Subject := ⟨m.field.description, m.typeName, options.modifiers⟩
  have hnamed : IsNamed subject := ⟨hname, isLead_modifiers options⟩
  have htext : m.text options access = subject.documented
      (fieldLines subject (m.accessName access) m.bits.lsb (m.bits.msb + 1)) := rfl
  have hlines := hnamed.isFlat_fieldLines (isCode_accessAttribute (m.field.access.or access))
    m.bits.lsb (m.bits.msb + 1)
  rw [htext]
  exact .documented hindent subject (List.cons_ne_nil _ _) hlines

/-! ## Nested types and sections -/

theorem nested_aliasCode (hindent : IsIndentation options.indentation) (e : Element)
    (base : String) : Code.Nested options.indentation [aliasCode options e base] :=
  fun _ => Code.leads_flat hindent (isFlat_typeAlias options e base)

theorem nested_blockType (hindent : IsIndentation options.indentation) (t : Site) :
    Code.Nested options.indentation [t.blockType options] := by
  have hnamed := isNamed_subject options t.element.description t.element.name
  refine .documentedBlock hindent _ ["@RegisterBlock"] ?_ hnamed.hasKind_structLine ?_
  · exact List.forall_mem_singleton.mpr (isFlat_of_isCode (by decide) (by decide))
  · refine .declarations hindent fun text htext => ?_
    rcases List.mem_flatMap.mp htext with ⟨m, -, htext⟩
    exact nested_memberTexts hindent _ m text htext

theorem nested_registerType (hindent : IsIndentation options.indentation) (t : Site)
    (r : Register) : Code.Nested options.indentation [t.registerType options r] := by
  have hnamed := isNamed_subject options r.description r.name
  have hwidth := List.forall_mem_singleton.mpr (isFlat_widthAttribute (t.effective.size.getD 0))
  refine .documentedBlock hindent _ [_] hwidth hnamed.hasKind_structLine ?_
  refine .declarations hindent fun text htext => ?_
  rcases List.mem_map.mp htext with ⟨m, hm, rfl⟩
  exact nested_fieldText hindent _ (isName_typeName_of_mem hm)

/-- Whatever element it declares, the declaration of a type ends the blocks that it begins. -/
theorem nested_type (hindent : IsIndentation options.indentation) (t : Site) :
    Code.Nested options.indentation [t.type options] := by
  have hblock : Code.Nested options.indentation [t.aliasOrBlock options] := by
    unfold Site.aliasOrBlock
    split
    · exact nested_aliasCode hindent _ _
    · exact nested_blockType hindent t
  unfold Site.type
  split
  · exact nested_registerType hindent t _
  · exact hblock

theorem nested_types (hindent : IsIndentation options.indentation) (s : Section)
    (henclosing : ∀ name ∈ s.enclosing, IsSingle name) :
    Code.Nested options.indentation (s.types options) := by
  have hbody : Code.Nested options.indentation
      (Code.spaced (s.sites.map fun t => [t.type options])) := by
    refine .spaced hindent fun piece hpiece => ?_
    rcases List.mem_map.mp hpiece with ⟨t, -, rfl⟩
    exact nested_type hindent t
  unfold Section.types
  split
  · exact hbody
  · have hpath : IsSingle (String.intercalate "." (s.enclosing.map identifier)) := by
      refine isSingle_intercalate (by decide) fun piece hpiece => ?_
      rcases List.mem_map.mp hpiece with ⟨name, hname, rfl⟩
      exact (henclosing name hname).identifier
    have hheading := hasKind_opening "extension " (by decide) (by decide) hpath
    exact .block hindent [] (by simp) hheading hbody

/-! ## Units -/

theorem isSingle_deviceTypeName (device : Device)
    (hname : ∀ name ∈ options.deviceName, IsSingle name) :
    IsSingle (deviceTypeName options device) := by
  have hown : IsSingle (swiftName device.name) := (isName_swiftName device.name).isSingle
  unfold deviceTypeName
  split
  · exact hown
  · rename_i name hsome
    split
    · exact hown
    · exact hname name hsome

theorem isSingle_peripheralSite (device : Device)
    (hname : ∀ name ∈ options.deviceName, IsSingle name) (p : Peripheral) :
    ∀ name ∈ (peripheralSite options device p).enclosing, IsSingle name := by
  have hdevice := isSingle_deviceTypeName device hname
  simp only [peripheralSite]
  split
  · exact List.forall_mem_singleton.mpr hdevice
  · simp

theorem isSingle_enclosing {root : Site} (hroot : ∀ name ∈ root.enclosing, IsSingle name) :
    ∀ s ∈ root.sections, ∀ name ∈ s.enclosing, IsSingle name := by
  intro s hs
  rcases List.mem_cons.mp hs with rfl | hs
  · exact hroot
  · rcases List.mem_map.mp hs with ⟨⟨place, t⟩, hblock, rfl⟩
    have hpath := Site.path_of_at? (Site.mem_levelOrder.mp hblock).1
    change ∀ name ∈ t.path, IsSingle name
    rw [hpath]
    refine List.forall_mem_append.mpr ⟨hroot, fun name hmem => ?_⟩
    rcases List.mem_map.mp hmem with ⟨u, -, rfl⟩
    exact (isName_swiftName u.element.name).isSingle

def fileHeaderLines : List String :=
  ["// Generated by svd2swift.", "", "import MMIO", ""]

theorem fileHeader_eq : fileHeader = .lines (joinLines fileHeaderLines) := by
  simp [fileHeader, joinLines, fileHeaderLines]

theorem isFlat_fileHeaderLines : ∀ line ∈ fileHeaderLines, IsFlat line := by
  have hnote : HasKind .plain "// Generated by svd2swift." :=
    ⟨by decide, ⟨_, _, rfl, by decide⟩, by decide⟩
  have himport : IsFlat "import MMIO" := isFlat_of_isCode (by decide) (by decide)
  simp only [fileHeaderLines, List.forall_mem_cons]
  exact ⟨.inr (.inr hnote), .inl rfl, himport, .inl rfl, by simp⟩

theorem nested_fileHeader (hindent : IsIndentation options.indentation) :
    Code.Nested options.indentation [fileHeader] := by
  rw [fileHeader_eq]
  exact .lines hindent (List.cons_ne_nil _ _) isFlat_fileHeaderLines

def fileHeaderText : String := "// Generated by svd2swift.\n\nimport MMIO\n\n"

theorem text_fileHeader (indentation : String) (code : List Code) :
    ∃ rest, Code.text indentation (fileHeader :: code) = fileHeaderText ++ rest := by
  refine ⟨Code.textAt indentation 0 code, ?_⟩
  rw [Code.text_eq_textAt, ← List.singleton_append, Code.textAt_append]
  rfl

theorem nested_deviceCode (hindent : IsIndentation options.indentation) {device : Device}
    (hname : ∀ name ∈ options.deviceName, IsSingle name) (exported : List Peripheral) :
    Code.Nested options.indentation (deviceCode options device exported) := by
  have hbody : Code.Nested options.indentation
      (Code.declarations (exported.flatMap (instanceTexts options device.properties))) := by
    refine .declarations hindent fun text htext => ?_
    rcases List.mem_flatMap.mp htext with ⟨p, -, htext⟩
    exact nested_instanceTexts hindent _ p text htext
  have hkind (isStruct : Bool) : IsCode (if isStruct then "struct " else "enum ") ∧
      StartsVisible (if isStruct then "struct " else "enum ") := by
    cases isStruct <;> decide
  unfold deviceCode
  split
  · have hheading := (isLead_modifiers options).hasKind_opening _ _
      (hkind options.instanceMemberPeripherals)
      (isSingle_deviceTypeName device hname).identifier
    exact .documentedBlock hindent _ [] (by simp) hheading hbody
  · exact hbody

theorem nested_peripheralSections (hindent : IsIndentation options.indentation) {device : Device}
    (hname : ∀ name ∈ options.deviceName, IsSingle name) (p : Peripheral) :
    Code.Nested options.indentation
      (Code.spaced ((peripheralSite options device p).sections.map (Section.types options))) := by
  have hroot := isSingle_peripheralSite device hname p
  refine .spaced hindent fun piece hpiece => ?_
  rcases List.mem_map.mp hpiece with ⟨s, hs, rfl⟩
  exact nested_types hindent s (isSingle_enclosing hroot s hs)

/--
If the indentation is made of spaces and tabs and a name that is given to the device stands
on one line, an export does not fail in the layout of a unit, and every unit that it
finishes, even if it fails later, begins with the file header and is laid out well.
-/
theorem exportDevice_wellLaid (options : Options) (device : Device)
    (hindent : IsIndentation options.indentation)
    (hname : ∀ name ∈ options.deviceName, IsSingle name) :
    (∀ e, (exportDevice options device).outcome ≠ .error (.layout e)) ∧
      ∀ unit ∈ writtenUnits (exportDevice options device).events,
        (∃ rest, unit.text = fileHeaderText ++ rest) ∧
          WellLaid options.indentation unit.text := by
  have hunit (code : List Code) (h : Code.Nested options.indentation code) :
      (∃ rest, Code.text options.indentation (fileHeader :: code) = fileHeaderText ++ rest) ∧
        WellLaid options.indentation (Code.text options.indentation (fileHeader :: code)) :=
    ⟨text_fileHeader _ code, ((nested_fileHeader hindent).cons h).wellLaid⟩
  refine ⟨exportDevice_ne_layout options device, fun unit hmem => ?_⟩
  rcases eq_of_mem_writtenUnits hmem with ⟨selected, -, hunits⟩
  rcases List.mem_cons.mp hunits with rfl | hunits
  · exact hunit _ (nested_deviceCode hindent hname _)
  · rcases List.mem_map.mp hunits with ⟨p, -, rfl⟩
    exact hunit _ (nested_peripheralSections hindent hname p)

/-! ### Braces in descriptions -/

def bracedOptions : Options where
  indentation := "\t"
  namespaceUnderDevice := true
  deviceName := some "Chip"

def counter : Peripheral where
  name := "COUNTER"
  baseAddress := 0x40000000
  description := some "Counts up\u2028struct Counter \x7b"
  registers := some [{ name := "CR", addressOffset := 0, properties := { size := some 32 } }]

def bracedDevice : Device where
  description := some "\x7d"
  peripherals := [counter]

theorem selectPeripherals_bracedDevice :
    selectPeripherals bracedDevice [] = .ok bracedDevice.peripherals := by
  have hsorted : sortByName bracedDevice.peripherals = bracedDevice.peripherals := by
    refine List.mergeSort_of_pairwise ?_
    simp [bracedDevice]
  rw [← hsorted]
  rfl

theorem exportDevice_bracedDevice :
    (exportDevice bracedOptions bracedDevice).outcome = .ok () := by
  have hvalid : validate bracedDevice = .ok () :=
    validate_of_definitions (by simp [bracedDevice, counter]) (by decide)
  refine exportDevice_of_parts hvalid selectPeripherals_bracedDevice rfl ?_
  intro pair hpair
  obtain rfl := List.mem_singleton.mp hpair
  exact ⟨_, rfl⟩

/-- The braces of the descriptions stay in the comments. -/
theorem exportDevice_wellLaid_braces :
    ∃ unit ∈ writtenUnits (exportDevice bracedOptions bracedDevice).events,
      unit.text = "// Generated by svd2swift.\n\nimport MMIO\n\n" ++
        "/// \x7d\nenum Chip \x7b\n\t/// Counts up\n\t/// struct Counter \x7b\n" ++
        "\tstatic let counter = COUNTER(unsafeAddress: 0x4000_0000)\n\x7d\n" ∧
      WellLaid "\t" unit.text := by
  have hindent : IsIndentation bracedOptions.indentation := by decide
  have hname : ∀ name ∈ bracedOptions.deviceName, IsSingle name := by
    intro name hname
    obtain rfl := Option.some.inj hname
    decide
  have hlaid := (exportDevice_wellLaid bracedOptions bracedDevice hindent hname).2
  have hexported : exportedPeripherals bracedOptions bracedDevice = [counter] := by
    rw [exportedPeripherals_eq selectPeripherals_bracedDevice]
    rfl
  have hunit : deviceUnit bracedOptions bracedDevice [counter] ∈
      writtenUnits (exportDevice bracedOptions bracedDevice).events := by
    rw [(exported_of_exportDevice exportDevice_bracedDevice).units, hexported]
    exact List.mem_cons_self
  exact ⟨_, hunit, by decide +kernel, (hlaid _ hunit).2⟩

end RegisterMap.Export
