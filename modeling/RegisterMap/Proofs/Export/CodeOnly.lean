import RegisterMap.Proofs.Derivation.Validation
import RegisterMap.Proofs.Export.Bare
import RegisterMap.Proofs.Swift.CommentFree

/-!
# Descriptions and code

Whatever is described in a device ends up in comments.  Devices that are the same but
for their descriptions are rejected for the same kind of reason, or have units of the
same names in the same order that differ in nothing but comments.
-/

namespace RegisterMap.Export

open RegisterMap.Derivation RegisterMap.Model RegisterMap.Number RegisterMap.Report
open RegisterMap.Swift

/-! ## What is seen of an export -/

inductive ErrorKind where
  | derivation
  | selection
  | overflow
  | layout
  deriving DecidableEq, Repr

def ExportError.kind : ExportError → ErrorKind
  | .derivation _ => .derivation
  | .selection _ => .selection
  | .overflow _ => .overflow
  | .layout _ => .layout

/-- The name of a unit, and its text without comments. -/
def codeOf (unit : SourceUnit) : String × List (List Char) :=
  (unit.name, withoutComments unit.text)

/-- What an export comes to, comments aside: a kind of error, or units in some order. -/
def shownCode (run : Exporting Unit) : Except ErrorKind (List (String × List (List Char))) :=
  match run.outcome with
  | .error e => .error e.kind
  | .ok () => .ok ((writtenUnits run.events).map codeOf)

theorem shownCode_of_error {run : Exporting Unit} {e : ExportError}
    (h : run.outcome = .error e) : shownCode run = .error e.kind := by
  rw [shownCode, h]

theorem shownCode_of_ok {run : Exporting Unit} (h : run.outcome = .ok ()) :
    shownCode run = .ok ((writtenUnits run.events).map codeOf) := by
  rw [shownCode, h]

/-! ## Code of declarations -/

variable {options : Options} {depth : Nat}

/-- The code lines of a text at some depth. -/
def textCode (options : Options) (depth : Nat) (text : String) : List (List Char) :=
  Code.codeLinesAt options.indentation depth [.lines text]

theorem textCode_documented (hindent : IsIndentation options.indentation)
    (subject subject' : Subject) {lines : List String} (hne : lines ≠ []) :
    textCode options depth (subject.documented lines) =
      textCode options depth (subject'.documented lines) := by
  rw [textCode, textCode, Subject.documented, Subject.documented,
    Code.codeLinesAt_documented hindent _ hne, Code.codeLinesAt_documented hindent _ hne]

theorem map_textCode_instanceTexts (hindent : IsIndentation options.indentation)
    (inherited : RegisterProperties) (p : Peripheral) :
    (instanceTexts options inherited p.bare).map (textCode options depth) =
      (instanceTexts options inherited p).map (textCode options depth) := by
  have hexpansion : peripheralExpansion? p.bare (p.bare.properties.inheriting inherited) =
      peripheralExpansion? p (p.properties.inheriting inherited) := rfl
  simp only [instanceTexts, hexpansion]
  cases peripheralExpansion? p (p.properties.inheriting inherited) with
  | none => rfl
  | some x =>
      have hline (r : Replica) : instanceLine (instanceSubject options p.bare) p.baseAddress r =
          instanceLine (instanceSubject options p) p.baseAddress r := rfl
      have haddress : p.bare.baseAddress = p.baseAddress := rfl
      simp only [List.map_map, haddress, hline]
      refine List.map_congr_left fun r _ => ?_
      simp only [Function.comp_apply]
      exact textCode_documented hindent _ _ (List.cons_ne_nil _ _)

theorem map_textCode_replicaTexts (hindent : IsIndentation options.indentation) (m : Member)
    (x : Expansion) :
    (replicaTexts options m.bare x).map (textCode options depth) =
      (replicaTexts options m x).map (textCode options depth) := by
  cases m with
  | register r =>
      have hlines : registerLines (memberSubject options (.register r.bare)) r.addressOffset x =
          registerLines (memberSubject options (.register r)) r.addressOffset x := rfl
      have hne : registerLines (memberSubject options (.register r)) r.addressOffset x ≠ [] := by
        unfold registerLines
        split <;> exact List.cons_ne_nil _ _
      have haddress : r.bare.addressOffset = r.addressOffset := rfl
      simp only [replicaTexts, Member.bare, registerTexts, haddress, hlines]
      split
      · rfl
      · simp only [List.map_singleton, List.cons.injEq, and_true]
        exact textCode_documented hindent _ _ hne
  | cluster c =>
      have hlines (replica : Replica) :
          clusterLines (memberSubject options (.cluster c.bare)) c.bare.addressOffset replica =
            clusterLines (memberSubject options (.cluster c)) c.addressOffset replica := by
        rw [Cluster.bare_eq]
        rfl
      simp only [replicaTexts, Member.bare, List.map_map, hlines]
      refine List.map_congr_left fun replica _ => ?_
      simp only [Function.comp_apply]
      exact textCode_documented hindent _ _ (List.cons_ne_nil _ _)

theorem map_textCode_memberTexts (hindent : IsIndentation options.indentation)
    (inherited : RegisterProperties) (m : Member) :
    (memberTexts options inherited m.bare).map (textCode options depth) =
      (memberTexts options inherited m).map (textCode options depth) := by
  simp only [memberTexts, memberExpansion?_bare]
  cases memberExpansion? inherited m with
  | none => rfl
  | some x => exact map_textCode_replicaTexts hindent m x

def FieldMember.bare (m : FieldMember) : FieldMember :=
  { m with field := m.field.bare }

theorem fieldMembers_bare (names : FieldNames) (fields : List Field) :
    fieldMembers names (fields.map Field.bare) =
      (fieldMembers names fields).map FieldMember.bare := by
  induction fields generalizing names with
  | nil => rfl
  | cons f fields ih =>
      have hexpansion : fieldExpansion? f.bare = fieldExpansion? f := rfl
      rw [List.map_cons, fieldMembers, fieldMembers, hexpansion]
      cases fieldExpansion? f with
      | none => exact ih names
      | some x =>
          simp only [ih, List.map_append, List.map_map]
          rfl

theorem registerMembers_bare (r : Register) :
    registerMembers r.bare = (registerMembers r).map FieldMember.bare := by
  have hfields : r.bare.fields.getD [] = (r.fields.getD []).map Field.bare := getD_map_map _ _
  have hname : r.bare.name = r.name := rfl
  rw [registerMembers, hfields, hname, fieldMembers_bare]
  rfl

theorem textCode_fieldText (hindent : IsIndentation options.indentation) (access : Option Access)
    (m : FieldMember) :
    textCode options depth (m.bare.text options access) =
      textCode options depth (m.text options access) := by
  rw [textCode, textCode, FieldMember.text, FieldMember.text,
    Code.codeLinesAt_documented hindent _ (List.cons_ne_nil _ _),
    Code.codeLinesAt_documented hindent _ (List.cons_ne_nil _ _)]
  rfl

/-! ## Code of types and sections -/

theorem codeLinesAt_block_congr {heading heading' : String} {body body' : List Code}
    (hheading : textCode options depth heading = textCode options depth heading')
    (hbody : Code.codeLinesAt options.indentation (depth + 1) body =
      Code.codeLinesAt options.indentation (depth + 1) body') :
    Code.codeLinesAt options.indentation depth [.block heading body] =
      Code.codeLinesAt options.indentation depth [.block heading' body'] := by
  rw [textCode, textCode] at hheading
  rw [Code.codeLinesAt_block, Code.codeLinesAt_block, hheading, hbody]

theorem codeLinesAt_declarations_congr {texts texts' : List String}
    (h : texts.map (textCode options depth) = texts'.map (textCode options depth)) :
    Code.codeLinesAt options.indentation depth (Code.declarations texts) =
      Code.codeLinesAt options.indentation depth (Code.declarations texts') := by
  rw [Code.codeLinesAt_declarations, Code.codeLinesAt_declarations]
  exact congrArg _ h

theorem codeLinesAt_blockType (hindent : IsIndentation options.indentation) (t : Site) :
    Code.codeLinesAt options.indentation depth [t.bare.blockType options] =
      Code.codeLinesAt options.indentation depth [t.blockType options] := by
  have hmembers : t.bare.element.members = t.element.members.map Member.bare :=
    t.element.members_bare
  have hname : t.bare.element.typeName = t.element.typeName := t.element.typeName_bare
  have htexts : (t.bare.element.members.flatMap (memberTexts options t.bare.effective)).map
        (textCode options (depth + 1)) =
      (t.element.members.flatMap (memberTexts options t.effective)).map
        (textCode options (depth + 1)) := by
    rw [hmembers, Site.effective_bare, List.flatMap_map, List.map_flatMap, List.map_flatMap]
    exact List.flatMap_congr fun m _ => map_textCode_memberTexts hindent t.effective m
  have hline (description : Option String) :
      (Subject.mk description t.element.typeName options.modifiers).structLine =
        (Subject.mk none t.element.typeName options.modifiers).structLine := rfl
  simp only [Site.blockType, hname, Subject.blockHeading, hline]
  refine codeLinesAt_block_congr ?_ (codeLinesAt_declarations_congr htexts)
  exact textCode_documented hindent _ _ (List.cons_ne_nil _ _)

theorem codeLinesAt_registerType (hindent : IsIndentation options.indentation) (t : Site)
    (r : Register) :
    Code.codeLinesAt options.indentation depth [t.bare.registerType options r.bare] =
      Code.codeLinesAt options.indentation depth [t.registerType options r] := by
  have htexts : ((registerMembers r.bare).map
        (FieldMember.text options t.effective.access)).map (textCode options (depth + 1)) =
      ((registerMembers r).map (FieldMember.text options t.effective.access)).map
        (textCode options (depth + 1)) := by
    rw [registerMembers_bare, List.map_map, List.map_map, List.map_map]
    refine List.map_congr_left fun m _ => ?_
    simp only [Function.comp_apply]
    exact textCode_fieldText hindent t.effective.access m
  have hname : r.bare.name = r.name := rfl
  have hline (description : Option String) :
      (Subject.mk description (swiftName r.name) options.modifiers).structLine =
        (Subject.mk none (swiftName r.name) options.modifiers).structLine := rfl
  simp only [Site.registerType, Site.effective_bare, hname, Subject.registerHeading, hline]
  refine codeLinesAt_block_congr ?_ (codeLinesAt_declarations_congr htexts)
  exact textCode_documented hindent _ _ (List.cons_ne_nil _ _)

theorem codeLinesAt_aliasOrBlock (hindent : IsIndentation options.indentation) (t : Site) :
    Code.codeLinesAt options.indentation depth [t.bare.aliasOrBlock options] =
      Code.codeLinesAt options.indentation depth [t.aliasOrBlock options] := by
  have hderived : t.bare.element.derivedFrom = t.element.derivedFrom := t.element.derivedFrom_bare
  have hname : t.bare.element.typeName = t.element.typeName := t.element.typeName_bare
  rw [Site.aliasOrBlock, Site.aliasOrBlock, hderived]
  cases t.element.derivedFrom with
  | some base => simp only [aliasCode, hname]
  | none => exact codeLinesAt_blockType hindent t

theorem type_of_register {t : Site} {r : Register} (h : t.element = .member (.register r)) :
    t.type options = t.registerType options r := by
  simp only [Site.type, h]

theorem type_of_not_register {t : Site} (h : ∀ r, t.element ≠ .member (.register r)) :
    t.type options = t.aliasOrBlock options := by
  unfold Site.type
  split
  · rename_i r hr
    exact absurd hr (h r)
  · rfl

theorem codeLinesAt_type (hindent : IsIndentation options.indentation) (t : Site) :
    Code.codeLinesAt options.indentation depth [t.bare.type options] =
      Code.codeLinesAt options.indentation depth [t.type options] := by
  by_cases hregister : ∃ r, t.element = .member (.register r)
  · rcases hregister with ⟨r, hr⟩
    have hbare : t.bare.element = .member (.register r.bare) := by rw [Site.bare, hr]; rfl
    rw [type_of_register hr, type_of_register hbare]
    exact codeLinesAt_registerType hindent t r
  · rw [not_exists] at hregister
    have hbare : ∀ r, t.bare.element ≠ .member (.register r) := by
      intro r hr
      rcases t with ⟨p | ⟨r' | c⟩, enclosing, inherited, address⟩
      · cases hr
      · exact hregister r' rfl
      · cases hr
    rw [type_of_not_register hregister, type_of_not_register hbare]
    exact codeLinesAt_aliasOrBlock hindent t

theorem codeLinesAt_types (hindent : IsIndentation options.indentation) (s : Section) :
    Code.codeLinesAt options.indentation depth (s.bare.types options) =
      Code.codeLinesAt options.indentation depth (s.types options) := by
  have hbody (depth : Nat) : Code.codeLinesAt options.indentation depth
        (Code.spaced (s.bare.sites.map fun t => [t.type options])) =
      Code.codeLinesAt options.indentation depth
        (Code.spaced (s.sites.map fun t => [t.type options])) := by
    simp only [Code.codeLinesAt_spaced, Section.sites_bare, List.map_map]
    refine congrArg _ (List.map_congr_left fun t _ => ?_)
    exact codeLinesAt_type hindent t
  have henclosing : s.bare.enclosing = s.enclosing := rfl
  simp only [Section.types, henclosing]
  split
  · exact hbody depth
  · exact codeLinesAt_block_congr rfl (hbody (depth + 1))

/-! ## Units -/

theorem codeOf_peripheralUnit (hindent : IsIndentation options.indentation) (device : Device)
    (p : Peripheral) :
    codeOf (peripheralUnit options device.bare p.bare) =
      codeOf (peripheralUnit options device p) := by
  have hsections : Code.codeLinesAt options.indentation 0 (Code.spaced
        ((peripheralSite options device.bare p.bare).sections.map (Section.types options))) =
      Code.codeLinesAt options.indentation 0 (Code.spaced
        ((peripheralSite options device p).sections.map (Section.types options))) := by
    rw [peripheralSite_bare, Site.sections_bare]
    simp only [Code.codeLinesAt_spaced, List.map_map]
    exact congrArg _ (List.map_congr_left fun s _ => codeLinesAt_types hindent s)
  have hname : unitName p.bare = unitName p := rfl
  simp only [codeOf, peripheralUnit, Code.withoutComments_text, hname]
  rw [Code.codeLinesAt_cons, hsections, ← Code.codeLinesAt_cons]

theorem codeLinesAt_deviceCode (hindent : IsIndentation options.indentation) (device : Device)
    (exported : List Peripheral) :
    Code.codeLinesAt options.indentation depth
        (deviceCode options device.bare (exported.map Peripheral.bare)) =
      Code.codeLinesAt options.indentation depth (deviceCode options device exported) := by
  have hbody (depth : Nat) : Code.codeLinesAt options.indentation depth (Code.declarations
        ((exported.map Peripheral.bare).flatMap (instanceTexts options device.properties))) =
      Code.codeLinesAt options.indentation depth (Code.declarations
        (exported.flatMap (instanceTexts options device.properties))) := by
    refine codeLinesAt_declarations_congr ?_
    rw [List.flatMap_map, List.map_flatMap, List.map_flatMap]
    exact List.flatMap_congr fun p _ => map_textCode_instanceTexts hindent device.properties p
  have hproperties : device.bare.properties = device.properties := rfl
  simp only [deviceCode, hproperties]
  split
  · refine codeLinesAt_block_congr ?_ (hbody (depth + 1))
    exact textCode_documented hindent _ _ (List.cons_ne_nil _ _)
  · exact hbody depth

theorem codeOf_deviceUnit (hindent : IsIndentation options.indentation) (device : Device)
    (exported : List Peripheral) :
    codeOf (deviceUnit options device.bare (exported.map Peripheral.bare)) =
      codeOf (deviceUnit options device exported) := by
  have hcode : Code.codeLinesAt options.indentation 0
        (deviceCode options device.bare (exported.map Peripheral.bare)) =
      Code.codeLinesAt options.indentation 0 (deviceCode options device exported) :=
    codeLinesAt_deviceCode hindent device exported
  simp only [codeOf, deviceUnit, Code.withoutComments_text]
  rw [Code.codeLinesAt_cons, hcode, ← Code.codeLinesAt_cons]

theorem map_codeOf_selectionUnits (hindent : IsIndentation options.indentation) (device : Device)
    (selected : List Peripheral) :
    (selectionUnits options device.bare (selected.map Peripheral.bare)).map codeOf =
      (selectionUnits options device selected).map codeOf := by
  rw [selectionUnits, selectionUnits, shownPeripherals_bare, List.map_cons, List.map_cons,
    codeOf_deviceUnit hindent, List.map_map, List.map_map, List.map_map]
  exact congrArg _ (List.map_congr_left fun p _ => codeOf_peripheralUnit hindent device p)

/-! ## Exports -/

theorem shownCode_of_fits {device : Device} {selected : List Peripheral}
    (hvalid : options.validateDerivations = true → validate device = .ok ())
    (hselected : selectPeripherals device options.selectedPeripherals = .ok selected)
    (hfits : SelectionFits options device selected) :
    shownCode (exportDevice options device) =
      .ok ((selectionUnits options device selected).map codeOf) := by
  have hok : (exportDevice options device).outcome = .ok () := by
    rw [exportDevice_of_valid hvalid]
    exact (exportSelected_settled hselected).outcome_iff.mpr ⟨hfits, rfl⟩
  rw [shownCode_of_ok hok, writtenUnits_exportDevice hselected hok]

theorem shownCode_of_not_fits {device : Device} {selected : List Peripheral}
    (hvalid : options.validateDerivations = true → validate device = .ok ())
    (hselected : selectPeripherals device options.selectedPeripherals = .ok selected)
    (hfits : ¬SelectionFits options device selected) :
    shownCode (exportDevice options device) = .error .overflow := by
  rcases (exportSelected_settled hselected).failed hfits with ⟨e, ⟨overflow, rfl⟩, he⟩
  rw [exportDevice_of_valid hvalid, shownCode_of_error he]
  rfl

theorem shownCode_bare (hindent : IsIndentation options.indentation) (device : Device) :
    shownCode (exportDevice options device.bare) = shownCode (exportDevice options device) := by
  by_cases hvalid : options.validateDerivations = true → validate device = .ok ()
  · have hbare : options.validateDerivations = true → validate device.bare = .ok () := by
      rwa [validate_bare]
    have hselect := selectPeripherals_bare device options.selectedPeripherals
    cases hselected : selectPeripherals device options.selectedPeripherals with
    | error u =>
        rw [hselected] at hselect
        rw [exportDevice_of_valid hvalid, exportDevice_of_valid hbare,
          exportSelected_of_unknown hselected, exportSelected_of_unknown hselect]
    | ok selected =>
        rw [hselected] at hselect
        by_cases hfits : SelectionFits options device selected
        · rw [shownCode_of_fits hvalid hselected hfits,
            shownCode_of_fits hbare hselect (selectionFits_bare.mpr hfits),
            map_codeOf_selectionUnits hindent]
        · rw [shownCode_of_not_fits hvalid hselected hfits,
            shownCode_of_not_fits hbare hselect (mt selectionFits_bare.mp hfits)]
  · rw [Classical.not_imp] at hvalid
    cases hvalidate : validate device with
    | ok u => exact absurd hvalidate hvalid.2
    | error e =>
        have hbare : validate device.bare = .error e := by rw [validate_bare, hvalidate]
        rw [exportDevice_of_invalid hvalid.1 hvalidate, exportDevice_of_invalid hvalid.1 hbare]

/--
Two devices that are the same but for their descriptions come to the same under the same
options: the same kind of error, or units of the same names in the same order whose texts
are the same line by line, comments aside.
-/
theorem exportDevice_ignores_descriptions (options : Options) (device device' : Device)
    (hindent : IsIndentation options.indentation) (h : device.bare = device'.bare) :
    shownCode (exportDevice options device) = shownCode (exportDevice options device') := by
  rw [← shownCode_bare hindent device, h, shownCode_bare hindent device']

/-! ### A description with separators and braces -/

def describedDevice (description : String) : Device where
  peripherals := [{
    name := "PORT"
    baseAddress := 0x1000
    description := some description
    registers := some [{
      name := "OUT"
      addressOffset := 0
      description := some description
      properties := { size := some 8 } }] }]

theorem selectPeripherals_describedDevice (description : String) :
    selectPeripherals (describedDevice description) [] =
      .ok (describedDevice description).peripherals := by
  have hsorted : sortByName (describedDevice description).peripherals =
      (describedDevice description).peripherals := by
    refine List.mergeSort_of_pairwise ?_
    simp [describedDevice]
  rw [← hsorted]
  rfl

theorem exportDevice_describedDevice (description : String) :
    (exportDevice {} (describedDevice description)).outcome = .ok () := by
  have hvalid : validate (describedDevice description) = .ok () :=
    validate_of_definitions (by simp [describedDevice])
      (by simp [deviceClusters, describedDevice, pathsOfAll])
  refine exportDevice_of_parts hvalid (selectPeripherals_describedDevice description) rfl ?_
  intro pair hpair
  obtain rfl := List.mem_singleton.mp hpair
  exact ⟨_, rfl⟩

/-- Neither a separator nor a brace gets out of the comments. -/
theorem exportDevice_ignores_descriptions_port :
    (exportDevice {} (describedDevice "Output")).outcome = .ok () ∧
      (exportDevice {} (describedDevice "\u2028struct PORT \x7b\x0c\x7d\x0d")).outcome = .ok () ∧
      shownCode (exportDevice {} (describedDevice "Output")) =
        shownCode (exportDevice {} (describedDevice "\u2028struct PORT \x7b\x0c\x7d\x0d")) := by
  refine ⟨exportDevice_describedDevice _, exportDevice_describedDevice _, ?_⟩
  exact exportDevice_ignores_descriptions {} _ _ (by decide) rfl

end RegisterMap.Export
