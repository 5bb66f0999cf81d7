import RegisterMap.Proofs.Export.UnitLayout
import RegisterMap.Proofs.Report.InStep
import RegisterMap.Proofs.Swift.Marking

/-!
# Access levels

An export with an access level does what the export without one does.  Every
declaration that it writes has the word of the level in front, and nothing else does:
the two exports run in step from their accessors up to their units.
-/

namespace RegisterMap.Export

open RegisterMap.Derivation RegisterMap.Model RegisterMap.Number RegisterMap.Report
open RegisterMap.Swift RegisterMap.Swift.Code

/-! ## Two exports -/

def Options.plain (options : Options) : Options :=
  { options with accessLevel := none }

def Options.leveled (options : Options) (level : AccessLevel) : Options :=
  { options with accessLevel := some level }

/-- What an access level puts in front of a declaration. -/
def AccessLevel.mark (level : AccessLevel) : String :=
  level.word ++ " "

/-- An event as it is recorded when the declarations of units have a mark. -/
def Event.marked (mark : String) : Event → Event
  | .wrote unit => .wrote (unit.marked mark)
  | event => event

variable {options : Options} {level : AccessLevel} {indentation mark : String}

theorem AccessLevel.isMark (level : AccessLevel) : IsMark level.mark := by
  cases level <;> exact ⟨by decide, by decide⟩

theorem leveled_modifiers (options : Options) (level : AccessLevel) :
    (options.leveled level).modifiers = level.mark ++ options.plain.modifiers :=
  String.append_empty.symm

theorem leveled_instanceModifiers (options : Options) (level : AccessLevel) :
    (options.leveled level).instanceModifiers = level.mark ++ options.plain.instanceModifiers := by
  have hnamespace : ((options.leveled level).namespaceUnderDevice &&
      !(options.leveled level).instanceMemberPeripherals) =
        (options.plain.namespaceUnderDevice && !options.plain.instanceMemberPeripherals) := rfl
  rw [Options.instanceModifiers, Options.instanceModifiers, leveled_modifiers, hnamespace]
  split
  · rw [String.append_assoc]
  · rfl

theorem begins_plain (options : Options) {word : String}
    (h : beginsDeclaration word.toList = true) :
    beginsDeclaration (options.plain.modifiers ++ word).toList = true := by
  have hmodifiers : options.plain.modifiers = "" := rfl
  rwa [hmodifiers, String.empty_append]

theorem begins_instanceModifiers (options : Options) :
    beginsDeclaration (options.plain.instanceModifiers ++ "let ").toList = true := by
  have hmodifiers : options.plain.modifiers = "" := rfl
  rw [Options.instanceModifiers, hmodifiers]
  split <;> decide

theorem subject_leveled (options : Options) (level : AccessLevel) (description : Option String)
    (name : String) :
    (⟨description, name, (options.leveled level).modifiers⟩ : Subject) =
      Subject.marked level.mark ⟨description, name, options.plain.modifiers⟩ := by
  rw [leveled_modifiers]
  rfl

theorem writtenUnits_map_marked (mark : String) (events : List Event) :
    writtenUnits (events.map (Event.marked mark)) =
      (writtenUnits events).map (SourceUnit.marked mark) := by
  rw [writtenUnits, writtenUnits, List.filterMap_map, List.map_filterMap]
  congr 1
  funext event
  cases event <;> rfl

/-! ## Marked accessors -/

theorem sameEnd_mapReplicas {α : Type} {R : α → α → Prop} {f g : Replica → Except AddressOverflow α}
    (h : ∀ r, SameEnd R (f r) (g r)) (x : Expansion) :
    SameEnd (List.Forall₂ R) (x.mapReplicas f) (x.mapReplicas g) := by
  have hfrom (remaining index : Nat) :
      SameEnd (List.Forall₂ R) (x.mapFrom f remaining index) (x.mapFrom g remaining index) := by
    induction remaining generalizing index with
    | zero => exact .ok .nil
    | succ remaining ih =>
        refine (SameEnd.refl (x.replicaAt index)).bind ?_
        rintro r _ rfl
        exact (h r).bind fun a b hab => (ih (index + 1)).bind fun as bs hs => .ok (.cons hab hs)
  unfold Expansion.mapReplicas
  split
  · exact (h _).bind fun a b hab => .ok (.cons hab .nil)
  · exact hfrom _ 0

/-- A sum that fits goes into two texts, and one that does not ends both alike. -/
theorem sameEnd_checkedSum {R : String → String → Prop} {terms : List Int}
    {text text' : Int → String}
    (h : R (text (terms.foldr (· + ·) 0)) (text' (terms.foldr (· + ·) 0))) :
    SameEnd R (checkedSum terms >>= fun total => pure (text total))
      (checkedSum terms >>= fun total => pure (text' total)) := by
  cases htotal : checkedSum terms with
  | error e => exact .error e
  | ok total =>
      obtain ⟨rfl, -⟩ := checkedSum_eq_ok_iff.mp htotal
      exact .ok h

/-- An attribute and a member below it, if the member begins a declaration. -/
theorem marksText_member (hindent : IsIndentation indentation) (hmark : IsMark mark)
    (description : Option String) {front member : String}
    (hflat : ∀ line ∈ [front, member], IsFlat line)
    (hat : front.toList.head? = some '@')
    (hbegins : beginsDeclaration member.toList = true) :
    MarksText indentation mark
      (joinLines (docComment description ++ [front, member]))
      (joinLines (docComment description ++ [front, mark ++ member])) := by
  have hfront : IsOther front := isOther_attribute (hflat _ (by simp)) hat
  have hmember : IsDeclaration member := (hflat _ (by simp)).isDeclaration hbegins
  have hmarked := MarksText.documented hindent hmark description
    (List.forall_mem_singleton.mpr hfront) hmember
  exact hmarked

section Accessors

variable {subject : Subject} (hindent : IsIndentation indentation) (hmark : IsMark mark)
  (h : IsNamed subject)

include hindent hmark h

theorem sameEnd_peripheralAccessors
    (hlet : beginsDeclaration (subject.modifiers ++ "let ").toList = true) (baseAddress : Int)
    (x : Expansion) :
    SameEnd (List.Forall₂ (MarksText indentation mark)) (subject.peripheralAccessors baseAddress x)
      ((subject.marked mark).peripheralAccessors baseAddress x) := by
  refine sameEnd_mapReplicas (fun r => sameEnd_checkedSum ?_) x
  have hline : IsDeclaration (instanceLine subject baseAddress r) := by
    refine (h.isFlat_instanceLine baseAddress r).isDeclaration ?_
    iterate 6 refine beginsDeclaration_more ?_ _
    exact hlet
  have hmarked := MarksText.documented hindent hmark subject.description
    (List.forall_mem_nil IsOther) hline
  simpa [Subject.documented, Subject.marked, Subject.propertyName, instanceLine,
    String.append_assoc] using hmarked

theorem sameEnd_clusterAccessors
    (hvar : beginsDeclaration (subject.modifiers ++ "var ").toList = true) (addressOffset : Int)
    (x : Expansion) :
    SameEnd (List.Forall₂ (MarksText indentation mark)) (subject.clusterAccessors addressOffset x)
      ((subject.marked mark).clusterAccessors addressOffset x) := by
  refine sameEnd_mapReplicas (fun r => sameEnd_checkedSum ?_) x
  have hmarked := marksText_member hindent hmark subject.description
    (h.isFlat_clusterLines addressOffset r) (by simp) (by
      iterate 3 refine beginsDeclaration_more ?_ _
      exact hvar)
  simpa [Subject.documented, Subject.marked, Subject.propertyName, String.append_assoc] using
    hmarked

theorem sameEnd_registerAccessors
    (hvar : beginsDeclaration (subject.modifiers ++ "var ").toList = true) (addressOffset : Int)
    (x : Expansion) :
    SameEnd (List.Forall₂ (MarksText indentation mark)) (subject.registerAccessors addressOffset x)
      ((subject.marked mark).registerAccessors addressOffset x) := by
  have hflat := h.isFlat_registerLines addressOffset x
  unfold registerLines at hflat
  unfold Subject.registerAccessors
  cases hcount : x.count with
  | none =>
      simp only [hcount] at hflat ⊢
      have hmarked := marksText_member hindent hmark subject.description hflat (by simp) (by
        iterate 5 refine beginsDeclaration_more ?_ _
        exact hvar)
      refine .ok (.cons ?_ .nil)
      simpa [Subject.documented, Subject.marked, String.append_assoc] using hmarked
  | some count =>
      simp only [hcount] at hflat ⊢
      split
      · exact .ok .nil
      · refine (SameEnd.refl _).bind fun _ _ _ => .ok (.cons ?_ .nil)
        have hmarked := marksText_member hindent hmark subject.description hflat (by simp) (by
          iterate 5 refine beginsDeclaration_more ?_ _
          exact hvar)
        simpa [Subject.documented, Subject.marked, String.append_assoc] using hmarked

theorem sameEnd_fieldAccessors
    (hvar : beginsDeclaration (subject.modifiers ++ "var ").toList = true) (bits : BitRange)
    {access : String} (haccess : IsCode access) (x : Expansion) :
    SameEnd (List.Forall₂ (MarksText indentation mark)) (subject.fieldAccessors bits access x)
      ((subject.marked mark).fieldAccessors bits access x) := by
  refine sameEnd_mapReplicas (fun r => sameEnd_checkedSum ?_) x
  have hnamed : IsNamed ⟨subject.description, subject.typeName ++ r.suffix, subject.modifiers⟩ :=
    ⟨isName_append.mpr ⟨h.name, isName_replicaSuffix r⟩, h.lead⟩
  have hmarked := marksText_member hindent hmark subject.description
    (hnamed.isFlat_fieldLines haccess (bits.shifted r.offset).lsb
      ((bits.shifted r.offset).msb + 1)) (by simp) (by
      iterate 3 refine beginsDeclaration_more ?_ _
      exact hvar)
  simpa [Subject.documented, Subject.marked, String.append_assoc] using hmarked

end Accessors

/-! ## Parts of an export -/

/-- Two computations of texts that an access level marks. -/
abbrev MarksTexts (options : Options) (level : AccessLevel) (t t' : Exporting (List String)) :
    Prop :=
  t.InStep (Event.marked level.mark)
    (List.Forall₂ (MarksText options.indentation level.mark)) t'

/-- Two computations of code that an access level marks. -/
abbrev MarksCode (options : Options) (level : AccessLevel) (t t' : Exporting Code) : Prop :=
  t.InStep (Event.marked level.mark)
    (fun code code' => Marks options.indentation level.mark [code] [code']) t'

/-- Two peripherals that are the same, with instances that are marked. -/
def MarksInstances (options : Options) (level : AccessLevel)
    (pair pair' : Peripheral × List String) : Prop :=
  pair.1 = pair'.1 ∧
    List.Forall₂ (MarksText options.indentation level.mark) pair.2 pair'.2

theorem texts_of_marksInstances {declared declared' : List (Peripheral × List String)}
    (h : List.Forall₂ (MarksInstances options level) declared declared') :
    declared.map (·.1) = declared'.map (·.1) ∧
      List.Forall₂ (MarksText options.indentation level.mark) (declared.flatMap (·.2))
        (declared'.flatMap (·.2)) := by
  induction h with
  | nil => exact ⟨rfl, .nil⟩
  | cons hpair _ ih =>
      rw [List.map_cons, List.map_cons, List.flatMap_cons, List.flatMap_cons, hpair.1, ih.1]
      exact ⟨rfl, List.rel_append hpair.2 ih.2⟩

theorem isOther_extension {names : List String} (h : ∀ name ∈ names, IsSingle name) :
    IsOther (extensionHeading names) := by
  have hpath : IsSingle (String.intercalate "." (names.map identifier)) := by
    refine isSingle_intercalate (by decide) fun piece hpiece => ?_
    rcases List.mem_map.mp hpiece with ⟨name, hname, rfl⟩
    exact (h name hname).identifier
  refine ⟨.inr ⟨_, hasKind_opening "extension " (by decide) (by decide) hpath⟩, ?_⟩
  rw [beginsDeclaration_eq, declarationWords_eq, extensionHeading, String.toList_append,
    String.toList_append]
  rfl

/-- The code of the device unit, with the texts of the instances. -/
def instancesCode (options : Options) (device : Device) (texts : List String) : List Code :=
  if options.namespaceUnderDevice then
    [.block (Subject.namespaceHeading
        ⟨device.description, deviceTypeName options device, options.modifiers⟩
        options.instanceMemberPeripherals) (Code.declarations texts)]
  else Code.declarations texts

theorem writeDeviceUnit_eq (options : Options) (device : Device) (selected : List Peripheral) :
    writeDeviceUnit options device selected = do
      let declared ← instances options device selected
      finishUnit options deviceUnitName (instancesCode options device (declared.flatMap (·.2)))
      return declared.map (·.1) := rfl

theorem inStep_reportMissingBases (peripherals : List Peripheral) :
    (reportMissingBases peripherals).InStep (Event.marked level.mark) Eq
      (reportMissingBases peripherals) := by
  refine .recordAll fun event hevent => ?_
  rcases List.mem_filterMap.mp hevent with ⟨p, -, hp⟩
  split at hp
  · cases hp
  · split at hp
    · cases hp
    · cases hp
      rfl

/-! ## Marked members -/

section Exporting

variable (hindent : IsIndentation options.indentation)

include hindent

theorem inStep_peripheralAccessors (inherited : RegisterProperties) (p : Peripheral) :
    MarksTexts options level (peripheralAccessors options.plain inherited p)
      (peripheralAccessors (options.leveled level) inherited p) := by
  have hnamed : IsNamed ⟨p.description, swiftName p.name, options.plain.instanceModifiers⟩ :=
    ⟨isName_swiftName p.name, isLead_instanceModifiers _⟩
  unfold peripheralAccessors
  rw [leveled_instanceModifiers]
  split
  · exact .bind (.record _) fun _ _ _ => .pure .nil
  · rename_i x _
    exact .ofExcept (sameEnd_peripheralAccessors hindent level.isMark hnamed
      (begins_instanceModifiers options) p.baseAddress x) _

theorem inStep_memberAccessors (inherited : RegisterProperties) (m : Member) :
    MarksTexts options level (memberAccessors options.plain inherited m)
      (memberAccessors (options.leveled level) inherited m) := by
  have hnamed (description : Option String) (name : String) :=
    isNamed_subject options.plain description name
  cases m with
  | register r =>
      simp only [memberAccessors, registerAccessors]
      rw [subject_leveled]
      split
      · exact .bind (.record _) fun _ _ _ => .pure .nil
      · split
        · exact .bind (.record _) fun _ _ _ => .pure .nil
        · exact .ofExcept (sameEnd_registerAccessors hindent level.isMark (hnamed _ _)
            (begins_plain options (by decide)) _ _) _
  | cluster c =>
      simp only [memberAccessors, clusterAccessors]
      rw [subject_leveled]
      split
      · exact .bind (.record _) fun _ _ _ => .pure .nil
      · exact .ofExcept (sameEnd_clusterAccessors hindent level.isMark (hnamed _ _)
          (begins_plain options (by decide)) _ _) _

theorem inStep_fieldAccessors (access : Option Access) (names : FieldNames)
    (fields : List Field) :
    MarksTexts options level (fieldAccessors options.plain access names fields)
      (fieldAccessors (options.leveled level) access names fields) := by
  induction fields generalizing names with
  | nil => exact .pure .nil
  | cons f fields ih =>
      unfold fieldAccessors
      split
      · exact .bind (.record _) fun _ _ _ => ih names
      · rename_i x _
        have hnamed : IsNamed ⟨f.description, (names.reserve f.name x.indices?).1,
            options.plain.modifiers⟩ :=
          ⟨names.isName_reserve f.name x.indices?, isLead_modifiers options.plain⟩
        simp only
        rw [subject_leveled]
        refine .bind (.ofExcept (sameEnd_fieldAccessors hindent level.isMark hnamed
          (begins_plain options (by decide)) f.bits (isCode_accessAttribute _) x) _) ?_
        intro own own' hown
        have hrest := (ih (names.reserve f.name x.indices?).2).bind fun others others' hothers =>
          .pure (List.rel_append hown hothers)
        split
        · exact .bind (.record _) fun _ _ _ => hrest
        · exact hrest

/-! ## Marked types and sections -/

theorem marks_aliasCode (e : Element) (base : String) :
    Marks options.indentation level.mark [aliasCode options.plain e base]
      [aliasCode (options.leveled level) e base] := by
  have hline : IsDeclaration (typeAlias options.plain.modifiers e.typeName (aliasTarget base)) := by
    refine (isFlat_typeAlias options.plain e base).isDeclaration ?_
    iterate 3 refine beginsDeclaration_more ?_ _
    exact begins_plain options (by decide)
  have hmarked := hline.marksText hindent level.isMark
  simpa only [aliasCode, typeAlias, leveled_modifiers, String.append_assoc, MarksText]
    using hmarked

/-- The heading of a block is marked in its last line, behind the attribute above it. -/
theorem marksText_heading (description : Option String) (name : String) {front : String}
    (hfront : IsOther front) :
    MarksText options.indentation level.mark
      (joinLines (docComment description ++ [front,
        (Subject.mk description (swiftName name) options.plain.modifiers).structLine]))
      (joinLines (docComment description ++ [front,
        (Subject.mk description (swiftName name)
          (options.leveled level).modifiers).structLine])) := by
  have hline : IsDeclaration
      (Subject.mk description (swiftName name) options.plain.modifiers).structLine := by
    refine ⟨⟨_, (isNamed_subject options.plain description name).hasKind_structLine⟩, ?_⟩
    iterate 2 refine beginsDeclaration_more ?_ _
    exact begins_plain options (by decide)
  have hmarked := MarksText.documented hindent level.isMark description
    (List.forall_mem_singleton.mpr hfront) hline
  simpa only [Subject.structLine, leveled_modifiers, String.append_assoc, List.singleton_append]
    using hmarked

theorem inStep_blockCode (description : Option String) (e : Element)
    (effective : RegisterProperties) :
    MarksCode options level (blockCode options.plain description e effective)
      (blockCode (options.leveled level) description e effective) := by
  have hfront : IsOther "@RegisterBlock" :=
    isOther_attribute (isFlat_of_isCode (by decide) (by decide)) rfl
  refine .bind (.mapM fun m _ => inStep_memberAccessors hindent effective m) ?_
  intro texts texts' htexts
  exact .pure (.block hindent (marksText_heading hindent description e.name hfront)
    (.declarations hindent (List.rel_flatten htexts)))

theorem inStep_registerCode (r : Register) (effective : RegisterProperties) (size : Int) :
    MarksCode options level (registerCode options.plain r effective size)
      (registerCode (options.leveled level) r effective size) := by
  have hfront : IsOther ("@Register(bitWidth: " ++ toString size ++ ")") :=
    isOther_attribute (isFlat_widthAttribute size) (by simp)
  refine .bind (inStep_fieldAccessors hindent _ _ _) fun texts texts' htexts => ?_
  exact .pure (.block hindent (marksText_heading hindent r.description r.name hfront)
    (.declarations hindent htexts))

theorem inStep_typeCode (inherited : RegisterProperties) (address : Int) (e : Element) :
    MarksCode options level (typeCode options.plain inherited address e)
      (typeCode (options.leveled level) inherited address e) := by
  unfold typeCode
  refine .bind (.ofExcept (.refl _) _) ?_
  rintro total _ rfl
  match e with
  | .peripheral p =>
      simp only
      split
      · exact .pure (marks_aliasCode hindent _ _)
      · exact inStep_blockCode hindent _ _ _
  | .member (.cluster c) =>
      simp only
      split
      · exact .pure (marks_aliasCode hindent _ _)
      · exact inStep_blockCode hindent _ _ _
  | .member (.register r) =>
      exact .bind (.record _) fun _ _ _ => inStep_registerCode hindent _ _ _

theorem inStep_sectionCode (s : Section) (henclosing : ∀ name ∈ s.enclosing, IsSingle name) :
    (s.code options.plain).InStep (Event.marked level.mark)
      (Marks options.indentation level.mark) (s.code (options.leveled level)) := by
  refine .bind (.mapM fun e _ => inStep_typeCode hindent s.inherited s.address e) ?_
  intro types types' htypes
  have hbody : Marks options.indentation level.mark (Code.spaced (types.map ([·])))
      (Code.spaced (types'.map ([·]))) := by
    refine .spaced hindent ?_
    rw [List.forall₂_map_left_iff, List.forall₂_map_right_iff]
    exact htypes
  refine .pure ?_
  split
  · exact hbody
  · exact .block hindent ((isOther_extension henclosing).marksText hindent) hbody

/-! ## Marked units -/

theorem marks_fileHeader : Marks options.indentation level.mark [fileHeader] [fileHeader] := by
  rw [fileHeader_eq]
  refine MarksText.joinLines (by simp [fileHeaderLines]) (List.forall₂_same.mpr ?_)
  intro line hline
  refine IsOther.marksText hindent ⟨(isFlat_fileHeaderLines line hline).exists_kind, ?_⟩
  revert line
  decide

theorem inStep_finishUnit (name : String) {code code' : List Code}
    (h : Marks options.indentation level.mark code code') :
    (finishUnit options.plain name code).InStep (Event.marked level.mark) Eq
      (finishUnit (options.leveled level) name code') := by
  have htext := ((marks_fileHeader hindent).append h).text
  have hunit : Event.wrote ⟨name, Code.text options.indentation (fileHeader :: code')⟩ =
      Event.marked level.mark (.wrote ⟨name, Code.text options.indentation (fileHeader :: code)⟩) :=
    congrArg (fun text => Event.wrote ⟨name, text⟩) htext
  rw [finishUnit_eq, finishUnit_eq]
  exact hunit ▸ .record _

theorem inStep_writePeripheralUnit (device : Device)
    (hname : ∀ name ∈ options.deviceName, IsSingle name) (p : Peripheral) :
    (writePeripheralUnit options.plain device p).InStep (Event.marked level.mark) Eq
      (writePeripheralUnit (options.leveled level) device p) := by
  have hroot := isSingle_enclosing (isSingle_peripheralSite device hname p)
  have hplain := Site.sectionsCode_own options.plain (peripheralSite options device p)
  have hleveled := Site.sectionsCode_own (options.leveled level) (peripheralSite options device p)
  change sectionsCode _ [peripheralSection options.plain device p] = _ at hplain
  change sectionsCode _ [peripheralSection (options.leveled level) device p] = _ at hleveled
  rw [writePeripheralUnit, writePeripheralUnit, hplain, hleveled]
  refine .bind (.mapM fun s hs => inStep_sectionCode hindent s (hroot s hs)) ?_
  exact fun codes codes' hcodes => inStep_finishUnit hindent _ (.spaced hindent hcodes)

theorem marksText_namespaceHeading (device : Device)
    (hname : ∀ name ∈ options.deviceName, IsSingle name) (isStruct : Bool) :
    MarksText options.indentation level.mark
      (Subject.namespaceHeading
        ⟨device.description, deviceTypeName options device, options.plain.modifiers⟩ isStruct)
      (Subject.namespaceHeading
        ⟨device.description, deviceTypeName options device, (options.leveled level).modifiers⟩
        isStruct) := by
  let kind := if isStruct then "struct " else "enum "
  have hkind : IsCode kind ∧ StartsVisible kind ∧ beginsDeclaration kind.toList = true := by
    cases isStruct <;> decide
  have hline : IsDeclaration (options.plain.modifiers ++ kind ++
      identifier (deviceTypeName options device) ++ " \x7b") := by
    refine ⟨⟨_, (isLead_modifiers options.plain).hasKind_opening kind _ ⟨hkind.1, hkind.2.1⟩
      (isSingle_deviceTypeName device hname).identifier⟩, ?_⟩
    iterate 2 refine beginsDeclaration_more ?_ _
    exact begins_plain options hkind.2.2
  have hmarked := MarksText.documented hindent level.isMark device.description
    (List.forall_mem_nil IsOther) hline
  simpa only [Subject.namespaceHeading, Subject.documented, leveled_modifiers,
    String.append_assoc, List.nil_append] using hmarked

theorem inStep_instances (device : Device) (selected : List Peripheral) :
    (instances options.plain device selected).InStep (Event.marked level.mark)
      (List.Forall₂ (MarksInstances options level))
      (instances (options.leveled level) device selected) := by
  induction selected with
  | nil => exact .pure .nil
  | cons p selected ih =>
      refine .bind (inStep_peripheralAccessors hindent device.properties p) ?_
      intro texts texts' htexts
      refine ih.bind fun others others' hothers => .pure ?_
      cases htexts with
      | nil => exact hothers
      | cons htext htexts => exact .cons ⟨rfl, .cons htext htexts⟩ hothers

theorem marks_instancesCode (device : Device)
    (hname : ∀ name ∈ options.deviceName, IsSingle name) {texts texts' : List String}
    (h : List.Forall₂ (MarksText options.indentation level.mark) texts texts') :
    Marks options.indentation level.mark (instancesCode options.plain device texts)
      (instancesCode (options.leveled level) device texts') := by
  have hbody := Marks.declarations hindent h
  have hheading : MarksText options.indentation level.mark _ _ :=
    marksText_namespaceHeading hindent device hname options.instanceMemberPeripherals
  have hnamespace : (options.leveled level).namespaceUnderDevice =
      options.plain.namespaceUnderDevice := rfl
  rw [instancesCode, instancesCode, hnamespace]
  split
  · exact .block hindent hheading hbody
  · exact hbody

theorem inStep_writeDeviceUnit (device : Device)
    (hname : ∀ name ∈ options.deviceName, IsSingle name) (selected : List Peripheral) :
    (writeDeviceUnit options.plain device selected).InStep (Event.marked level.mark) Eq
      (writeDeviceUnit (options.leveled level) device selected) := by
  rw [writeDeviceUnit_eq, writeDeviceUnit_eq]
  refine .bind (inStep_instances hindent device selected) ?_
  intro declared declared' hdeclared
  rcases texts_of_marksInstances hdeclared with ⟨hperipherals, htexts⟩
  have hcode := marks_instancesCode hindent device hname htexts
  exact .bind (inStep_finishUnit hindent deviceUnitName hcode) fun _ _ _ => .pure hperipherals

theorem inStep_exportDevice (device : Device)
    (hname : ∀ name ∈ options.deviceName, IsSingle name) :
    (exportDevice options.plain device).InStep (Event.marked level.mark) Eq
      (exportDevice (options.leveled level) device) := by
  rw [exportDevice_eq, exportDevice_eq]
  refine .bind (R := Eq) ?_ fun _ _ _ => ?_
  · change Trace.InStep _ _ (if options.validateDerivations then _ else _)
      (if options.validateDerivations then _ else _)
    split
    · exact .ofExcept (.refl _) _
    · exact .pure rfl
  · refine .bind (R := Eq) (.ofExcept (.refl _) _) ?_
    rintro selected _ rfl
    refine .bind (inStep_reportMissingBases selected) fun _ _ _ => ?_
    refine .bind (inStep_writeDeviceUnit hindent device hname selected) ?_
    rintro exported _ rfl
    exact .forM fun p _ => inStep_writePeripheralUnit hindent device hname p

end Exporting

/--
If the indentation is made of spaces and tabs and a name that is given to the device
stands on one line, an export with an access level ends as the export without one does.
Each of its units is the unit that the other one writes with the word of the level in
front of every declaration.
-/
theorem exportDevice_accessLevel_marks (options : Options) (level : AccessLevel)
    (device : Device) (hindent : IsIndentation options.indentation)
    (hname : ∀ name ∈ options.deviceName, IsSingle name) :
    let leveled := exportDevice { options with accessLevel := some level } device
    let plain := exportDevice { options with accessLevel := none } device
    leveled.outcome = plain.outcome ∧
      writtenUnits leveled.events =
        (writtenUnits plain.events).map (SourceUnit.marked (level.word ++ " ")) := by
  intro leveled plain
  have hstep : plain.InStep (Event.marked level.mark) Eq leveled :=
    inStep_exportDevice hindent device hname
  refine ⟨hstep.ends.eq.symm, ?_⟩
  rw [hstep.events, writtenUnits_map_marked]
  rfl

/-- The words in the comments get no mark. -/
theorem exportDevice_accessLevel_marks_braces :
    ∃ unit ∈ writtenUnits
        (exportDevice { bracedOptions with accessLevel := some .publicAccess } bracedDevice).events,
      unit.text = "// Generated by svd2swift.\n\nimport MMIO\n\n" ++
        "/// \x7d\npublic enum Chip \x7b\n\t/// Counts up\n\t/// struct Counter \x7b\n" ++
        "\tpublic static let counter = COUNTER(unsafeAddress: 0x4000_0000)\n\x7d\n" := by
  have hindent : IsIndentation bracedOptions.indentation := by decide
  have hname : ∀ name ∈ bracedOptions.deviceName, IsSingle name := by
    intro name hname
    obtain rfl := Option.some.inj hname
    decide
  have hmarks := (exportDevice_accessLevel_marks bracedOptions .publicAccess bracedDevice hindent
    hname).2
  have hexported : exportedPeripherals bracedOptions bracedDevice = [counter] := by
    rw [exportedPeripherals_eq selectPeripherals_bracedDevice]
    rfl
  have hunit : deviceUnit bracedOptions bracedDevice [counter] ∈
      writtenUnits (exportDevice bracedOptions bracedDevice).events := by
    rw [(exported_of_exportDevice exportDevice_bracedDevice).units, hexported]
    exact List.mem_cons_self
  rw [hmarks]
  exact ⟨_, List.mem_map_of_mem hunit, by decide +kernel⟩

end RegisterMap.Export
