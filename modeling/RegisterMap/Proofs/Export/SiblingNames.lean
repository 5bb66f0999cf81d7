import RegisterMap.Proofs.Export.UnitLayout
import RegisterMap.Proofs.Swift.DeclaredNames
import RegisterMap.Proofs.Swift.NameFamily

/-!
# Names of siblings

The unit of a device declares the instances of its peripherals, and the type of a
peripheral or a cluster declares its registers and clusters.  Elements with different
names are declared by different names, unless the name of one goes on behind that of
another with a number that is the index of a replica of the other.  Fields are kept from
that, but nothing keeps peripherals, clusters and registers from it.
-/

namespace RegisterMap.Export

open RegisterMap.Model RegisterMap.Number RegisterMap.Report RegisterMap.Swift

/-! ## Names in declarations -/

theorem passedOver_modifiers (options : Options) : PassedOver options.modifiers := by
  unfold Options.modifiers
  split
  · exact passedOver_empty
  · rename_i level _
    exact passedOver_word (by cases level <;> decide) (by cases level <;> decide)

theorem passedOver_instanceModifiers (options : Options) :
    PassedOver options.instanceModifiers := by
  have hstatic : PassedOver ("static" ++ " ") := passedOver_word (by decide) (by decide)
  unfold Options.instanceModifiers
  split
  · exact (passedOver_modifiers options).append hstatic
  · exact passedOver_modifiers options

theorem ne_of_mem_identifier {name : String} (hname : IsName name) :
    ∀ c ∈ (identifier name).toList, c ≠ ' ' ∧ c ≠ ':' := by
  have hplain : ∀ c ∈ name.toList, c ≠ ' ' ∧ c ≠ ':' := by
    intro c hc
    have hchar : isNameChar c = true := List.all_eq_true.mp hname c hc
    constructor <;> rintro rfl <;> exact absurd hchar (by decide)
  have hquote : ∀ c ∈ "`".toList, c ≠ ' ' ∧ c ≠ ':' := by simp
  unfold identifier
  split
  · simp only [String.toList_append, List.forall_mem_append]
    exact ⟨⟨hquote, hplain⟩, hquote⟩
  · exact hplain

/-- The name in the last line of a declaration is read back. -/
theorem declaredName?_documented {subject : Subject} (hnamed : IsNamed subject)
    (hmodifiers : PassedOver subject.modifiers) {keyword : String}
    (hkeyword : keyword = "let" ∨ keyword = "var") {name : String} (hname : IsName name)
    {mark : String} (hmark : mark = "" ∨ mark = ":") {rest : String} (hrest : IsCode rest)
    (front : List String) :
    declaredName? (subject.documented (front ++
      [subject.modifiers ++ (keyword ++ " ") ++ identifier name ++ (mark ++ " " ++ rest)])) =
        some (identifier name) := by
  have hword : IsCode (keyword ++ " ") ∧ StartsVisible (keyword ++ " ") := by
    rcases hkeyword with rfl | rfl <;> decide
  have htail : IsCode (mark ++ " " ++ rest) := by
    rw [isCode_append]
    refine ⟨?_, hrest⟩
    rcases hmark with rfl | rfl <;> decide
  have hcode : IsCode (subject.modifiers ++ (keyword ++ " ") ++ identifier name ++
      (mark ++ " " ++ rest)) :=
    isCode_append.mpr ⟨isCode_append.mpr ⟨isCode_append.mpr ⟨hnamed.lead.code, hword.1⟩,
      hname.isCode_identifier⟩, htail⟩
  have hvisible := ((hnamed.lead.startsVisible hword.2).append (identifier name)).append
    (mark ++ " " ++ rest)
  have hdeclaring : keyword.toList ∈ declaringWords := by
    rcases hkeyword with rfl | rfl <;> decide
  rw [declaredName?, lastCodeLine?_documented hcode hvisible]
  exact declaredWord?_line hmodifiers hdeclaring (ne_of_mem_identifier hname) hmark rest

theorem isName_property {subject : Subject} (hnamed : IsNamed subject) (r : Replica) :
    IsName (instanceName subject.typeName ++ r.suffix) :=
  isName_append.mpr ⟨hnamed.name.toLower, isName_replicaSuffix r⟩

theorem declaredName?_instance {subject : Subject} (hnamed : IsNamed subject)
    (hmodifiers : PassedOver subject.modifiers) (baseAddress : Int) (r : Replica) :
    declaredName? (subject.documented [instanceLine subject baseAddress r]) =
      some (subject.propertyName r) := by
  have hrest : IsCode ("= " ++ (identifier subject.typeName ++ ("(unsafeAddress: " ++
      (hexLiteral (baseAddress + r.offset) ++ ")")))) := by
    simp only [isCode_append]
    exact ⟨by decide, hnamed.isCode_type, by decide, isCode_hexLiteral _, by decide⟩
  have hread := declaredName?_documented hnamed hmodifiers (.inl rfl) (isName_property hnamed r)
    (.inl rfl) hrest []
  have hlet : "let " = "let" ++ " " := by decide
  have hequals : " = " = "" ++ " " ++ "= " := by decide
  rw [instanceLine, hlet, hequals]
  simpa only [Subject.propertyName, String.append_assoc, List.nil_append] using hread

theorem declaredName?_cluster {subject : Subject} (hnamed : IsNamed subject)
    (hmodifiers : PassedOver subject.modifiers) (addressOffset : Int) (r : Replica) :
    declaredName? (subject.documented (clusterLines subject addressOffset r)) =
      some (subject.propertyName r) := by
  have hread := declaredName?_documented hnamed hmodifiers (.inr rfl) (isName_property hnamed r)
    (.inr rfl) hnamed.isCode_type
    ["@RegisterBlock(offset: " ++ hexLiteral (addressOffset + r.offset) ++ ")"]
  have hvar : "var " = "var" ++ " " := by decide
  have hcolon : ": " = ":" ++ " " := by decide
  rw [clusterLines, hvar, hcolon]
  simpa only [Subject.propertyName, String.append_assoc, List.singleton_append] using hread

theorem declaredName?_register {subject : Subject} (hnamed : IsNamed subject)
    (hmodifiers : PassedOver subject.modifiers) (addressOffset : Int) (x : Expansion) :
    declaredName? (subject.documented (registerLines subject addressOffset x)) =
      some (identifier (instanceName subject.typeName)) := by
  have hmember (kind : String) (hkind : IsCode kind) (first : String) :
      declaredName? (subject.documented [first, subject.modifiers ++ "var " ++
        identifier (instanceName subject.typeName) ++ ": " ++
          (kind ++ identifier subject.typeName ++ ">")]) =
        some (identifier (instanceName subject.typeName)) := by
    have hrest : IsCode (kind ++ identifier subject.typeName ++ ">") := by
      simp only [isCode_append]
      exact ⟨⟨hkind, hnamed.isCode_type⟩, by decide⟩
    have hproperty : IsName (instanceName subject.typeName) := hnamed.name.toLower
    have hread := declaredName?_documented hnamed hmodifiers (.inr rfl) hproperty (.inr rfl) hrest
      [first]
    have hvar : "var " = "var" ++ " " := by decide
    have hcolon : ": " = ":" ++ " " := by decide
    rw [hvar, hcolon]
    simpa only [String.append_assoc, List.singleton_append] using hread
  unfold registerLines
  cases x.count with
  | none => simpa only [String.append_assoc] using hmember "Register<" (by decide) _
  | some count => simpa only [String.append_assoc] using hmember "RegisterArray<" (by decide) _

/-! ## Families of names -/

/-- The number of the replicas of an element, if it has any by its dimension. -/
def replicaCount? (dimension : Option Dimension) : Option Nat :=
  (dimension.bind Dimension.count).map Int.toNat

theorem count_of_expansion? {dimension : Option Dimension} {stride : Option Int} {x : Expansion}
    (h : Dimension.expansion? dimension stride = some x) :
    x.count.map Int.toNat = replicaCount? dimension := by
  unfold Dimension.expansion? at h
  rw [replicaCount?]
  cases hcount : dimension.bind Dimension.count with
  | none =>
      rw [hcount] at h
      cases h
      rfl
  | some count =>
      rw [hcount] at h
      simp only at h
      split at h
      · rename_i hzero
        cases h
        rw [hzero]
      · obtain ⟨stride, -, rfl⟩ := Option.map_eq_some_iff.mp h
        rfl

/-- The names of the instances of a peripheral. -/
def peripheralFamily (p : Peripheral) : NameFamily where
  base := instanceName (swiftName p.name)
  replicas := replicaCount? p.dimension

/-- The names of the members for a register or a cluster.  A register array is one member. -/
def memberFamily : Member → NameFamily
  | .register r => { base := instanceName (swiftName r.name) }
  | .cluster c =>
      { base := instanceName (swiftName c.name), replicas := replicaCount? c.dimension }

theorem map_propertyName_replicas {subject : Subject} {x : Expansion} {replicas : Option Nat}
    (hcount : x.count.map Int.toNat = replicas) :
    x.replicas.map subject.propertyName =
      (NameFamily.mk (instanceName subject.typeName) replicas).names.map identifier := by
  subst hcount
  rcases x with ⟨count?, stride⟩
  cases count? with
  | none => rfl
  | some count =>
      simp only [Expansion.replicas, NameFamily.names, FieldNames.suffixes, Option.map_some,
        List.map_map]
      rfl

theorem filterMap_declaredName? {α : Type} {xs : List α} {text name : α → String}
    (h : ∀ x ∈ xs, declaredName? (text x) = some (name x)) :
    (xs.map text).filterMap declaredName? = xs.map name := by
  rw [List.filterMap_map, ← List.filterMap_eq_map]
  exact List.filterMap_congr h

theorem names_instanceTexts {options : Options} {inherited : RegisterProperties} {p : Peripheral}
    (hexported : isExportedPeripheral inherited p = true) :
    (instanceTexts options inherited p).filterMap declaredName? =
      (peripheralFamily p).names.map identifier := by
  obtain ⟨x, hx, -⟩ := isExportedPeripheral_iff.mp hexported
  have hnamed : IsNamed (instanceSubject options p) :=
    ⟨isName_swiftName p.name, isLead_instanceModifiers options⟩
  simp only [instanceTexts, hx]
  rw [filterMap_declaredName? fun r _ =>
    declaredName?_instance hnamed (passedOver_instanceModifiers options) p.baseAddress r]
  exact map_propertyName_replicas (count_of_expansion? hx)

theorem names_memberTexts {options : Options} {inherited : RegisterProperties} {m : Member}
    (hexported : isExportedMember inherited m = true) :
    (memberTexts options inherited m).filterMap declaredName? =
      (memberFamily m).names.map identifier := by
  cases m with
  | register r =>
      obtain ⟨size, x, hsize, hx, hcount⟩ := isExportedRegister_iff.mp hexported
      have hnamed := isNamed_subject options r.description r.name
      have hread := declaredName?_register hnamed (passedOver_modifiers options) r.addressOffset x
      simp only [memberTexts, memberExpansion?, hsize, hx, Option.bind_some, replicaTexts,
        registerTexts, memberSubject, if_neg hcount, List.filterMap_cons, hread,
        List.filterMap_nil]
      simp [memberFamily, NameFamily.names, FieldNames.suffixes]
  | cluster c =>
      obtain ⟨x, hx, -⟩ := isExportedCluster_iff.mp hexported
      have hnamed := isNamed_subject options c.description c.name
      simp only [memberTexts, memberExpansion?, hx, replicaTexts, memberSubject]
      rw [filterMap_declaredName? fun r _ =>
        declaredName?_cluster hnamed (passedOver_modifiers options) c.addressOffset r]
      exact map_propertyName_replicas (count_of_expansion? hx)

/-! ## Names in units and types -/

theorem nodup_map_identifier_iff {families : List NameFamily}
    (hbases : ∀ a ∈ families, IsName a.base) :
    ((families.flatMap NameFamily.names).map identifier).Nodup ↔
      (families.flatMap NameFamily.names).Nodup := by
  have hnames : ∀ name ∈ families.flatMap NameFamily.names, IsName name := by
    intro name hname
    obtain ⟨a, ha, hname⟩ := List.mem_flatMap.mp hname
    exact a.isName_of_mem (hbases a ha) hname
  constructor
  · exact List.Nodup.of_map identifier
  · intro h
    exact h.map_on fun a ha b hb => eq_of_identifier_eq (hnames a ha) (hnames b hb)

/-- True of the names that some elements are declared by: if the elements have different
names, then so are these, exactly if no element is called like a replica of another one. -/
def NamesApartIff (names : List String) (families : List NameFamily) : Prop :=
  (families.map (·.base)).Nodup → (names.Nodup ↔ NameFamily.Apart families)

theorem namesApartIff_identifiers {names : List String} {families : List NameFamily}
    (hbases : ∀ a ∈ families, IsName a.base)
    (hnames : names = (families.flatMap NameFamily.names).map identifier) :
    NamesApartIff names families := by
  intro hdifferent
  rw [hnames, nodup_map_identifier_iff hbases]
  exact NameFamily.nodup_flatMap_names_iff hdifferent

/-- Declarations of elements, put together, declare the names of all of them. -/
theorem filterMap_flatMap_names {α : Type} {xs : List α} {texts : α → List String}
    {family : α → NameFamily}
    (h : ∀ x ∈ xs, (texts x).filterMap declaredName? = (family x).names.map identifier) :
    (xs.flatMap texts).filterMap declaredName? =
      ((xs.map family).flatMap NameFamily.names).map identifier := by
  rw [List.filterMap_flatMap, List.flatMap_map, List.map_flatMap]
  exact List.flatMap_congr h

/-- Elements that nothing is made of can be left out. -/
theorem flatMap_eq_flatMap_filter {α β : Type} {xs : List α} {f : α → List β} {test : α → Bool}
    (h : ∀ x ∈ xs, ¬test x = true → f x = []) : xs.flatMap f = (xs.filter test).flatMap f := by
  induction xs with
  | nil => rfl
  | cons x xs ih =>
      rw [List.forall_mem_cons] at h
      rw [List.flatMap_cons, ih h.2, List.filter_cons]
      by_cases hx : test x = true
      · rw [if_pos hx, List.flatMap_cons]
      · rw [if_neg hx, h.1 hx, List.nil_append]

theorem names_deviceCode (options : Options) (device : Device) {exported : List Peripheral}
    (hexported : ∀ p ∈ exported, isExportedPeripheral device.properties p = true) :
    Code.namesOfAll (deviceCode options device exported) =
      ((exported.map peripheralFamily).flatMap NameFamily.names).map identifier := by
  have hbody : Code.namesOfAll (Code.declarations
      (exported.flatMap (instanceTexts options device.properties))) =
        ((exported.map peripheralFamily).flatMap NameFamily.names).map identifier := by
    rw [Code.namesOfAll_declarations]
    exact filterMap_flatMap_names fun p hp => names_instanceTexts (hexported p hp)
  unfold deviceCode
  split
  · rw [Code.namesOfAll, Code.namesOfAll, Code.declaredNames, hbody, List.append_nil]
  · exact hbody

namespace Site

/-- True of a peripheral or a cluster whose members are shown. -/
def IsBlock (t : Site) : Prop :=
  t.element.derivedFrom = none ∧ ∀ r, t.element ≠ .member (.register r)

/-- The names of the members that a block declares. -/
def memberFamilies (t : Site) : List NameFamily :=
  (exportedMembers t.effective t.element.members).map memberFamily

theorem type_of_isBlock {t : Site} (h : t.IsBlock) (options : Options) :
    t.type options = t.blockType options := by
  obtain ⟨hdefined, hblock⟩ := h
  unfold type
  split
  · rename_i r hr
    exact absurd hr (hblock r)
  · rw [aliasOrBlock, hdefined]

theorem names_type (options : Options) {t : Site} (h : t.IsBlock) :
    (t.type options).declaredNames =
      (t.memberFamilies.flatMap NameFamily.names).map identifier := by
  have hshown : t.element.members.flatMap (memberTexts options t.effective) =
      (exportedMembers t.effective t.element.members).flatMap
        (memberTexts options t.effective) := by
    refine flatMap_eq_flatMap_filter fun m _ hout => ?_
    by_contra hne
    exact hout ((memberTexts_ne_nil_iff options t.effective m).mp hne)
  rw [type_of_isBlock h, blockType, Code.declaredNames, Code.namesOfAll_declarations, hshown]
  exact filterMap_flatMap_names fun m hm => names_memberTexts (List.mem_filter.mp hm).2

end Site

/-! ## Names in an export -/

/-- True of code that stands among other code or in a block of it. -/
inductive StandsIn (code : Code) : List Code → Prop
  | here {codes : List Code} (h : code ∈ codes) : StandsIn code codes
  | inside {heading : String} {body codes : List Code} (hblock : .block heading body ∈ codes)
      (h : StandsIn code body) : StandsIn code codes

/-- The code of the unit of a peripheral. -/
def peripheralCode (options : Options) (device : Device) (p : Peripheral) : List Code :=
  fileHeader ::
    Code.spaced ((peripheralSite options device p).sections.map (Section.types options))

theorem standsIn_types {options : Options} {s : Section} {t : Site} (ht : t ∈ s.sites) :
    StandsIn (t.type options) (s.types options) := by
  have hbody : t.type options ∈ Code.spaced (s.sites.map fun t => [t.type options]) :=
    Code.mem_spaced (List.mem_map_of_mem ht) (List.mem_singleton_self _)
  unfold Section.types
  split
  · exact .here hbody
  · exact .inside (List.mem_singleton_self _) (.here hbody)

theorem StandsIn.spaced {code : Code} {piece : List Code} {pieces : List (List Code)}
    (h : StandsIn code piece) (hpiece : piece ∈ pieces) : StandsIn code (Code.spaced pieces) := by
  cases h with
  | here h => exact .here (Code.mem_spaced hpiece h)
  | inside hblock h => exact .inside (Code.mem_spaced hpiece hblock) h

theorem StandsIn.cons {code : Code} {codes : List Code} (h : StandsIn code codes)
    (first : Code) : StandsIn code (first :: codes) := by
  cases h with
  | here h => exact .here (.tail _ h)
  | inside hblock h => exact .inside (.tail _ hblock) h

/-- The type of every site stands in the unit of its peripheral. -/
theorem standsIn_peripheralCode {options : Options} {device : Device} {p : Peripheral}
    {place : Place} {t : Site} (hat : (peripheralSite options device p).at? place = some t) :
    StandsIn (t.type options) (peripheralCode options device p) := by
  obtain ⟨s, hs, ht⟩ := List.mem_flatMap.mp (Site.mem_sites_sections.mpr ⟨place, hat⟩)
  exact ((standsIn_types ht).spaced (List.mem_map_of_mem hs)).cons fileHeader

theorem isName_base_memberFamily (m : Member) : IsName (memberFamily m).base := by
  cases m with
  | register r => exact (isName_swiftName r.name).toLower
  | cluster c => exact (isName_swiftName c.name).toLower

/-- In an export that comes to its end, siblings of different names are declared by different
names, replica indices included, exactly if none of them is called like a replica of another
one.  That goes for the peripherals in the unit of the device, and for the registers and
clusters in the type of every peripheral and cluster that has one. -/
theorem exportDevice_names_apart_iff {options : Options} {device : Device}
    (h : (exportDevice options device).outcome = .ok ()) :
    let exported := exportedPeripherals options device
    let units := writtenUnits (exportDevice options device).events
    (⟨deviceUnitName,
          Code.text options.indentation (fileHeader :: deviceCode options device exported)⟩ ∈
        units ∧
      NamesApartIff (Code.namesOfAll (deviceCode options device exported))
        (exported.map peripheralFamily)) ∧
    ∀ p ∈ exported,
      ⟨unitName p, Code.text options.indentation (peripheralCode options device p)⟩ ∈ units ∧
      ∀ place t, (peripheralSite options device p).at? place = some t → t.IsBlock →
        StandsIn (t.type options) (peripheralCode options device p) ∧
        NamesApartIff (t.type options).declaredNames t.memberFamilies := by
  intro exported units
  have hexport := exported_of_exportDevice h
  have hunits : units = deviceUnit options device exported ::
      exported.flatMap fun p => writtenUnits (writePeripheralUnit options device p).events :=
    hexport.units
  refine ⟨⟨?_, ?_⟩, fun p hp => ⟨?_, fun place t hat hblock => ⟨?_, ?_⟩⟩⟩
  · rw [hunits]
    exact List.mem_cons_self
  · refine namesApartIff_identifiers (List.forall_mem_map.mpr fun p _ => ?_)
      (names_deviceCode options device fun p hp => isExported_of_mem hp)
    exact (isName_swiftName p.name).toLower
  · rw [hunits]
    refine .tail _ (List.mem_flatMap.mpr ⟨p, hp, ?_⟩)
    rw [writtenUnits_writePeripheralUnit (hexport.written p hp)]
    exact List.mem_singleton_self _
  · exact standsIn_peripheralCode hat
  · exact namesApartIff_identifiers
      (List.forall_mem_map.mpr fun m _ => isName_base_memberFamily m) (t.names_type options hblock)

/-! ### Serial ports -/

/-- A port with a number in its name, beside a number of ports that are replicas. -/
def serialDevice (count : Int) : Device where
  name := "Chip"
  peripherals := [
    { name := "UART1", baseAddress := 0x40010000 },
    { name := "UART[%s]", baseAddress := 0x40000000
      dimension := some { count := some count, stride := some 0x1000 } }]

theorem selectPeripherals_serialDevice (count : Int) :
    selectPeripherals (serialDevice count) [] = .ok (serialDevice count).peripherals := by
  have hnames : decide ("UART1" ≤ "UART[%s]") = true := by decide
  refine congrArg Except.ok (List.mergeSort_of_pairwise ?_)
  simp only [serialDevice, List.pairwise_cons, List.forall_mem_singleton]
  exact ⟨hnames, List.forall_mem_nil _, .nil⟩

theorem exportDevice_serialDevice {count : Int} (hcount : count = 1 ∨ count = 2) :
    (exportDevice {} (serialDevice count)).outcome = .ok () := by
  have hvalid : Derivation.validate (serialDevice count) = .ok () :=
    Derivation.validate_of_definitions (by simp [serialDevice])
      (by simp [Derivation.deviceClusters, serialDevice, Derivation.pathsOfAll])
  have hselected := selectPeripherals_serialDevice count
  rcases hcount with rfl | rfl
  · refine exportDevice_of_parts hvalid hselected rfl fun pair hpair => ?_
    rcases List.mem_cons.mp hpair with rfl | hpair
    · exact ⟨_, rfl⟩
    · obtain rfl := List.mem_singleton.mp hpair
      exact ⟨_, rfl⟩
  · refine exportDevice_of_parts hvalid hselected rfl fun pair hpair => ?_
    rcases List.mem_cons.mp hpair with rfl | hpair
    · exact ⟨_, rfl⟩
    · obtain rfl := List.mem_singleton.mp hpair
      exact ⟨_, rfl⟩

theorem exportedPeripherals_serialDevice {count : Int} (hcount : 0 < count) :
    exportedPeripherals {} (serialDevice count) = (serialDevice count).peripherals := by
  have hselected := selectPeripherals_serialDevice count
  simp only [exportedPeripherals, hselected]
  refine List.filter_eq_self.mpr ?_
  simp only [serialDevice, List.forall_mem_cons]
  refine ⟨rfl, ?_, List.forall_mem_nil _⟩
  simp [isExportedPeripheral, peripheralExpansion?, Dimension.expansion?, Int.ne_of_gt hcount,
    hcount]

theorem map_peripheralFamily_serialDevice (count : Int) :
    (serialDevice count).peripherals.map peripheralFamily =
      [{ base := "uart1" }, { base := "uart", replicas := some count.toNat }] := by
  have hnumbered : instanceName (swiftName "UART1") = "uart1" := by
    rw [← String.toList_inj, instanceName, FieldNames.toList_toLower]
    decide
  have hplain : instanceName (swiftName "UART[%s]") = "uart" := by
    rw [← String.toList_inj, instanceName, FieldNames.toList_toLower]
    decide
  simp only [serialDevice, List.map_cons, List.map_nil, peripheralFamily, hnumbered, hplain]
  rfl

/-- One replica has the index zero, so it is not called like the other port. -/
theorem exportDevice_names_apart_iff_ports :
    (exportDevice {} (serialDevice 1)).outcome = .ok () ∧
      (Code.namesOfAll (deviceCode {} (serialDevice 1) (serialDevice 1).peripherals)).Nodup := by
  have hok := exportDevice_serialDevice (.inl (Eq.refl 1))
  have hnames := (exportDevice_names_apart_iff hok).1.2
  rw [exportedPeripherals_serialDevice (by decide), map_peripheralFamily_serialDevice] at hnames
  refine ⟨hok, (hnames (by decide)).mpr ?_⟩
  exact (NameFamily.nodup_flatMap_names_iff (by decide)).mp (by decide)

/-- The two ports have different names, but the second replica of one is called like the
other. -/
theorem exportDevice_names_clash :
    (exportDevice {} (serialDevice 2)).outcome = .ok () ∧
      ((serialDevice 2).peripherals.map fun p => instanceName (swiftName p.name)) =
        ["uart1", "uart"] ∧
      Code.namesOfAll (deviceCode {} (serialDevice 2) (exportedPeripherals {} (serialDevice 2))) =
        ["uart1", "uart0", "uart1"] := by
  refine ⟨exportDevice_serialDevice (.inr rfl), ?_, ?_⟩
  · have hfamilies := congrArg (List.map (·.base)) (map_peripheralFamily_serialDevice 2)
    rwa [List.map_map] at hfamilies
  · rw [exportedPeripherals_serialDevice (by decide),
      names_deviceCode {} (serialDevice 2) (by decide), map_peripheralFamily_serialDevice]
    decide

end RegisterMap.Export
