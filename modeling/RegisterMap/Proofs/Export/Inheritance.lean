import RegisterMap.Proofs.Export.ArrayElements
import RegisterMap.Proofs.Export.SiblingNames

/-!
# Inherited properties in a unit

An element is met twice: the block around it declares its replicas, and a later
section declares its type.  Both times, what it does not define itself comes from
the nearest element on the way to it that does, and so do the width, the macros and
the distances in the attributes that are printed for it.
-/

namespace RegisterMap.Export

open RegisterMap.Model RegisterMap.Number RegisterMap.Report RegisterMap.Swift

/-- A member that is declared has replicas at a distance that is known. -/
theorem exists_memberExpansion {inherited : RegisterProperties} {m : Member}
    (h : isExportedMember inherited m = true) :
    ∃ x, memberExpansion? inherited m = some x ∧ x.count ≠ some 0 ∧
      Dimension.expansion? (Element.member m).dimension
        ((Element.member m).properties.inheriting inherited).size = some x := by
  cases m with
  | register r =>
      rcases isExportedRegister_iff.mp h with ⟨size, x, hsize, hx, hne⟩
      refine ⟨x, ?_, hne, hx⟩
      rw [memberExpansion?, hsize]
      exact hx
  | cluster c =>
      rcases isExportedCluster_iff.mp h with ⟨x, hx, hreplica⟩
      refine ⟨x, hx, ?_, hx⟩
      intro hzero
      have hpos := hasReplica_iff.mp hreplica 0 hzero
      omega

/-! ## Printed attributes -/

/-- The macro for bits that can be accessed in some way.  Writing once is writing. -/
def macroName : Option Access → String
  | some .readOnly => "ReadOnly"
  | some .writeOnly | some .writeOnce => "WriteOnly"
  | some .readWrite | some .readWriteOnce => "ReadWrite"
  | none => "Reserved"

theorem accessAttribute_eq (access : Option Access) :
    accessAttribute access = macroName access := by
  cases access with
  | none => rfl
  | some access => cases access <;> rfl

/-- True of the heading of a register type with a width. -/
def ShowsWidth (size : Int) (heading : String) : Prop :=
  attributeLine? heading = some ("@Register(bitWidth: " ++ toString size ++ ")").toList

/-- True of the declaration of a member of a register that can be accessed in some way. -/
structure ShowsAccess (access : Option Access) (m : FieldMember) (text : String) : Prop where
  line : attributeLine? text = some ("@" ++ macroName access ++ "(bits: " ++
    toString m.bits.lsb ++ "..<" ++ toString (m.bits.msb + 1) ++ ")").toList
  name : declaredName? text = some m.property

/-- True of the declarations of a member with replicas at some distance. -/
def ShowsStride (count stride : Int) (texts : List String) : Member → Prop
  | .register r => texts.map attributeLine? =
      [some ("@RegisterBlock(offset: " ++ hexLiteral r.addressOffset ++ ", stride: " ++
        hexLiteral stride ++ ", count: " ++ toString count ++ ")").toList]
  | .cluster c => texts.map attributeLine? = (List.range count.toNat).map fun (i : Nat) =>
      some ("@RegisterBlock(offset: " ++ hexLiteral (c.addressOffset + i * stride) ++ ")").toList

theorem showsWidth_registerHeading (subject : Subject) (size : Int) :
    ShowsWidth size (subject.registerHeading size) := by
  have hcode : IsCode ("@Register(bitWidth: " ++ toString size ++ ")") := by
    simp only [isCode_append]
    exact ⟨⟨by decide, isCode_toString size⟩, by decide⟩
  exact attributeLine?_documented hcode (by simp) subject subject.structLine

theorem showsAccess_text (options : Options) (access : Option Access) {m : FieldMember}
    (hname : IsName m.typeName) :
    ShowsAccess (m.field.access.or access) m (m.text options access) := by
  let subject : Subject := ⟨m.field.description, m.typeName, options.modifiers⟩
  have hnamed : IsNamed subject := ⟨hname, isLead_modifiers options⟩
  have htext : m.text options access = subject.documented
      (fieldLines subject (m.accessName access) m.bits.lsb (m.bits.msb + 1)) := rfl
  rw [htext, fieldLines, FieldMember.accessName, accessAttribute_eq]
  have hmacro : IsCode (macroName (m.field.access.or access)) := by
    rw [← accessAttribute_eq]
    exact isCode_accessAttribute _
  constructor
  case line =>
    refine attributeLine?_documented ?_ (by simp) subject _
    simp only [isCode_append]
    exact ⟨⟨⟨⟨⟨⟨by decide, hmacro⟩, by decide⟩, isCode_toString _⟩, by decide⟩,
      isCode_toString _⟩, by decide⟩
  case name =>
    have hproperty : IsName (instanceName subject.typeName) := hname.toLower
    have hread := declaredName?_documented hnamed (passedOver_modifiers options) (.inr rfl)
      hproperty (.inr rfl) hnamed.isCode_type
      ["@" ++ macroName (m.field.access.or access) ++ "(bits: " ++ toString m.bits.lsb ++ "..<" ++
        toString (m.bits.msb + 1) ++ ")"]
    have hvar : "var " = "var" ++ " " := by decide
    have hcolon : ": " = ":" ++ " " := by decide
    rw [hvar, hcolon]
    simpa only [FieldMember.property, String.append_assoc, List.singleton_append] using hread

theorem attributeLine?_clusterLines (subject : Subject) (offset : Int) (r : Replica) :
    attributeLine? (subject.documented (clusterLines subject offset r)) =
      some ("@RegisterBlock(offset: " ++ hexLiteral (offset + r.offset) ++ ")").toList := by
  refine attributeLine?_documented ?_ (by simp) subject _
  simp only [isCode_append]
  exact ⟨⟨by decide, isCode_hexLiteral _⟩, by decide⟩

theorem attributeLine?_registerLines (subject : Subject) (offset count stride : Int) :
    attributeLine? (subject.documented (registerLines subject offset ⟨some count, stride⟩)) =
      some ("@RegisterBlock(offset: " ++ hexLiteral offset ++ ", stride: " ++
        hexLiteral stride ++ ", count: " ++ toString count ++ ")").toList := by
  refine attributeLine?_documented ?_ (by simp) subject _
  simp only [isCode_append]
  exact ⟨⟨⟨⟨⟨⟨by decide, isCode_hexLiteral _⟩, by decide⟩, isCode_hexLiteral _⟩, by decide⟩,
    isCode_toString _⟩, by decide⟩

theorem showsStride_replicaTexts (options : Options) (m : Member) {count : Int}
    (hcount : count ≠ 0) (stride : Int) :
    ShowsStride count stride (replicaTexts options m ⟨some count, stride⟩) m := by
  cases m with
  | register r =>
      have hne : some count ≠ some 0 := by simpa using hcount
      rw [ShowsStride, replicaTexts, registerTexts, if_neg hne, List.map_singleton,
        attributeLine?_registerLines]
  | cluster c =>
      have hreplicas : Expansion.replicas ⟨some count, stride⟩ =
          (List.range count.toNat).map (Expansion.replica ⟨some count, stride⟩) := rfl
      rw [ShowsStride, replicaTexts, hreplicas, List.map_map, List.map_map]
      refine List.map_congr_left fun i _ => ?_
      rw [Function.comp_apply, Function.comp_apply, attributeLine?_clusterLines, Expansion.replica]

/-! ## Inheritance -/

/-- What the elements on a way define is in effect at its end, whenever the element is met. -/
structure InheritsNearest (options : Options) (device : Device) (way : List Element)
    (t : Site) : Prop where
  /-- The section that declares the type passes on what the type inherits. -/
  typePass : t.element.properties.inheriting t.inherited = nearestProperties device way ∧
    (typeCode options t.inherited t.address t.element).outcome = .ok (t.type options)
  /-- The block that declares the members passes on to each of them what its type inherits. -/
  memberPass : ∀ m ∈ t.element.members,
    (Element.member m).properties.inheriting t.effective =
        nearestProperties device (.member m :: way) ∧
      (memberAccessors options t.effective m).outcome = .ok (memberTexts options t.effective m)
  /-- A register shows the nearest size as its width.  Each of its members shows the macro
  for the access of its own field, or else for the nearest access. -/
  register : ∀ r, t.element = .member (.register r) → ∃ size members,
    let heading :=
      (Subject.mk r.description (swiftName r.name) options.modifiers).registerHeading size
    nearest device way (·.size) = some size ∧
      t.type options = .block heading (Code.declarations members) ∧ ShowsWidth size heading ∧
      List.Forall₂
        (fun m text => ShowsAccess (m.field.access.or (nearest device way (·.access))) m text)
        (registerMembers r) members
  /-- Replicas without a distance of their own show the nearest size as their distance. -/
  stride : ∀ m ∈ t.element.members, isExportedMember t.effective m = true → ∀ d count,
    (Element.member m).dimension = some d → d.count = some count → d.stride = none → ∃ stride,
      nearest device (.member m :: way) (·.size) = some stride ∧
        memberTexts options t.effective m = replicaTexts options m ⟨some count, stride⟩ ∧
        ShowsStride count stride (memberTexts options t.effective m) m

variable {options : Options} {device : Device} {p : Peripheral}

theorem exists_size_of_at? {place : Place} {t : Site} {r : Register}
    (hat : (peripheralSite options device p).at? place = some t)
    (hr : t.element = .member (.register r)) : ∃ size, t.effective.size = some size := by
  rcases exists_around hat hr with ⟨_, i, u, -, hi⟩
  rcases Site.member?_eq_some_iff.mp hi with ⟨-, m, -, hexported, rfl⟩
  obtain rfl := Element.member.inj hr
  rcases isExportedRegister_iff.mp hexported with ⟨size, -, hsize, -, -⟩
  exact ⟨size, hsize⟩

theorem inheritsNearest_of_at? {place : Place} {t : Site}
    (hat : (peripheralSite options device p).at? place = some t) (hfits : t.Fits) :
    InheritsNearest options device ((peripheralSite options device p).way place) t := by
  have heffective := Site.effective_eq_nearest rfl hat
  have hmember (m : Member) : (Element.member m).properties.inheriting t.effective =
      nearestProperties device (.member m :: (peripheralSite options device p).way place) := by
    rw [heffective, nearestProperties_cons]
  have htype := (t.typeCode_settled options).outcome_iff.mpr ⟨hfits, rfl⟩
  refine ⟨⟨heffective, htype⟩, ?_, ?_, ?_⟩
  · intro m hm
    have htexts := (memberAccessors_settled options t.effective m).outcome_iff.mpr
      ⟨hfits.members m hm, rfl⟩
    exact ⟨hmember m, htexts⟩
  · intro r hr
    rcases exists_size_of_at? hat hr with ⟨size, hsize⟩
    have hcode : t.type options = t.registerType options r := by rw [Site.type, hr]
    refine ⟨size, (registerMembers r).map (FieldMember.text options t.effective.access), ?_, ?_,
      showsWidth_registerHeading _ size, ?_⟩
    · rw [← hsize, heffective]
      rfl
    · rw [hcode, Site.registerType, hsize]
      rfl
    · rw [List.forall₂_map_right_iff, List.forall₂_same, heffective]
      exact fun m hm => showsAccess_text options _ (isName_typeName_of_mem hm)
  · intro m hm hexported d count hd hcount hstride
    rcases exists_memberExpansion hexported with ⟨x, hx, hne, hexpansion⟩
    have hdimension := Dimension.count_of_expansion? hexpansion
    rw [hmember, hd] at hexpansion
    have hzero : count ≠ 0 := by
      rintro rfl
      apply hne
      rw [hdimension, hd]
      exact hcount
    rcases Dimension.exists_default_of_expansion? hexpansion hcount hstride hzero with
      ⟨stride, hsize, rfl⟩
    have htexts : memberTexts options t.effective m =
        replicaTexts options m ⟨some count, stride⟩ := by
      rw [memberTexts, hx]
    refine ⟨stride, hsize, htexts, ?_⟩
    rw [htexts]
    exact showsStride_replicaTexts options m hzero stride

/-- Instances without a distance of their own are as far apart as the nearest size. -/
theorem instances_inherit {texts : List String}
    (h : (peripheralAccessors options device.properties p).outcome = .ok texts) (hne : texts ≠ [])
    {d : Dimension} {count : Int} (hd : p.dimension = some d) (hcount : d.count = some count)
    (hstride : d.stride = none) :
    ∃ stride, nearest device [.peripheral p] (·.size) = some stride ∧
      texts = (Expansion.replicas ⟨some count, stride⟩).map fun r =>
        (instanceSubject options p).documented
          [instanceLine (instanceSubject options p) p.baseAddress r] := by
  have hsettled := peripheralAccessors_settled options device.properties p
  obtain ⟨-, rfl⟩ := hsettled.outcome_iff.mp h
  have hexported := (instanceTexts_ne_nil_iff options device.properties p).mp hne
  rcases isExportedPeripheral_iff.mp hexported with ⟨x, hx, hreplica⟩
  have hzero : count ≠ 0 := by
    rintro rfl
    have hdimension := Dimension.count_of_expansion? hx
    rw [hd, Option.bind_some, hcount] at hdimension
    have hpos := hasReplica_iff.mp hreplica 0 hdimension
    omega
  have hnearest : (p.properties.inheriting device.properties).size =
      nearest device [.peripheral p] (·.size) := by
    rw [nearest_cons, nearest_nil]
    rfl
  have hexpansion := hx
  rw [peripheralExpansion?, hnearest, hd] at hexpansion
  rcases Dimension.exists_default_of_expansion? hexpansion hcount hstride hzero with
    ⟨stride, hsize, rfl⟩
  refine ⟨stride, hsize, ?_⟩
  rw [instanceTexts, hx]

/-! ## Units -/

/-- In the unit of a peripheral, properties come from the nearest element that defines them. -/
structure UnitInherits (options : Options) (device : Device) (p : Peripheral) : Prop where
  /-- The unit holds the types of the sites of the peripheral, section by section. -/
  unit : writtenUnits (writePeripheralUnit options device p).events =
    [peripheralUnit options device p]
  sites : (peripheralSite options device p).sections.flatMap Section.sites =
    ((peripheralSite options device p).declarations
      (peripheralSite options device p).levelOrder).map Prod.snd
  nearest : ∀ place t, (peripheralSite options device p).at? place = some t →
    InheritsNearest options device ((peripheralSite options device p).way place) t
  /-- A member is met with the same properties in its block and where its type is declared. -/
  passes : ∀ place t i u, (peripheralSite options device p).at? place = some t →
    t.member? i = some u →
    u.element.properties.inheriting t.effective = u.element.properties.inheriting u.inherited
  /-- So is the peripheral, where its instances are declared and where its type is. -/
  peripheral : p.properties.inheriting device.properties =
    (peripheralSite options device p).effective
  instances : ∀ texts, (peripheralAccessors options device.properties p).outcome = .ok texts →
    texts ≠ [] → ∀ d count, p.dimension = some d → d.count = some count → d.stride = none →
    ∃ stride, Export.nearest device [.peripheral p] (·.size) = some stride ∧
      texts = (Expansion.replicas ⟨some count, stride⟩).map fun r =>
        (instanceSubject options p).documented
          [instanceLine (instanceSubject options p) p.baseAddress r]

theorem writePeripheralUnit_inherits
    (h : (writePeripheralUnit options device p).outcome = .ok ()) :
    UnitInherits options device p where
  unit := writtenUnits_writePeripheralUnit h
  sites := Site.sites_sections _
  nearest place t hat := by
    have hsettled := writePeripheralUnit_settled options device p
    have hfits := (hsettled.outcome_iff.mp h).1
    exact inheritsNearest_of_at? hat (hfits place t hat)
  passes place t i u _ hi := by
    rcases Site.member?_eq_some_iff.mp hi with ⟨-, m, -, -, rfl⟩
    rfl
  peripheral := rfl
  instances _ htexts hne _ _ hd hcount hstride := instances_inherit htexts hne hd hcount hstride

/-! ### A narrow cluster in a wide device -/

def dataRegister : Register where
  name := "DATA"
  addressOffset := 0
  fields := some [
    { name := "BYTE", bits := ⟨0, 6⟩ },
    { name := "LAST", bits := ⟨7, 7⟩, access := some .writeOnly }]

def fifo : Cluster where
  name := "FIFO%s"
  addressOffset := 0x10
  dimension := some ⟨some 2, none⟩
  properties := { size := some 8 }
  registers := some [dataRegister]

def uart : Peripheral where
  name := "UART"
  properties := { access := some .readOnly }
  clusters := some [fifo]

def uartDevice : Device where
  properties := { size := some 32, access := some .readWrite }
  peripherals := [uart]

def dataSite : Site where
  element := .member (.register dataRegister)
  enclosing := ["UART", "FIFO"]
  inherited := { size := some 8, access := some .readOnly }
  address := 0x10

/-- Eight bits come from the cluster, the access from the peripheral or from the field. -/
def uartText : String :=
  "// Generated by svd2swift.\n\nimport MMIO\n\n@RegisterBlock\nstruct UART \x7b\n" ++
    "  @RegisterBlock(offset: 0x0010)\n  var fifo0: FIFO\n\n" ++
    "  @RegisterBlock(offset: 0x0018)\n  var fifo1: FIFO\n\x7d\n\n" ++
    "extension UART \x7b\n  @RegisterBlock\n  struct FIFO \x7b\n" ++
    "    @RegisterBlock(offset: 0x0000)\n    var data: Register<DATA>\n  \x7d\n\x7d\n\n" ++
    "extension UART.FIFO \x7b\n  @Register(bitWidth: 8)\n  struct DATA \x7b\n" ++
    "    @ReadOnly(bits: 0..<7)\n    var byte: BYTE\n\n" ++
    "    @WriteOnly(bits: 7..<8)\n    var last: LAST\n  \x7d\n\x7d\n"

theorem writePeripheralUnit_inherits_uart :
    (writePeripheralUnit {} uartDevice uart).outcome = .ok () ∧
      writtenUnits (writePeripheralUnit {} uartDevice uart).events = [⟨"UART.swift", uartText⟩] ∧
      (peripheralSite {} uartDevice uart).at? [0, 0] = some dataSite ∧
      (∃ heading members, dataSite.type {} = .block heading (Code.declarations members) ∧
        ShowsWidth 8 heading ∧
        List.Forall₂ (fun m text => ShowsAccess (m.field.access.or (some .readOnly)) m text)
          (registerMembers dataRegister) members) ∧
      ShowsStride 2 8 (memberTexts {} { size := some 32, access := some .readOnly } (.cluster fifo))
        (.cluster fifo) := by
  have hok : (writePeripheralUnit {} uartDevice uart).outcome = .ok () :=
    writePeripheralUnit_of_ok rfl
  have htext : peripheralUnit {} uartDevice uart = ⟨"UART.swift", uartText⟩ := by decide +kernel
  have hunit := (writePeripheralUnit_inherits hok).unit
  rw [htext] at hunit
  have hdata := (writePeripheralUnit_inherits hok).nearest [0, 0] dataSite rfl
  have hroot := (writePeripheralUnit_inherits hok).nearest [] _ rfl
  rcases hdata.register dataRegister rfl with ⟨size, members, hsize, hcode, hwidth, hshown⟩
  rcases hroot.stride (.cluster fifo) (List.mem_singleton_self _) rfl ⟨some 2, none⟩ 2 rfl rfl rfl
    with ⟨stride, hstride, -, htexts⟩
  obtain rfl : 8 = size := Option.some.inj hsize
  obtain rfl : 8 = stride := Option.some.inj hstride
  exact ⟨hok, hunit, rfl, ⟨_, members, hcode, hwidth, hshown⟩, htexts⟩

end RegisterMap.Export
