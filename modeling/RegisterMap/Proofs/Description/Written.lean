import Mathlib.Algebra.Ring.Int.Defs
import Mathlib.Data.List.Nodup
import RegisterMap.Proofs.Description.Plain

/-!
# Written descriptions

One plain description of each device.  A container is written in parts, one for
each tag that is read from it; numbers are written in decimal.
-/

namespace RegisterMap.Description

open RegisterMap.Export (IsWord?)
open RegisterMap.Model RegisterMap.Number RegisterMap.Xml

/-! ## Contents -/

/-- What an element holds under its tag, with the base of an alias. -/
structure Content where
  base : Option String := none
  children : List Node

/-- The contents of the children with each of several tags. -/
abbrev Parts := List (String × List Content)

/-- True of parts no two of which have one tag. -/
abbrev Parts.Distinct (parts : Parts) : Prop :=
  (parts.map Prod.fst).Nodup

namespace Content

def element (content : Content) (tag : String) : Element :=
  .mk ⟨none, tag⟩ (content.base.toList.map (⟨⟨none, "derivedFrom"⟩, ·⟩)) 1 content.children

def ofText (text : String) : Content where
  children := [.text text]

def ofInteger (n : Int) : Content :=
  ofText (toString n.toNat)

def ofTruth (value : Bool) : Content :=
  ofText (toString value)

/-- A content whose children come in parts, each with a tag of its own. -/
def ofParts (base : Option String) (parts : Parts) : Content where
  base := base
  children := parts.flatMap fun part => part.2.map fun content => .element (content.element part.1)

theorem attribute?_element (content : Content) (tag : String) :
    (content.element tag).attribute? "derivedFrom" = content.base := by
  rcases content with ⟨_ | base, children⟩ <;> rfl

theorem elementsNamed_map_element (contents : List Content) (tag : String) (t : String) :
    elementsNamed ⟨none, t⟩ (contents.map fun content => .element (content.element tag)) =
      if tag = t then contents.map (·.element t) else [] := by
  induction contents with
  | nil => simp [elementsNamed]
  | cons content contents ih =>
      rw [List.map_cons, elementsNamed_cons_element, ih]
      by_cases h : tag = t
      · subst h
        simp [element, Element.name]
      · have hne : ((content.element tag).name == ⟨none, t⟩) = false := by
          simp [element, Element.name, h]
        simp [hne, h]

/-- If the parts have different tags, the children with a tag are those of one part. -/
theorem tagged_ofParts {parts : Parts}
    (hparts : parts.Distinct) (base : Option String) (tag t : String) :
    tagged ((ofParts base parts).element tag) t =
      ((parts.lookup t).getD []).map (·.element t) := by
  change elementsNamed ⟨none, t⟩ (ofParts base parts).children = _
  rw [ofParts]
  induction parts with
  | nil => rfl
  | cons part parts ih =>
      rcases part with ⟨first, contents⟩
      rcases List.nodup_cons.mp hparts with ⟨hfirst, hrest⟩
      rw [List.flatMap_cons, elementsNamed_append, elementsNamed_map_element, ih hrest,
        List.lookup_cons]
      by_cases h : first = t
      · subst h
        have hnone : parts.lookup first = none := by
          rw [List.lookup_eq_none_iff]
          intro part hpart
          rw [bne_iff_ne]
          intro heq
          exact hfirst (List.mem_map.mpr ⟨part, hpart, heq.symm⟩)
        simp [hnone]
      · have hne : (t == first) = false := by simpa using Ne.symm h
        simp [h, hne]

end Content

/-! ## Parts -/

def propertyParts (properties : RegisterProperties) : Parts := [
  ("size", properties.size.toList.map .ofInteger),
  ("access", (properties.access.map Access.word).toList.map .ofText),
  ("protection", (properties.protection.map Protection.word).toList.map .ofText),
  ("resetValue", properties.resetValue.toList.map .ofInteger),
  ("resetMask", properties.resetMask.toList.map .ofInteger)]

def dimensionParts (dimension : Option Dimension) : Parts := [
  ("dim", (dimension.bind (·.count)).toList.map .ofInteger),
  ("dimIncrement", (dimension.bind (·.stride)).toList.map .ofInteger)]

def labelParts (name : String) (description : Option String) : Parts := [
  ("name", [name].map .ofText),
  ("description", description.toList.map .ofText)]

def rangeParts (minimum maximum : Option Int) : Parts := [
  ("minimum", minimum.toList.map .ofInteger),
  ("maximum", maximum.toList.map .ofInteger)]

def rangeContent (minimum maximum : Option Int) : Content :=
  .ofParts none (rangeParts minimum maximum)

def constraintParts : WriteConstraint → Parts
  | .writeAsRead value => [("writeAsRead", [value].map .ofTruth)]
  | .useEnumeratedValues value => [("useEnumeratedValues", [value].map .ofTruth)]
  | .range minimum maximum => [("range", [rangeContent minimum maximum])]

def constraintContent (constraint : WriteConstraint) : Content :=
  .ofParts none (constraintParts constraint)

def fieldParts (f : Field) : Parts :=
  labelParts f.name f.description ++ dimensionParts f.dimension ++ [
    ("lsb", [f.bits.lsb].map .ofInteger),
    ("msb", [f.bits.msb].map .ofInteger),
    ("access", (f.access.map Access.word).toList.map .ofText),
    ("writeConstraint", f.writeConstraint.toList.map constraintContent)]

def fieldContent (f : Field) : Content :=
  .ofParts none (fieldParts f)

def fieldsContent (fields : List Field) : Content :=
  .ofParts none [("field", fields.map fieldContent)]

def registerParts (r : Register) : Parts :=
  labelParts r.name r.description ++ dimensionParts r.dimension ++ propertyParts r.properties ++ [
    ("addressOffset", [r.addressOffset].map .ofInteger),
    ("writeConstraint", r.writeConstraint.toList.map constraintContent),
    ("fields", r.fields.toList.map fieldsContent)]

def registerContent (r : Register) : Content :=
  .ofParts none (registerParts r)

/-- The parts of a cluster, given the contents of the clusters in it. -/
def clusterParts (c : Cluster) (clusters : List Content) : Parts :=
  labelParts c.name c.description ++ dimensionParts c.dimension ++ propertyParts c.properties ++ [
    ("addressOffset", [c.addressOffset].map .ofInteger),
    ("register", (c.registers.getD []).map registerContent),
    ("cluster", clusters)]

mutual

def clusterContent : Cluster → Content
  | ⟨name, addressOffset, description, derivedFrom, dimension, properties, registers, none⟩ =>
      .ofParts derivedFrom (clusterParts
        ⟨name, addressOffset, description, derivedFrom, dimension, properties, registers, none⟩ [])
  | ⟨name, addressOffset, description, derivedFrom, dimension, properties, registers,
      some clusters⟩ =>
      .ofParts derivedFrom (clusterParts
        ⟨name, addressOffset, description, derivedFrom, dimension, properties, registers,
          some clusters⟩ (clusterContents clusters))

def clusterContents : List Cluster → List Content
  | [] => []
  | c :: cs => clusterContent c :: clusterContents cs

end

theorem clusterContents_eq (cs : List Cluster) : clusterContents cs = cs.map clusterContent := by
  induction cs with
  | nil => rfl
  | cons c cs ih => rw [clusterContents, List.map_cons, ih]

theorem clusterContent_eq (c : Cluster) : clusterContent c =
    .ofParts c.derivedFrom (clusterParts c ((c.clusters.getD []).map clusterContent)) := by
  obtain ⟨name, addressOffset, description, derivedFrom, dimension, properties, registers,
    _ | clusters⟩ := c
  · rfl
  · simp only [clusterContent, clusterContents_eq, Option.getD_some]

/-- The body of a peripheral, if it has lists of members. -/
def bodyContent? (p : Peripheral) : Option Content :=
  p.registers.map fun registers =>
    .ofParts none [
      ("register", registers.map registerContent),
      ("cluster", (p.clusters.getD []).map clusterContent)]

def peripheralParts (p : Peripheral) : Parts :=
  labelParts p.name p.description ++ dimensionParts p.dimension ++ propertyParts p.properties ++ [
    ("baseAddress", [p.baseAddress].map .ofInteger),
    ("registers", (bodyContent? p).toList)]

def peripheralContent (p : Peripheral) : Content :=
  .ofParts p.derivedFrom (peripheralParts p)

def deviceParts (device : Device) : Parts :=
  labelParts device.name device.description ++ propertyParts device.properties ++ [
    ("peripherals", [.ofParts none [("peripheral", device.peripherals.map peripheralContent)]])]

/-- The written description of a device. -/
def deviceElement (device : Device) : Element :=
  (Content.ofParts none (deviceParts device)).element "device"

/-! ## Parts that are shown -/

section

variable {α : Type} {parts : Parts} {base : Option String} {tag t : String}

theorem showsAll_ofParts {R : Element → α → Prop} (write : α → Content) {values : List α}
    (hparts : parts.Distinct) (hpart : parts.lookup t = some (values.map write))
    (hwrite : ∀ a ∈ values, R ((write a).element t) a) :
    ShowsAll R ((Content.ofParts base parts).element tag) t values := by
  rw [ShowsAll, Content.tagged_ofParts hparts, hpart, Option.getD_some, List.map_map,
    List.forall₂_map_left_iff, List.forall₂_same]
  exact hwrite

theorem showsAll_texts {texts : List String} (hparts : parts.Distinct)
    (hpart : parts.lookup t = some (texts.map .ofText)) :
    ShowsAll ShowsText ((Content.ofParts base parts).element tag) t texts :=
  showsAll_ofParts .ofText hparts hpart fun _ _ => rfl

theorem showsInteger_ofInteger {n : Int} (hword : isWord n = true) :
    ShowsInteger ((Content.ofInteger n).element tag) n := by
  simp only [isWord, Bool.and_eq_true, decide_eq_true_eq] at hword
  have hdecimal : "" ∈ Radix.decimal.announcements := by decide
  refine ⟨_, n.toNat, rfl, ?_, by omega⟩
  have hspells := spells_toDigits hdecimal (n := n.toNat) (by omega)
  rw [String.empty_append] at hspells
  exact hspells

theorem showsAll_integers {ns : List Int} (hparts : parts.Distinct)
    (hpart : parts.lookup t = some (ns.map .ofInteger)) (hwords : ∀ n ∈ ns, isWord n = true) :
    ShowsAll ShowsInteger ((Content.ofParts base parts).element tag) t ns :=
  showsAll_ofParts .ofInteger hparts hpart fun n hn => showsInteger_ofInteger (hwords n hn)

theorem showsTruth_ofTruth (value : Bool) :
    ShowsTruth ((Content.ofTruth value).element tag) value := by
  cases value <;> exact .inl rfl

end

theorem showsConstraint_content {constraint : WriteConstraint} (hbounded : constraint.Bounded)
    (tag : String) : ShowsConstraint ((constraintContent constraint).element tag) constraint := by
  have hparts : (constraintParts constraint).Distinct := by
    cases constraint <;> exact List.nodup_singleton _
  cases hbounded with
  | writeAsRead value =>
      exact .writeAsRead (showsAll_ofParts .ofTruth hparts rfl fun _ _ => showsTruth_ofTruth _)
  | useEnumeratedValues value =>
      exact .useEnumeratedValues
        ⟨Content.tagged_ofParts hparts _ _ _, Content.tagged_ofParts hparts _ _ _⟩
        (showsAll_ofParts .ofTruth hparts rfl fun _ _ => showsTruth_ofTruth _)
  | @range low high hlow hhigh =>
      have hrange : List.lookup "range" (constraintParts (.range (some low) (some high))) =
          some ([(low, high)].map fun b => rangeContent (some b.1) (some b.2)) := rfl
      refine .range ⟨Content.tagged_ofParts hparts _ _ _, Content.tagged_ofParts hparts _ _ _⟩
        ⟨Content.tagged_ofParts hparts _ _ _, Content.tagged_ofParts hparts _ _ _⟩
        (showsAll_ofParts _ hparts hrange ?_)
      intro bounds hbounds
      obtain rfl := List.mem_singleton.mp hbounds
      have htags : (rangeParts (some low) (some high)).Distinct := by
        simp [Parts.Distinct, rangeParts]
      exact ⟨showsAll_integers htags rfl (List.forall_mem_singleton.mpr hlow),
        showsAll_integers htags rfl (List.forall_mem_singleton.mpr hhigh)⟩

section

variable {parts : Parts} {base : Option String} {tag : String}

theorem forall_mem_toList {n? : Option Int} (h : IsWord? n?) : ∀ n ∈ n?.toList, isWord n = true :=
  fun n hn => h n (Option.mem_toList.mp hn)

/-- An element shows properties if it has the parts that they are written in. -/
theorem showsProperties_ofParts {properties : RegisterProperties} (hform : properties.WellFormed)
    (hparts : parts.Distinct) (hlookup : Container.propertyTags.map (List.lookup · parts) =
      Container.propertyTags.map (List.lookup · (propertyParts properties))) :
    ShowsProperties ((Content.ofParts base parts).element tag) properties := by
  have hpart := List.map_inj_left.mp hlookup
  exact {
    size := showsAll_integers hparts (hpart "size" (by decide)) (forall_mem_toList hform.size)
    access := showsAll_texts hparts (hpart "access" (by decide))
    protection := showsAll_texts hparts (hpart "protection" (by decide))
    resetValue := showsAll_integers hparts (hpart "resetValue" (by decide))
      (forall_mem_toList hform.resetValue)
    resetMask := showsAll_integers hparts (hpart "resetMask" (by decide))
      (forall_mem_toList hform.resetMask) }

theorem showsDimension_ofParts {dimension : Option Dimension}
    (hform : ∀ d ∈ dimension, d.WellFormed) (hparts : parts.Distinct)
    (hlookup : Container.dimensionTags.map (List.lookup · parts) =
      Container.dimensionTags.map (List.lookup · (dimensionParts dimension))) :
    ShowsDimension ((Content.ofParts base parts).element tag) dimension := by
  have hpart := List.map_inj_left.mp hlookup
  have hcount : IsWord? (dimension.bind (·.count)) := by
    intro n hn
    rcases Option.bind_eq_some_iff.mp hn with ⟨d, hd, hn⟩
    exact (hform d hd).count n hn
  have hstride : IsWord? (dimension.bind (·.stride)) := by
    intro n hn
    rcases Option.bind_eq_some_iff.mp hn with ⟨d, hd, hn⟩
    exact (hform d hd).stride n hn
  exact {
    count := showsAll_integers hparts (hpart "dim" (by decide)) (forall_mem_toList hcount)
    stride := showsAll_integers hparts (hpart "dimIncrement" (by decide))
      (forall_mem_toList hstride) }

theorem showsAll_constraint {constraint : Option WriteConstraint}
    (hbounded : ∀ c ∈ constraint, c.Bounded) (hparts : parts.Distinct)
    (hpart : parts.lookup "writeConstraint" = some (constraint.toList.map constraintContent)) :
    ShowsAll ShowsConstraint ((Content.ofParts base parts).element tag) "writeConstraint"
      constraint.toList :=
  showsAll_ofParts constraintContent hparts hpart fun c hc =>
    showsConstraint_content (hbounded c (Option.mem_toList.mp hc)) _

end

/-! ## Items that are shown -/

-- Which part has a tag is found by computation, since all tags are given: hence each `rfl`.

theorem distinct_fieldParts (f : Field) : (fieldParts f).Distinct := by
  simp [Parts.Distinct, fieldParts, labelParts, dimensionParts]

theorem distinct_registerParts (r : Register) : (registerParts r).Distinct := by
  simp [Parts.Distinct, registerParts, labelParts, dimensionParts, propertyParts]

theorem distinct_clusterParts (c : Cluster) (clusters : List Content) :
    (clusterParts c clusters).Distinct := by
  simp [Parts.Distinct, clusterParts, labelParts, dimensionParts, propertyParts]

theorem distinct_peripheralParts (p : Peripheral) : (peripheralParts p).Distinct := by
  simp [Parts.Distinct, peripheralParts, labelParts, dimensionParts, propertyParts]

theorem distinct_deviceParts (device : Device) : (deviceParts device).Distinct := by
  simp [Parts.Distinct, deviceParts, labelParts, propertyParts]

theorem showsField_content {f : Field} (hf : (Item.field f).Describable) (tag : String) :
    ShowsField ((fieldContent f).element tag) f where
  name := showsAll_texts (distinct_fieldParts f) rfl
  description := showsAll_texts (distinct_fieldParts f) rfl
  lsb := showsAll_integers (distinct_fieldParts f) rfl
    (List.forall_mem_singleton.mpr (hf.lsb _ rfl))
  msb := showsAll_integers (distinct_fieldParts f) rfl
    (List.forall_mem_singleton.mpr (hf.msb _ rfl))
  access := showsAll_texts (distinct_fieldParts f) rfl
  dimension := showsDimension_ofParts hf.dimension (distinct_fieldParts f) rfl
  writeConstraint := showsAll_constraint hf.bounds (distinct_fieldParts f) rfl

theorem showsRegister_content {r : Register} (hr : ∀ i ∈ r.items, i.Describable) (tag : String) :
    ShowsRegister ((registerContent r).element tag) r := by
  rw [Register.forall_items_iff] at hr
  rcases hr with ⟨hfields, hr⟩
  have hparts := distinct_registerParts r
  refine {
    name := showsAll_texts hparts rfl
    description := showsAll_texts hparts rfl
    addressOffset := showsAll_integers hparts rfl (List.forall_mem_singleton.mpr (hr.address _ rfl))
    dimension := showsDimension_ofParts hr.dimension hparts rfl
    properties := showsProperties_ofParts hr.properties hparts rfl
    writeConstraint := showsAll_constraint hr.bounds hparts rfl
    fields := showsAll_ofParts fieldsContent hparts rfl ?_ }
  intro fields hmem
  rw [Option.mem_toList.mp hmem] at hfields
  exact showsAll_ofParts fieldContent (List.nodup_singleton _) rfl fun f hf =>
    showsField_content (hfields f hf) _

theorem showsCluster_content {c : Cluster} (hc : ∀ i ∈ c.items, i.Describable) (tag : String) :
    ShowsCluster ((clusterContent c).element tag) c := by
  rw [Cluster.forall_items_iff] at hc
  rcases hc with ⟨⟨hregisters, hclusters⟩, hc⟩
  rw [clusterContent_eq]
  have hparts := distinct_clusterParts c ((c.clusters.getD []).map clusterContent)
  refine .intro {
    name := showsAll_texts hparts rfl
    description := showsAll_texts hparts rfl
    addressOffset := showsAll_integers hparts rfl (List.forall_mem_singleton.mpr (hc.address _ rfl))
    derivedFrom := Content.attribute?_element _ _
    dimension := showsDimension_ofParts hc.dimension hparts rfl
    properties := showsProperties_ofParts hc.properties hparts rfl } ?_ ?_
  · exact showsAll_ofParts registerContent hparts rfl fun r hr =>
      showsRegister_content (hregisters r hr) _
  · refine showsAll_ofParts clusterContent hparts rfl fun d hd => ?_
    -- The clusters in a cluster are smaller, whichever elements they are written as.
    have hlt := Cluster.sizeOf_lt_of_mem hd
    exact showsCluster_content (hclusters d hd) _
termination_by sizeOf c

theorem showsBody_content {p : Peripheral} (hp : ∀ i ∈ p.items, i.Describable)
    {base : Option String} {tag : String} :
    ShowsBody ((Content.ofParts base (peripheralParts p)).element tag) p.registers p.clusters := by
  rw [Peripheral.forall_items_iff] at hp
  rcases hp with ⟨⟨hregisters, hclusters⟩, hp⟩
  have hbody : tagged ((Content.ofParts base (peripheralParts p)).element tag) "registers" =
      (bodyContent? p).toList.map (·.element "registers") :=
    Content.tagged_ofParts (distinct_peripheralParts p) _ _ _
  have hmembers : p.registers.isSome = p.clusters.isSome := hp.members
  rw [bodyContent?] at hbody
  generalize p.registers = registers, p.clusters = clusters
    at hbody hmembers hregisters hclusters ⊢
  rcases registers with _ | registers <;> rcases clusters with _ | clusters
  · exact .absent hbody
  · cases hmembers
  · cases hmembers
  · have hparts {contents others : List Content} :
        Parts.Distinct [("register", contents), ("cluster", others)] := by simp [Parts.Distinct]
    refine .present hbody ?_ ?_
    · exact showsAll_ofParts registerContent hparts rfl fun r hr =>
        showsRegister_content (hregisters r hr) _
    · exact showsAll_ofParts clusterContent hparts rfl fun c hc =>
        showsCluster_content (hclusters c hc) _

theorem showsPeripheral_content {p : Peripheral} (hp : ∀ i ∈ p.items, i.Describable)
    (tag : String) : ShowsPeripheral ((peripheralContent p).element tag) p := by
  have hown := (Peripheral.forall_items_iff.mp hp).2
  have hparts := distinct_peripheralParts p
  exact {
    name := showsAll_texts hparts rfl
    description := showsAll_texts hparts rfl
    baseAddress := showsAll_integers hparts rfl (List.forall_mem_singleton.mpr (hown.address _ rfl))
    derivedFrom := Content.attribute?_element _ _
    dimension := showsDimension_ofParts hown.dimension hparts rfl
    properties := showsProperties_ofParts hown.properties hparts rfl
    body := showsBody_content hp }

/-- The written description of a device that can be described is a plain one. -/
theorem showsDevice_deviceElement {device : Device} (hdevice : device.Describable) :
    ShowsDevice (deviceElement device) device := by
  rw [Device.Describable, Device.forall_items_iff] at hdevice
  rcases hdevice with ⟨hself, hperipherals⟩
  have hparts := distinct_deviceParts device
  refine {
    tag := beq_self_eq_true _
    name := showsAll_texts hparts rfl
    description := showsAll_texts hparts rfl
    properties := showsProperties_ofParts hself.properties hparts rfl
    peripherals := .present (Content.tagged_ofParts hparts _ _ _) ?_ }
  exact showsAll_ofParts peripheralContent (List.nodup_singleton _) rfl fun p hp =>
    showsPeripheral_content (hperipherals p hp) _

/-! ## Devices -/

/--
A device that can be described has a plain description, and decoding any plain
description of it gives that device.
-/
theorem decodeDevice_plain {device : Device} (h : device.Describable) :
    ShowsDevice (deviceElement device) device ∧
      ∀ root, ShowsDevice root device → decodeDevice root = .ok device := by
  refine ⟨showsDevice_deviceElement h, ?_⟩
  intro root hshows
  exact decodeDevice_eq_ok_iff.mpr (hshows.reads h)

/-! ### A converter with zeros and empty lists -/

def sampleField : Field where
  name := "SAMPLE[%s]"
  bits := ⟨0, 2 ^ 64 - 1⟩
  description := some "Last value."
  access := some .readOnly
  dimension := some ⟨some 0, none⟩
  writeConstraint := some (.range (some 0) (some 0))

def resultRegister : Register where
  name := "RESULT"
  addressOffset := 0
  properties := { size := some 0, protection := some .secure, resetValue := some 0 }
  writeConstraint := some (.useEnumeratedValues false)
  fields := some [sampleField]

def channelCluster : Cluster where
  name := "CHANNEL%s"
  addressOffset := 0x100
  derivedFrom := some "COMMON.CHANNEL"
  dimension := some ⟨some 4, some 0⟩
  clusters := some [{ name := "INNER", addressOffset := 0, registers := some [resultRegister] }]

def converterDevice : Device where
  name := "Converter"
  peripherals := [
    { name := "ADC", registers := some [{ name := "CTRL", addressOffset := 4, fields := some [] }],
      clusters := some [channelCluster] },
    { name := "DAC", derivedFrom := some "ADC" },
    { name := "IDLE", registers := some [], clusters := some [] }]

theorem decodeDevice_plain_converter :
    converterDevice.Describable ∧
      ShowsDevice (deviceElement converterDevice) converterDevice ∧
        ∀ root, ShowsDevice root converterDevice → decodeDevice root = .ok converterDevice := by
  have hdevice : converterDevice.Describable := by decide
  exact ⟨hdevice, decodeDevice_plain hdevice⟩

end RegisterMap.Description
