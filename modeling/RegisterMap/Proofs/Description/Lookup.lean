import RegisterMap.Proofs.Description.Edit
import RegisterMap.Proofs.Report.Agreement

/-!
# Lookups

Decoding looks at an element only through the first children with some tags, the
children with others, and one attribute.  Elements that give the same answers are
decoded alike, wherever they stand.
-/

namespace RegisterMap.Description

open RegisterMap.Model RegisterMap.Report RegisterMap.Xml

/-! ## Values -/

theorem text?_congr {x y : Element} (h : x.children = y.children) : x.text? = y.text? := by
  rw [Element.text?, h, Element.text?]

theorem child?_congr {x y : Element} (h : x.children = y.children) (tag : String) :
    x.child? tag = y.child? tag := by
  rw [Element.child?, Element.elements, h, Element.child?, Element.elements]

/-- True of two elements whose first children with a tag hold the same, if they are there. -/
def SameContent (a b : Element) (tag : String) : Prop :=
  Option.Rel (fun x y => x.children = y.children) (a.child? tag) (b.child? tag)

theorem SameContent.cases {a b : Element} {tag : String} (h : SameContent a b tag) :
    a.child? tag = none ∧ b.child? tag = none ∨
      ∃ x y, a.child? tag = some x ∧ b.child? tag = some y ∧ x.children = y.children := by
  unfold SameContent at h
  generalize a.child? tag = x, b.child? tag = y at h
  cases h with
  | none => exact .inl ⟨rfl, rfl⟩
  | some h => exact .inr ⟨_, _, rfl, rfl, h⟩

theorem orStandIn_congr {α : Type} {a b : Element} {property : Property} {ofStandIn : Element → α}
    {value value' : Except Cause α} (h : SameContent a b property.word)
    (hof : ∀ x y : Element, x.children = y.children → ofStandIn x = ofStandIn y)
    (hvalue : value = value') :
    orStandIn a property ofStandIn value = orStandIn b property ofStandIn value' := by
  subst hvalue
  rcases h.cases with ⟨ha, hb⟩ | ⟨x, y, ha, hb, hxy⟩
  · simp only [orStandIn, ha, hb]
  · simp only [orStandIn, ha, hb, hof x y hxy]

theorem standInNumber_congr (x y : Element) (h : x.children = y.children) :
    standInNumber x = standInNumber y := by
  simp only [standInNumber, text?_congr h]

theorem integerOf_congr {x y : Element} (h : x.children = y.children) (tag : String) :
    integerOf x tag = integerOf y tag := by
  have hsame : SameContent x y Property.value.word := by
    rw [SameContent, child?_congr h]
    cases y.child? Property.value.word with
    | none => exact .none
    | some child => exact .some rfl
  exact orStandIn_congr hsame standInNumber_congr (by rw [text?_congr h])

theorem standInBits_congr (x y : Element) (h : x.children = y.children) :
    standInBits x = standInBits y := by
  simp only [standInBits, child?_congr h]

namespace SameContent

variable {a b : Element} {tag : String}

theorem nameOf (h : SameContent a b "name") : nameOf a = nameOf b := by
  rcases h.cases with ⟨ha, hb⟩ | ⟨x, y, ha, hb, hxy⟩
  · simp only [Description.nameOf, ha, hb]
  · simp only [Description.nameOf, ha, hb, text?_congr hxy]

theorem descriptionOf (h : SameContent a b "description") :
    descriptionOf a = descriptionOf b := by
  rcases h.cases with ⟨ha, hb⟩ | ⟨x, y, ha, hb, hxy⟩
  · simp only [Description.descriptionOf, ha, hb]
  · simp only [Description.descriptionOf, ha, hb, text?_congr hxy]

theorem word? {α : Type} {ofWord? : String → Option α} (h : SameContent a b tag) :
    word? a tag ofWord? = word? b tag ofWord? := by
  rcases h.cases with ⟨ha, hb⟩ | ⟨x, y, ha, hb, hxy⟩
  · simp only [Description.word?, ha, hb]
  · simp only [Description.word?, ha, hb, text?_congr hxy]

variable {property : Property}

theorem integer? (h : SameContent a b tag) (hproperty : SameContent a b property.word) :
    integer? a tag property = integer? b tag property := by
  rcases h.cases with ⟨ha, hb⟩ | ⟨x, y, ha, hb, hxy⟩
  · simp only [Description.integer?, ha, hb]
  · have hread := orStandIn_congr hproperty standInNumber_congr (integerOf_congr hxy tag)
    simp only [Description.integer?, ha, hb, hread]

theorem integer (h : SameContent a b tag) (hproperty : SameContent a b property.word) :
    integer a tag property = integer b tag property := by
  apply orStandIn_congr hproperty standInNumber_congr
  rcases h.cases with ⟨ha, hb⟩ | ⟨x, y, ha, hb, hxy⟩
  · simp only [ha, hb]
  · simp only [ha, hb, integerOf_congr hxy]

theorem propertiesOf (h : ∀ tag ∈ Container.propertyTags, SameContent a b tag) :
    propertiesOf a = propertiesOf b := by
  apply orStandIn_congr (h _ (by decide)) (fun _ _ _ => rfl)
  have hsize := (h "size" (by decide)).integer? (h Property.size.word (by decide))
  have hvalue := (h "resetValue" (by decide)).integer? (h Property.resetValue.word (by decide))
  have hmask := (h "resetMask" (by decide)).integer? (h Property.resetMask.word (by decide))
  simp only [hsize, hvalue, hmask, accessOf, (h "access" (by decide)).word?,
    (h "protection" (by decide)).word?]

theorem dimensionOf (h : ∀ tag ∈ Container.dimensionTags, SameContent a b tag) :
    dimensionOf a = dimensionOf b := by
  apply orStandIn_congr (h _ (by decide)) (fun _ _ _ => rfl)
  have hcount := (h "dim" (by decide)).integer? (h Property.count.word (by decide))
  have hstride := (h "dimIncrement" (by decide)).integer? (h Property.stride.word (by decide))
  simp only [hcount, hstride]

/-- Elements with the same two ends have the same bits if all else that gives bits is the same. -/
theorem bitsOf_of_ends (hends : bitEnds? a = bitEnds? b)
    (h : ∀ tag ∈ ["bitOffset", "bitWidth", "bitRange"] ++
      Container.standInTags [.bitOffset, .bitWidth, .bitRange], SameContent a b tag) :
    bitsOf a = bitsOf b := by
  apply orStandIn_congr (h _ (by decide)) standInBits_congr
  have hoffset := (h "bitOffset" (by decide)).integer? (h Property.bitOffset.word (by decide))
  have hwidth := (h "bitWidth" (by decide)).integer? (h Property.bitWidth.word (by decide))
  simp only [writtenBits, hends, hoffset, hwidth]
  rcases (h "bitRange" (by decide)).cases with ⟨ha, hb⟩ | ⟨x, y, ha, hb, hxy⟩
  · simp only [ha, hb]
  · simp only [ha, hb, text?_congr hxy]

theorem bitsOf (h : ∀ tag ∈ Container.bitTags, SameContent a b tag) : bitsOf a = bitsOf b := by
  have hlsb := (h "lsb" (by decide)).integer? (h Property.lsb.word (by decide))
  have hmsb := (h "msb" (by decide)).integer? (h Property.msb.word (by decide))
  apply bitsOf_of_ends
  · simp only [bitEnds?, hlsb, hmsb]
  · intro tag htag
    exact h tag (by revert tag; decide)

theorem truthIn? (h : SameContent a b tag) (hproperty : SameContent a b property.word) :
    truthIn? a tag property = truthIn? b tag property := by
  rcases h.cases with ⟨ha, hb⟩ | ⟨x, y, ha, hb, hxy⟩
  · rcases hproperty.cases with ⟨ha', hb'⟩ | ⟨x, y, ha', hb', hxy⟩
    · simp only [Description.truthIn?, ha, hb, ha', hb']
    · simp only [Description.truthIn?, ha, hb, ha', hb', Option.map_some, standInTruth,
        text?_congr hxy]
  · simp only [Description.truthIn?, ha, hb, text?_congr hxy]

theorem boundOf {bound : Property} (h : SameContent a b bound.word) :
    boundOf a bound = boundOf b bound := by
  apply orStandIn_congr h (fun _ _ _ => rfl)
  rcases h.cases with ⟨ha, hb⟩ | ⟨x, y, ha, hb, hxy⟩
  · simp only [ha, hb]
  · simp only [ha, hb, integerOf_congr hxy]

end SameContent

theorem derivedFromOf_congr {a b : Element}
    (h : a.attribute? "derivedFrom" = b.attribute? "derivedFrom") :
    derivedFromOf a = derivedFromOf b := by
  simp only [derivedFromOf, h]

/-! ## Children with their chains -/

namespace Located

theorem map_element_childrenFrom (chain : List Link) (i : Nat) (nodes : List Node) :
    (childrenFrom chain i nodes).map (·.element) = nodes.filterMap Node.element? := by
  induction nodes generalizing i with
  | nil => rfl
  | cons node nodes ih =>
      cases node with
      | text content => exact ih i
      | instruction => exact ih (i + 1)
      | element e => exact congrArg (e :: ·) (ih (i + 1))

theorem map_element_childrenNamed (l : Located) (tag : String) :
    (l.childrenNamed tag).map (·.element) = tagged l.element tag := by
  rw [childrenNamed, children, tagged, elementsNamed, ← map_element_childrenFrom, List.filter_map]
  rfl

/-- Children that are related one by one are so with their chains too. -/
theorem forall₂_childrenNamed {R : Element → Element → Prop} {l m : Located} {tag : String}
    (h : List.Forall₂ R (tagged l.element tag) (tagged m.element tag)) :
    List.Forall₂ (fun x y => R x.element y.element) (l.childrenNamed tag)
      (m.childrenNamed tag) := by
  rwa [← map_element_childrenNamed, ← map_element_childrenNamed, List.forall₂_map_left_iff,
    List.forall₂_map_right_iff] at h

theorem map_element_child? (l : Located) (tag : String) :
    (l.child? tag).map (·.element) = l.element.child? tag := by
  rw [child?, child?_eq_head?, ← map_element_childrenNamed, List.head?_map]

theorem rel_child? {R : Element → Element → Prop} {l m : Located} {tag : String}
    (h : Option.Rel R (l.element.child? tag) (m.element.child? tag)) :
    Option.Rel (fun x y => R x.element y.element) (l.child? tag) (m.child? tag) := by
  rw [← map_element_child?, ← map_element_child?] at h
  generalize l.child? tag = x, m.child? tag = y at h ⊢
  cases x <;> cases y <;> cases h
  · exact .none
  · exact .some ‹_›

end Located

/-- Clusters are decoded one by one, like all children that count. -/
theorem decodeClusters_eq_mapM (chain : List Link) (i : Nat) (nodes : List Node) :
    decodeClusters chain i nodes =
      ((Located.childrenFrom chain i nodes).filter (·.element.hasTag "cluster")).mapM
        fun l => decodeCluster l.chain l.element := by
  induction nodes generalizing i with
  | nil => rfl
  | cons node nodes ih =>
      cases node with
      | text content => exact ih i
      | instruction => exact ih (i + 1)
      | element e =>
          simp only [decodeClusters, Located.childrenFrom, List.filter_cons, ih]
          by_cases h : e.hasTag "cluster" = true
          · rw [if_pos h, if_pos h, List.mapM_cons]
          · rw [if_neg h, if_neg h]

/-! ## Errors -/

/-- What an error tells besides its place. -/
def DecodeError.fault (e : DecodeError) : Shape × Cause := (e.shape, e.cause)

theorem agree_valueOf {α : Type} {l m : Located} {shape : Shape} {value value' : Except Cause α}
    (h : value = value') :
    Agree DecodeError.fault (valueOf l shape value) (valueOf m shape value') := by
  subst h
  cases value <;> rfl

/-! ## Elements that are decoded alike -/

/-- True of two elements with one result up to the places of errors, wherever they stand. -/
def Alike {α : Type} (decode : Located → Except DecodeError α) (a b : Element) : Prop :=
  ∀ chain chain', Agree DecodeError.fault (decode ⟨a, chain⟩) (decode ⟨b, chain'⟩)

/-- What the children of an element with a tag that all count are decoded to. -/
def decodeAll {α : Type} (tag : String) (decode : Located → Except DecodeError α) (l : Located) :
    Except DecodeError (List α) :=
  (l.childrenNamed tag).mapM decode

def decodeClusterAt (l : Located) : Except DecodeError Cluster :=
  decodeCluster l.chain l.element

theorem decodeClusters_eq_decodeAll (l : Located) :
    decodeClusters l.chain 0 l.element.children = decodeAll "cluster" decodeClusterAt l :=
  decodeClusters_eq_mapM l.chain 0 l.element.children

/-- Two elements mean the same as a container: whatever is read from them is. -/
def Same : Container → Element → Element → Prop
  | .device, a, b => Agree DecodeError.fault (decodeDevice a) (decodeDevice b)
  | .peripherals, a, b => Alike (decodeAll "peripheral" decodePeripheral) a b
  | .peripheral, a, b => Alike decodePeripheral a b
  | .registers, a, b =>
      Alike (decodeAll "register" decodeRegister) a b ∧
        Alike (decodeAll "cluster" decodeClusterAt) a b
  | .cluster, a, b => Alike decodeClusterAt a b
  | .register, a, b => Alike decodeRegister a b
  | .fields, a, b => Alike (decodeAll "field" decodeField) a b
  | .field, a, b => Alike decodeField a b
  | .writeConstraint, a, b => constraintIn? a = constraintIn? b
  | .range, a, b =>
      boundOf a .minimum = boundOf b .minimum ∧ boundOf a .maximum = boundOf b .maximum

/-- Two elements answer alike whatever is looked up in them as a container. -/
structure Lookups (k : Container) (a b : Element) : Prop where
  name : a.name = b.name
  derivedFrom : a.attribute? "derivedFrom" = b.attribute? "derivedFrom"
  values : ∀ tag ∈ k.valueTags, SameContent a b tag
  single : ∀ part ∈ k.single, Option.Rel (Same part) (a.child? part.tag) (b.child? part.tag)
  repeated : ∀ part ∈ k.repeated,
    List.Forall₂ (Same part) (tagged a part.tag) (tagged b part.tag)

theorem alike_decodeAll {α : Type} {decode : Located → Except DecodeError α} {tag : String}
    {a b : Element} (h : List.Forall₂ (Alike decode) (tagged a tag) (tagged b tag)) :
    Alike (decodeAll tag decode) a b := by
  intro chain chain'
  refine Agree.mapM (Located.forall₂_childrenNamed (l := ⟨a, chain⟩) (m := ⟨b, chain'⟩) h) ?_
  intro x y hxy
  exact hxy x.chain y.chain

/-! ## Decoders -/

theorem alike_writeConstraintOf {shape : Shape} {a b : Element}
    (h : Option.Rel (Same .writeConstraint) (a.child? "writeConstraint")
      (b.child? "writeConstraint")) :
    Alike (writeConstraintOf · shape) a b := by
  intro chain chain'
  have hchild := Located.rel_child? (l := ⟨a, chain⟩) (m := ⟨b, chain'⟩) h
  show Agree _ (writeConstraintOf _ shape) (writeConstraintOf _ shape)
  unfold writeConstraintOf
  generalize Located.child? ⟨a, chain⟩ _ = x, Located.child? ⟨b, chain'⟩ _ = y at hchild ⊢
  cases hchild with
  | none => exact .rfl
  | some hxy =>
      apply (agree_valueOf hxy).bind
      intro constraint?
      cases constraint? <;> rfl

theorem constraintIn?_congr {a b : Element}
    (hread : truthIn? a "writeAsRead" .writeAsRead = truthIn? b "writeAsRead" .writeAsRead)
    (huse : truthIn? a "useEnumeratedValues" .useEnumeratedValues =
      truthIn? b "useEnumeratedValues" .useEnumeratedValues)
    (hrange : Option.Rel (Same .range) (a.child? "range") (b.child? "range")) :
    constraintIn? a = constraintIn? b := by
  simp only [constraintIn?, hread, huse]
  generalize a.child? "range" = x, b.child? "range" = y at hrange ⊢
  cases hrange with
  | none => rfl
  | some h =>
      rcases h with ⟨hminimum, hmaximum⟩
      cases truthIn? b "writeAsRead" .writeAsRead with
      | some value => rfl
      | none =>
          cases truthIn? b "useEnumeratedValues" .useEnumeratedValues with
          | some value => rfl
          | none => simp only [hminimum, hmaximum]

theorem decodeClusterAt_eq (l : Located) :
    decodeClusterAt l = (do
      let registers ← decodeAll "register" decodeRegister l
      let clusters ← decodeAll "cluster" decodeClusterAt l
      clusterWith l registers clusters) := by
  rcases l with ⟨⟨name, attributes, line, children⟩, chain⟩
  rw [← decodeClusters_eq_decodeAll]
  rfl

namespace Lookups

variable {a b : Element} {k : Container}

theorem contents (h : Lookups k a b) {tags : List String}
    (htags : ∀ tag ∈ tags, tag ∈ k.valueTags) : ∀ tag ∈ tags, SameContent a b tag :=
  fun tag htag => h.values tag (htags tag htag)

theorem integer (h : Lookups k a b) {tag : String} {property : Property}
    (htag : tag ∈ k.valueTags) (hproperty : property.word ∈ k.valueTags) :
    integer a tag property = integer b tag property :=
  (h.values tag htag).integer (h.values property.word hproperty)

theorem truthIn? (h : Lookups k a b) {tag : String} {property : Property}
    (htag : tag ∈ k.valueTags) (hproperty : property.word ∈ k.valueTags) :
    truthIn? a tag property = truthIn? b tag property :=
  (h.values tag htag).truthIn? (h.values property.word hproperty)

theorem field (h : Lookups .field a b) : Alike decodeField a b := by
  intro chain chain'
  apply (agree_valueOf (h.values "name" (by decide)).nameOf).bind
  intro name
  apply (agree_valueOf (SameContent.bitsOf (h.contents (by decide)))).bind
  intro bits
  apply (agree_valueOf (h.values "access" (by decide)).word?).bind
  intro access
  apply (agree_valueOf (SameContent.dimensionOf (h.contents (by decide)))).bind
  intro dimension
  apply (alike_writeConstraintOf (h.single .writeConstraint (by decide)) chain chain').bind
  intro writeConstraint
  rw [(h.values "description" (by decide)).descriptionOf]
  exact .rfl

theorem fields (h : Lookups .fields a b) : Alike (decodeAll "field" decodeField) a b :=
  alike_decodeAll (h.repeated .field (by decide))

theorem register (h : Lookups .register a b) : Alike decodeRegister a b := by
  intro chain chain'
  have hfields := Located.rel_child? (l := ⟨a, chain⟩) (m := ⟨b, chain'⟩)
    (h.single .fields (by decide))
  apply (Agree.mapM? hfields fun x y hxy => hxy x.chain y.chain).bind
  intro fields
  apply (agree_valueOf (h.values "name" (by decide)).nameOf).bind
  intro name
  apply (agree_valueOf (h.integer (by decide) (by decide))).bind
  intro addressOffset
  apply (agree_valueOf (SameContent.dimensionOf (h.contents (by decide)))).bind
  intro dimension
  apply (agree_valueOf (SameContent.propertiesOf (h.contents (by decide)))).bind
  intro properties
  apply (alike_writeConstraintOf (h.single .writeConstraint (by decide)) chain chain').bind
  intro writeConstraint
  rw [(h.values "description" (by decide)).descriptionOf]
  exact .rfl

theorem clusterWith (h : Lookups .cluster a b) (registers : List Register)
    (clusters : List Cluster) : Alike (clusterWith · registers clusters) a b := by
  intro chain chain'
  apply (agree_valueOf (h.values "name" (by decide)).nameOf).bind
  intro name
  apply (agree_valueOf (h.integer (by decide) (by decide))).bind
  intro addressOffset
  apply (agree_valueOf (derivedFromOf_congr h.derivedFrom)).bind
  intro derivedFrom
  apply (agree_valueOf (SameContent.dimensionOf (h.contents (by decide)))).bind
  intro dimension
  apply (agree_valueOf (SameContent.propertiesOf (h.contents (by decide)))).bind
  intro properties
  rw [(h.values "description" (by decide)).descriptionOf]
  exact .rfl

theorem cluster (h : Lookups .cluster a b) : Alike decodeClusterAt a b := by
  intro chain chain'
  rw [decodeClusterAt_eq, decodeClusterAt_eq]
  apply (alike_decodeAll (h.repeated .register (by decide)) chain chain').bind
  intro registers
  apply (alike_decodeAll (h.repeated .cluster (by decide)) chain chain').bind
  intro clusters
  exact h.clusterWith registers clusters chain chain'

theorem registers (h : Lookups .registers a b) :
    Alike (decodeAll "register" decodeRegister) a b ∧
      Alike (decodeAll "cluster" decodeClusterAt) a b :=
  ⟨alike_decodeAll (h.repeated .register (by decide)),
    alike_decodeAll (h.repeated .cluster (by decide))⟩

theorem peripheralWith (h : Lookups .peripheral a b) (registers : Option (List Register))
    (clusters : Option (List Cluster)) : Alike (peripheralWith · registers clusters) a b := by
  intro chain chain'
  apply (agree_valueOf (h.values "name" (by decide)).nameOf).bind
  intro name
  apply (agree_valueOf (h.integer (by decide) (by decide))).bind
  intro baseAddress
  apply (agree_valueOf (derivedFromOf_congr h.derivedFrom)).bind
  intro derivedFrom
  apply (agree_valueOf (SameContent.dimensionOf (h.contents (by decide)))).bind
  intro dimension
  apply (agree_valueOf (SameContent.propertiesOf (h.contents (by decide)))).bind
  intro properties
  rw [(h.values "description" (by decide)).descriptionOf]
  exact .rfl

theorem peripheral (h : Lookups .peripheral a b) : Alike decodePeripheral a b := by
  intro chain chain'
  have hregisters := Located.rel_child? (l := ⟨a, chain⟩) (m := ⟨b, chain'⟩)
    (h.single .registers (by decide))
  simp only [Container.tag] at hregisters
  unfold decodePeripheral
  simp only [decodeClusters_eq_decodeAll]
  generalize Located.child? ⟨a, chain⟩ "registers" = x, Located.child? ⟨b, chain'⟩ "registers" = y
    at hregisters ⊢
  cases hregisters with
  | none => exact h.peripheralWith none none chain chain'
  | @some x y hxy =>
      rcases hxy with ⟨hregister, hcluster⟩
      apply (hregister x.chain y.chain).bind
      intro registers
      apply (hcluster x.chain y.chain).bind
      intro clusters
      exact h.peripheralWith (some registers) (some clusters) chain chain'

theorem peripherals (h : Lookups .peripherals a b) :
    Alike (decodeAll "peripheral" decodePeripheral) a b :=
  alike_decodeAll (h.repeated .peripheral (by decide))

theorem device (h : Lookups .device a b) :
    Agree DecodeError.fault (decodeDevice a) (decodeDevice b) := by
  have hperipherals := Located.rel_child? (l := .root a) (m := .root b)
    (h.single .peripherals (by decide))
  simp only [Container.tag] at hperipherals
  have htag : a.hasTag "device" = b.hasTag "device" := by
    rw [Element.hasTag, h.name, Element.hasTag]
  unfold decodeDevice
  rw [htag]
  by_cases hroot : b.hasTag "device" = true
  · simp only [hroot, if_true]
    apply (agree_valueOf (h.values "name" (by decide)).nameOf).bind
    intro name
    apply (agree_valueOf (SameContent.propertiesOf (h.contents (by decide)))).bind
    intro properties
    rw [(h.values "description" (by decide)).descriptionOf]
    generalize Located.child? (.root a) _ = x, Located.child? (.root b) _ = y at hperipherals ⊢
    cases hperipherals with
    | none => exact .rfl
    | @some x y hxy =>
        apply (hxy x.chain y.chain).bind
        intro peripherals
        exact .rfl
  · simp only [hroot]
    rfl

theorem writeConstraint (h : Lookups .writeConstraint a b) : constraintIn? a = constraintIn? b :=
  constraintIn?_congr (h.truthIn? (by decide) (by decide)) (h.truthIn? (by decide) (by decide))
    (h.single .range (by decide))

theorem range (h : Lookups .range a b) :
    boundOf a .minimum = boundOf b .minimum ∧ boundOf a .maximum = boundOf b .maximum :=
  ⟨(h.values Property.minimum.word (by decide)).boundOf,
    (h.values Property.maximum.word (by decide)).boundOf⟩

/-- Elements that answer alike mean the same. -/
theorem same (h : Lookups k a b) : Same k a b := by
  cases k with
  | device => exact h.device
  | peripherals => exact h.peripherals
  | peripheral => exact h.peripheral
  | registers => exact h.registers
  | cluster => exact h.cluster
  | register => exact h.register
  | fields => exact h.fields
  | field => exact h.field
  | writeConstraint => exact h.writeConstraint
  | range => exact h.range

end Lookups

end RegisterMap.Description
