import RegisterMap.Description.Decode

/-!
# Edits of descriptions

The elements of a description that hold other elements, the tags that are read
from each, and the changes that can be made to such an element without touching
what is read: nodes put in or taken out that are passed over, further children
with a tag that is read once, other attributes, another order of children.
-/

namespace RegisterMap.Description

open RegisterMap.Xml

/-! ## Containers -/

inductive Container where
  | device
  | peripherals
  | peripheral
  | registers
  | cluster
  | register
  | fields
  | field
  | writeConstraint
  | range
  deriving DecidableEq, Repr

namespace Container

def tag : Container → String
  | device => "device"
  | peripherals => "peripherals"
  | peripheral => "peripheral"
  | registers => "registers"
  | cluster => "cluster"
  | register => "register"
  | fields => "fields"
  | field => "field"
  | writeConstraint => "writeConstraint"
  | range => "range"

/-- The tags of children that stand in for values. -/
def standInTags (properties : List Property) : List String := properties.map Property.word

def propertyTags : List String :=
  ["size", "access", "protection", "resetValue", "resetMask"] ++
    standInTags [.size, .resetValue, .resetMask, .registerProperties]

def dimensionTags : List String :=
  ["dim", "dimIncrement"] ++ standInTags [.count, .stride, .dimension]

def bitTags : List String :=
  ["lsb", "msb", "bitOffset", "bitWidth", "bitRange"] ++
    standInTags [.lsb, .msb, .bitOffset, .bitWidth, .bitRange]

def baseAddressTags : List String := "baseAddress" :: standInTags [.baseAddress]

def offsetTags : List String := "addressOffset" :: standInTags [.offset]

/-- The children that are read for what they hold themselves, the first of each tag. -/
def valueTags : Container → List String
  | device => ["name", "description"] ++ propertyTags
  | peripheral => ["name", "description"] ++ baseAddressTags ++ dimensionTags ++ propertyTags
  | cluster | register => ["name", "description"] ++ offsetTags ++ dimensionTags ++ propertyTags
  | field => ["name", "description", "access"] ++ dimensionTags ++ bitTags
  | writeConstraint =>
      ["writeAsRead", "useEnumeratedValues"] ++
        standInTags [.writeAsRead, .useEnumeratedValues]
  | range => ["minimum", "maximum"]
  | peripherals | registers | fields => []

/-- The containers of which the first child counts. -/
def single : Container → List Container
  | device => [peripherals]
  | peripheral => [registers]
  | register => [writeConstraint, fields]
  | field => [writeConstraint]
  | writeConstraint => [range]
  | _ => []

/-- The containers of which every child counts. -/
def repeated : Container → List Container
  | peripherals => [peripheral]
  | registers | cluster => [register, cluster]
  | fields => [field]
  | _ => []

def parts (k : Container) : List Container := k.single ++ k.repeated

def tagsReadOnce (k : Container) : List String := k.valueTags ++ k.single.map tag

def tagsRead (k : Container) : List String := k.tagsReadOnce ++ k.repeated.map tag

theorem tag_injective : Function.Injective tag := by
  intro k k' h
  cases k <;> cases k' <;> first | rfl | exact absurd h (by decide)

/-- No container is also read as a value. -/
theorem tag_not_mem_valueTags {k part : Container} : part.tag ∉ k.valueTags := by
  cases k <;> cases part <;> decide

/-- A container whose children all count is not also read once. -/
theorem tag_not_mem_tagsReadOnce {k part : Container} (h : part ∈ k.repeated) :
    part.tag ∉ k.tagsReadOnce := by
  revert h
  cases k <;> cases part <;> decide

/-- True of the nodes that are passed over among the children of a container. -/
def Ignores (k : Container) : Node → Prop
  | .text _ | .instruction => True
  | .element e => ∀ tag ∈ k.tagsRead, e.hasTag tag = false

instance (k : Container) : DecidablePred k.Ignores
  | .text _ => .isTrue trivial
  | .instruction => .isTrue trivial
  | .element e => inferInstanceAs (Decidable (∀ tag ∈ k.tagsRead, e.hasTag tag = false))

/-- An element in a namespace has none of the tags that are read. -/
theorem ignores_of_uri {k : Container} {e : Element} (h : e.name.uri ≠ none) :
    k.Ignores (.element e) := by
  intro tag _
  rw [Element.hasTag, beq_eq_false_iff_ne]
  intro hname
  rw [hname] at h
  exact h rfl

end Container

/-! ## Children with a name -/

/-- The elements with a name among some nodes, in their order. -/
def elementsNamed (name : Name) (nodes : List Node) : List Element :=
  (nodes.filterMap Node.element?).filter (·.name == name)

theorem elementsNamed_append (name : Name) (nodes others : List Node) :
    elementsNamed name (nodes ++ others) =
      elementsNamed name nodes ++ elementsNamed name others := by
  simp [elementsNamed]

theorem elementsNamed_cons_element (name : Name) (e : Element) (nodes : List Node) :
    elementsNamed name (.element e :: nodes) =
      if e.name == name then e :: elementsNamed name nodes else elementsNamed name nodes := by
  simp only [elementsNamed, List.filterMap_cons, Node.element?, List.filter_cons]

/-- The children of an element with a tag. -/
def tagged (e : Element) (tag : String) : List Element :=
  elementsNamed ⟨none, tag⟩ e.children

theorem child?_eq_head? (e : Element) (tag : String) : e.child? tag = (tagged e tag).head? :=
  List.head?_filter.symm

/-! ## Edits -/

/-- One change to an element or to something in it, at a place that is decoded. -/
inductive Edit : Container → Element → Element → Prop where
  /-- A node that is passed over is put among the children. -/
  | ignoredNode {k : Container} {name : Name} {attributes : List Attribute} {line : Nat}
      {front back : List Node} {node : Node} (h : k.Ignores node) :
      Edit k (.mk name attributes line (front ++ back))
        (.mk name attributes line (front ++ node :: back))
  /-- A child with a tag that is read once is put somewhere after the first such child. -/
  | furtherChild {k : Container} {name : Name} {attributes : List Attribute} {line : Nat}
      {front back : List Node} {e first : Element} {tag : String} (hread : tag ∈ k.tagsReadOnce)
      (he : e.hasTag tag = true) (hfirst : first.hasTag tag = true)
      (hmem : .element first ∈ front) :
      Edit k (.mk name attributes line (front ++ back))
        (.mk name attributes line (front ++ .element e :: back))
  /-- The children change places, those with one name stay in their order. -/
  | otherOrder {k : Container} {name : Name} {attributes : List Attribute} {line : Nat}
      {nodes nodes' : List Node} (hperm : nodes.Perm nodes')
      (horder : ∀ name, elementsNamed name nodes = elementsNamed name nodes') :
      Edit k (.mk name attributes line nodes) (.mk name attributes line nodes')
  /-- An attribute is added. -/
  | otherAttribute {k : Container} {name : Name} {front back : List Attribute} {line : Nat}
      {nodes : List Node} {a : Attribute} (h : a.name ≠ ⟨none, "derivedFrom"⟩) :
      Edit k (.mk name (front ++ back) line nodes) (.mk name (front ++ a :: back) line nodes)
  /-- The element moves to another line. -/
  | otherLine {k : Container} {name : Name} {attributes : List Attribute} {line line' : Nat}
      {nodes : List Node} :
      Edit k (.mk name attributes line nodes) (.mk name attributes line' nodes)
  /-- A child that is read as a value changes in its line or its attributes. -/
  | otherValuePlace {k : Container} {name : Name} {attributes : List Attribute} {line : Nat}
      {front back : List Node} {tag : String} {valueAttributes valueAttributes' : List Attribute}
      {valueLine valueLine' : Nat} {content : List Node} (h : tag ∈ k.valueTags) :
      Edit k
        (.mk name attributes line
          (front ++ .element (.mk ⟨none, tag⟩ valueAttributes valueLine content) :: back))
        (.mk name attributes line
          (front ++ .element (.mk ⟨none, tag⟩ valueAttributes' valueLine' content) :: back))
  /-- A container among the children is changed. -/
  | inside {k part : Container} {name : Name} {attributes : List Attribute} {line : Nat}
      {front back : List Node} {e e' : Element} (hpart : part ∈ k.parts)
      (htag : e.hasTag part.tag = true) (h : Edit part e e') :
      Edit k (.mk name attributes line (front ++ .element e :: back))
        (.mk name attributes line (front ++ .element e' :: back))

namespace Edit

theorem name_eq {k : Container} {e e' : Element} (h : Edit k e e') : e.name = e'.name := by
  cases h <;> rfl

/-- An edit of other attributes leaves the base of an alias as it is. -/
theorem derivedFrom_eq {k : Container} {e e' : Element} (h : Edit k e e') :
    e.attribute? "derivedFrom" = e'.attribute? "derivedFrom" := by
  cases h with
  | otherAttribute hname =>
      have hne : (_ == (⟨none, "derivedFrom"⟩ : Name)) = false := beq_eq_false_iff_ne.mpr hname
      simp only [Element.attribute?, Element.attributes, List.find?_append, List.find?_cons, hne]
  | _ => rfl

end Edit

end RegisterMap.Description
