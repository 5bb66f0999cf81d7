import Mathlib.Logic.Relation
import RegisterMap.Proofs.Description.Lookup
import RegisterMap.Proofs.Description.Words

/-!
# Decoding of edited descriptions

Decoding depends only on what it reads.  An edit leaves the answers to all
lookups in the edited element as they were, so it leaves the decoded device as it
was, or the failure, which may only be reported for another place.
-/

namespace RegisterMap.Description

open RegisterMap.Model RegisterMap.Report RegisterMap.Xml

/-! ## Tags of elements -/

theorem name_eq_of_hasTag {e : Element} {tag : String} (h : e.hasTag tag = true) :
    e.name = ⟨none, tag⟩ :=
  beq_iff_eq.mp h

theorem hasTag_unique {e : Element} {tag tag' : String} (h : e.hasTag tag = true)
    (h' : e.hasTag tag' = true) : tag = tag' := by
  have hname := (name_eq_of_hasTag h).symm.trans (name_eq_of_hasTag h')
  exact congrArg Name.localName hname

theorem hasTag_eq_false {e : Element} {tag tag' : String} (h : e.hasTag tag = true)
    (hne : tag' ≠ tag) : e.hasTag tag' = false := by
  rw [Bool.eq_false_iff]
  intro h'
  exact hne (hasTag_unique h' h)

theorem hasTag_congr {e e' : Element} (h : e.name = e'.name) (tag : String) :
    e.hasTag tag = e'.hasTag tag := by
  rw [Element.hasTag, Element.hasTag, h]

/-! ## Nodes that are put among others -/

theorem elementsNamed_cons_of_ignores {k : Container} {node : Node} (h : k.Ignores node)
    {tag : String} (htag : tag ∈ k.tagsRead) (nodes : List Node) :
    elementsNamed ⟨none, tag⟩ (node :: nodes) = elementsNamed ⟨none, tag⟩ nodes := by
  cases node with
  | text content => rfl
  | instruction => rfl
  | element e =>
      have hother : (e.name == ⟨none, tag⟩) = false := h tag htag
      rw [elementsNamed_cons_element, hother, if_neg Bool.false_ne_true]

/-- Neighbours with different names can change places. -/
theorem elementsNamed_swap {e e' : Element} {nodes : List Node} (h : e.name ≠ e'.name)
    (name : Name) : elementsNamed name (.element e :: .element e' :: nodes) =
      elementsNamed name (.element e' :: .element e :: nodes) := by
  simp only [elementsNamed_cons_element]
  by_cases he : e.name = name
  · have he' : (e'.name == name) = false := beq_eq_false_iff_ne.mpr (he ▸ h.symm)
    rw [he', if_neg Bool.false_ne_true, if_neg Bool.false_ne_true]
  · rw [beq_eq_false_iff_ne.mpr he, if_neg Bool.false_ne_true, if_neg Bool.false_ne_true]

/-- Children of two lists that differ in one element are related one by one. -/
theorem forall₂_elementsNamed {R : Element → Element → Prop} {tag : String} {e e' : Element}
    {front back : List Node} (hname : e.name = e'.name) (he : e.hasTag tag = true → R e e')
    (hrefl : ∀ x ∈ elementsNamed ⟨none, tag⟩ front ++ elementsNamed ⟨none, tag⟩ back, R x x) :
    List.Forall₂ R (elementsNamed ⟨none, tag⟩ (front ++ .element e :: back))
      (elementsNamed ⟨none, tag⟩ (front ++ .element e' :: back)) := by
  rw [List.forall_mem_append] at hrefl
  rcases hrefl with ⟨hfront, hback⟩
  have htag : (e'.name == ⟨none, tag⟩) = e.hasTag tag := (hasTag_congr hname tag).symm
  have htag' : (e.name == ⟨none, tag⟩) = e.hasTag tag := rfl
  rw [elementsNamed_append, elementsNamed_append, elementsNamed_cons_element,
    elementsNamed_cons_element, htag, htag']
  apply List.rel_append (List.forall₂_same.mpr hfront)
  by_cases h : e.hasTag tag = true
  · rw [if_pos h, if_pos h]
    exact .cons (he h) (List.forall₂_same.mpr hback)
  · rw [if_neg h, if_neg h]
    exact List.forall₂_same.mpr hback

/-- A child behind the first one of its tag is not the first of any tag. -/
theorem head?_elementsNamed_insert {e first : Element} {tag : String} {front : List Node}
    (he : e.hasTag tag = true) (hfirst : first.hasTag tag = true) (hmem : .element first ∈ front)
    (back : List Node) (tag' : String) :
    (elementsNamed ⟨none, tag'⟩ (front ++ .element e :: back)).head? =
      (elementsNamed ⟨none, tag'⟩ (front ++ back)).head? := by
  rw [elementsNamed_append, elementsNamed_append, elementsNamed_cons_element]
  by_cases htag : tag' = tag
  · subst htag
    have hin : first ∈ elementsNamed ⟨none, tag'⟩ front :=
      List.mem_filter.mpr ⟨List.mem_filterMap.mpr ⟨_, hmem, rfl⟩, hfirst⟩
    have hne : elementsNamed ⟨none, tag'⟩ front ≠ [] := List.ne_nil_of_mem hin
    rw [List.head?_append_of_ne_nil _ hne, List.head?_append_of_ne_nil _ hne]
  · have hother : (e.name == ⟨none, tag'⟩) = false := hasTag_eq_false he htag
    rw [hother, if_neg Bool.false_ne_true]

/-! ## Same lookups -/

theorem sizeOf_lt_of_mem_elements {e child : Element} (h : child ∈ e.elements) :
    sizeOf child < sizeOf e := by
  rcases List.mem_filterMap.mp h with ⟨node, hnode, hchild⟩
  have hlt := List.sizeOf_lt_of_mem hnode
  rcases e with ⟨name, attributes, line, children⟩
  cases node <;> cases hchild
  simp only [Element.children, Element.mk.sizeOf_spec, Node.element.sizeOf_spec] at hlt ⊢
  omega

theorem sizeOf_lt_of_mem_tagged {e child : Element} {tag : String} (h : child ∈ tagged e tag) :
    sizeOf child < sizeOf e :=
  sizeOf_lt_of_mem_elements (List.mem_filter.mp h).1

theorem rel_head? {R : Element → Element → Prop} {xs ys : List Element}
    (h : List.Forall₂ R xs ys) : Option.Rel R xs.head? ys.head? := by
  cases h with
  | nil => exact .none
  | cons hxy _ => exact .some hxy

theorem rel_child?_of_tagged {R : Element → Element → Prop} {a b : Element} {tag : String}
    (h : List.Forall₂ R (tagged a tag) (tagged b tag)) :
    Option.Rel R (a.child? tag) (b.child? tag) := by
  rw [child?_eq_head?, child?_eq_head?]
  exact rel_head? h

/-- Elements answer alike if all their children with tags that are read correspond. -/
theorem Lookups.of_tagged {k : Container} {a b : Element} (hname : a.name = b.name)
    (hbase : a.attribute? "derivedFrom" = b.attribute? "derivedFrom")
    (hvalues : ∀ tag ∈ k.valueTags,
      List.Forall₂ (fun x y => x.children = y.children) (tagged a tag) (tagged b tag))
    (hparts : ∀ part ∈ k.parts, List.Forall₂ (Same part) (tagged a part.tag) (tagged b part.tag)) :
    Lookups k a b where
  name := hname
  derivedFrom := hbase
  values tag htag := rel_child?_of_tagged (hvalues tag htag)
  single part hpart := rel_child?_of_tagged (hparts part (List.mem_append_left _ hpart))
  repeated part hpart := hparts part (List.mem_append_right _ hpart)

/-- An element means the same as itself: its place does not matter. -/
theorem Same.refl (k : Container) (e : Element) : Same k e e := by
  apply Lookups.same
  apply Lookups.of_tagged rfl rfl
  · intro tag _
    exact List.forall₂_same.mpr fun x _ => rfl
  · intro part _
    rw [List.forall₂_same]
    intro child hchild
    have hlt := sizeOf_lt_of_mem_tagged hchild
    exact Same.refl part child
termination_by sizeOf e

/-- Elements answer alike if they have the same children in all places that are looked at. -/
theorem Lookups.of_children {k : Container} {a b : Element} (hname : a.name = b.name)
    (hbase : a.attribute? "derivedFrom" = b.attribute? "derivedFrom")
    (hfirst : ∀ tag ∈ k.tagsReadOnce, a.child? tag = b.child? tag)
    (hall : ∀ part ∈ k.repeated, tagged a part.tag = tagged b part.tag) : Lookups k a b where
  name := hname
  derivedFrom := hbase
  values tag htag := by
    have hchild := hfirst tag (List.mem_append_left _ htag)
    rw [SameContent, hchild]
    cases b.child? tag with
    | none => exact .none
    | some child => exact .some rfl
  single part hpart := by
    rw [hfirst part.tag (List.mem_append_right _ (List.mem_map_of_mem hpart))]
    cases b.child? part.tag with
    | none => exact .none
    | some child => exact .some (.refl part child)
  repeated part hpart := by
    rw [hall part hpart, List.forall₂_same]
    exact fun child _ => .refl part child

/-- Elements answer alike if all their children with tags that are read are the same. -/
theorem Lookups.of_tagged_eq {k : Container} {a b : Element} (hname : a.name = b.name)
    (hbase : a.attribute? "derivedFrom" = b.attribute? "derivedFrom")
    (h : ∀ tag ∈ k.tagsRead, tagged a tag = tagged b tag) : Lookups k a b := by
  apply Lookups.of_children hname hbase
  · intro tag htag
    rw [child?_eq_head?, child?_eq_head?, h tag (List.mem_append_left _ htag)]
  · intro part hpart
    exact h part.tag (List.mem_append_right _ (List.mem_map_of_mem hpart))

/-- Elements answer alike if they differ in one child that is read alike. -/
theorem Lookups.of_child {k : Container} {name : Name} {attributes : List Attribute} {line : Nat}
    {front back : List Node} {e e' : Element} (hname : e.name = e'.name)
    (hvalue : ∀ tag ∈ k.valueTags, e.hasTag tag = true → e.children = e'.children)
    (hpart : ∀ part ∈ k.parts, e.hasTag part.tag = true → Same part e e') :
    Lookups k (.mk name attributes line (front ++ .element e :: back))
      (.mk name attributes line (front ++ .element e' :: back)) := by
  refine Lookups.of_tagged rfl rfl ?_ ?_
  · intro tag htag
    exact forall₂_elementsNamed hname (hvalue tag htag) fun x _ => rfl
  · intro part hmem
    exact forall₂_elementsNamed hname (hpart part hmem) fun x _ => .refl part x

/-! ## Edits -/

/-- What is edited means what it meant before. -/
theorem Edit.same {k : Container} {a b : Element} (h : Edit k a b) : Same k a b := by
  have hname := h.name_eq
  have hbase := h.derivedFrom_eq
  induction h with
  | ignoredNode h =>
      apply (Lookups.of_tagged_eq hname hbase _).same
      intro tag htag
      simp only [tagged, Element.children, elementsNamed_append,
        elementsNamed_cons_of_ignores h htag]
  | @furtherChild k _ _ _ front back e first tag hread he hfirst hmem =>
      apply (Lookups.of_children hname hbase _ _).same
      · intro tag' _
        simp only [child?_eq_head?, tagged, Element.children]
        exact (head?_elementsNamed_insert he hfirst hmem back tag').symm
      · intro part hpart
        have hne : part.tag ≠ tag := by
          rintro rfl
          exact Container.tag_not_mem_tagsReadOnce hpart hread
        have hother : (e.name == ⟨none, part.tag⟩) = false := hasTag_eq_false he hne
        simp only [tagged, Element.children, elementsNamed_append, elementsNamed_cons_element,
          hother, if_neg Bool.false_ne_true]
  | otherOrder _ horder =>
      apply (Lookups.of_tagged_eq hname hbase _).same
      intro tag _
      exact horder ⟨none, tag⟩
  | otherAttribute _ =>
      apply (Lookups.of_tagged_eq hname hbase _).same
      intro tag _
      rfl
  | otherLine =>
      apply (Lookups.of_tagged_eq hname hbase _).same
      intro tag _
      rfl
  | otherValuePlace hvalue =>
      apply (Lookups.of_child _ _ _).same
      · rfl
      · intro tag _ _
        rfl
      · intro part _ hpart
        -- The child has the tag of a value, which is none of a container.
        cases name_eq_of_hasTag hpart
        exact absurd hvalue Container.tag_not_mem_valueTags
  | @inside k part _ _ _ front back e e' hpart htag hedit ih =>
      apply (Lookups.of_child hedit.name_eq _ _).same
      · intro tag hvalue htag'
        rw [hasTag_unique htag' htag] at hvalue
        exact absurd hvalue Container.tag_not_mem_valueTags
      · intro part' _ htag'
        rw [Container.tag_injective (hasTag_unique htag' htag)]
        exact ih hedit.name_eq hedit.derivedFrom_eq

theorem name_eq_of_edits {k : Container} {a b : Element} (h : Relation.EqvGen (Edit k) a b) :
    a.name = b.name := by
  induction h with
  | rel a b h => exact h.name_eq
  | refl a => rfl
  | symm a b _ ih => exact ih.symm
  | trans a b c _ _ ih ih' => exact ih.trans ih'

/-- Edits of a container are edits of the element around it, and so on up to the device. -/
theorem edits_inside {k part : Container} {name : Name} {attributes : List Attribute} {line : Nat}
    {front back : List Node} {a b : Element} (hpart : part ∈ k.parts)
    (htag : a.hasTag part.tag = true) (h : Relation.EqvGen (Edit part) a b) :
    Relation.EqvGen (Edit k) (.mk name attributes line (front ++ .element a :: back))
      (.mk name attributes line (front ++ .element b :: back)) := by
  induction h with
  | rel a b h => exact .rel _ _ (.inside hpart htag h)
  | refl a => exact .refl _
  | symm a b h ih =>
      rw [← hasTag_congr (name_eq_of_edits h)] at htag
      exact .symm _ _ (ih htag)
  | trans a b c h _ ih ih' =>
      have htag' := htag
      rw [hasTag_congr (name_eq_of_edits h)] at htag'
      exact .trans _ _ _ (ih htag) (ih' htag')

/-! ## Devices -/

/-- Documents that differ in edits are decoded to the same device, or fail with the same fault. -/
theorem decodeDevice_ignores_edits {a b : Element} (h : Relation.EqvGen (Edit .device) a b) :
    (decodeDevice a).mapError DecodeError.fault = (decodeDevice b).mapError DecodeError.fault := by
  induction h with
  | rel a b h => exact h.same
  | refl a => rfl
  | symm a b _ ih => exact ih.symm
  | trans a b c _ _ ih ih' => exact ih.trans ih'

/-! ### A timer with notes -/

def timerName : Node := textNode "name" "TIMER"

def timerAddress : Node := textNode "baseAddress" "0x1000"

def timerHeader : Node := textNode "headerStructName" "Timer"

def noteNode : Node :=
  .element (.mk ⟨some "urn:notes", "name"⟩ [] 1 [.text "not a name"])

def timerElement (attributes : List Attribute) (nodes : List Node) : Element :=
  .mk ⟨none, "peripheral"⟩ attributes 1 nodes

def timerDocument : Element :=
  deviceDocument "Chip" [.element (timerElement [] [timerName, timerAddress])]

/-- A timer with an attribute, a note and further children, in another order. -/
def annotatedTimer : Element :=
  timerElement [⟨⟨none, "version"⟩, "1.0"⟩]
    [noteNode, timerAddress, timerName, timerHeader, textNode "name" "COUNTER"]

def annotatedDocument : Element :=
  .mk ⟨none, "device"⟩ [] 1
    [.instruction, textNode "name" "Chip", groupNode "peripherals" [.element annotatedTimer]]

def timerDevice : Device where
  name := "Chip"
  peripherals := [{ name := "TIMER", baseAddress := 0x1000 }]

theorem edits_annotatedTimer :
    Relation.EqvGen (Edit .peripheral) (timerElement [] [timerName, timerAddress])
      annotatedTimer := by
  have horder : Edit .peripheral (timerElement [] [timerName, timerAddress])
      (timerElement [] [timerAddress, timerName]) := by
    apply Edit.otherOrder (.swap _ _ _)
    exact elementsNamed_swap (by decide)
  have hnote : Edit .peripheral (timerElement [] [timerAddress, timerName])
      (timerElement [] [noteNode, timerAddress, timerName]) :=
    @Edit.ignoredNode _ _ _ _ [] _ _ (Container.ignores_of_uri (by decide))
  have hheader : Edit .peripheral (timerElement [] [noteNode, timerAddress, timerName])
      (timerElement [] [noteNode, timerAddress, timerName, timerHeader]) :=
    @Edit.ignoredNode _ _ _ _ [_, _, _] [] _ (by decide)
  have hname : Edit .peripheral (timerElement [] [noteNode, timerAddress, timerName, timerHeader])
      (timerElement [] [noteNode, timerAddress, timerName, timerHeader,
        textNode "name" "COUNTER"]) :=
    @Edit.furtherChild _ _ _ _ [_, _, _, _] [] _ _ "name" (by decide) rfl rfl
      (.tail _ (.tail _ (.head _)))
  have hattribute : Edit .peripheral
      (timerElement [] [noteNode, timerAddress, timerName, timerHeader,
        textNode "name" "COUNTER"]) annotatedTimer :=
    @Edit.otherAttribute _ _ [] [] _ _ _ (by decide)
  exact .trans _ _ _ (.rel _ _ horder) (.trans _ _ _ (.rel _ _ hnote)
    (.trans _ _ _ (.rel _ _ hheader) (.trans _ _ _ (.rel _ _ hname) (.rel _ _ hattribute))))

theorem edits_annotatedDocument :
    Relation.EqvGen (Edit .device) timerDocument annotatedDocument := by
  have hperipherals : Relation.EqvGen (Edit .peripherals)
      (.mk ⟨none, "peripherals"⟩ [] 1 [.element (timerElement [] [timerName, timerAddress])])
      (.mk ⟨none, "peripherals"⟩ [] 1 [.element annotatedTimer]) :=
    @edits_inside _ .peripheral _ _ _ [] [] _ _ (by decide) rfl edits_annotatedTimer
  have hdevice : Relation.EqvGen (Edit .device) timerDocument
      (deviceDocument "Chip" [.element annotatedTimer]) :=
    @edits_inside _ .peripherals _ _ _ [_] [] _ _ (by decide) rfl hperipherals
  have hinstruction : Edit .device (deviceDocument "Chip" [.element annotatedTimer])
      annotatedDocument :=
    @Edit.ignoredNode _ _ _ _ [] _ _ trivial
  exact .trans _ _ _ hdevice (.rel _ _ hinstruction)

theorem decodeDevice_ignores_edits_timer :
    Relation.EqvGen (Edit .device) timerDocument annotatedDocument ∧
      decodeDevice timerDocument = .ok timerDevice ∧
      decodeDevice annotatedDocument = .ok timerDevice := by
  have hplain : decodeDevice timerDocument = .ok timerDevice := rfl
  have hagree := decodeDevice_ignores_edits edits_annotatedDocument
  exact ⟨edits_annotatedDocument, hplain, (Agree.ok_iff hagree).mp hplain⟩

end RegisterMap.Description
