import RegisterMap.Proofs.Description.ConstraintKind
import RegisterMap.Proofs.Number.Grammar
import RegisterMap.Xml.Character

/-!
# Padded elements

An element with more space around its texts and its attributes.  Names, numbers and
words are read from it as before, since each of them is stripped.  A truth value is
not: a text with space around it is none.
-/

namespace RegisterMap.Description

open RegisterMap.Number RegisterMap.Report RegisterMap.Text RegisterMap.Xml

/-! ## Texts -/

/-- True of a text and one that has further space before and behind it. -/
def Pads (s t : String) : Prop :=
  ∃ front back : List Char, (∀ c ∈ front, isSpace c = true) ∧ (∀ c ∈ back, isSpace c = true) ∧
    t.toList = front ++ (s.toList ++ back)

/-- True of the cause that something is missing, in whose place a child may stand. -/
def Cause.isAbsent : Cause → Bool
  | absent _ => true
  | _ => false

/-- True of results that are the same value, or both none, and both missing or both not. -/
abbrev SameValue {α : Type} (x y : Except Cause α) : Prop :=
  Agree Cause.isAbsent x y

theorem isBlank_of_isSpace {c : Char} (h : isSpace c = true) : isBlank c = true := by
  simp only [isSpace, Bool.or_eq_true, beq_iff_eq] at h
  simp only [isBlank, Bool.or_eq_true, Bool.and_eq_true, decide_eq_true_eq, beq_iff_eq]
  omega

namespace Pads

variable {s t : String}

theorem refl (s : String) : Pads s s :=
  ⟨[], [], List.forall_mem_nil _, List.forall_mem_nil _, by simp⟩

theorem strip_eq (h : Pads s t) : strip s.toList = strip t.toList := by
  rcases h with ⟨front, back, hfront, hback, ht⟩
  rw [ht, strip_padded (fun c hc => isBlank_of_isSpace (hfront c hc))
    fun c hc => isBlank_of_isSpace (hback c hc)]

theorem trim_eq (h : Pads s t) : trim s = trim t := by
  rw [trim, trim, h.strip_eq]

/-- A number is read from what is left of a text without the blanks around it. -/
theorem readScaled_eq_ok_iff (h : Pads s t) {n : Nat} :
    readScaled s = .ok n ↔ readScaled t = .ok n := by
  rw [readScaled_eq_ok_iff_read, readScaled_eq_ok_iff_read, h.strip_eq]

/-- A text without space has none around it. -/
theorem eq_of_forall (h : Pads s t) (ht : ∀ c ∈ t.toList, isSpace c = false) : s = t := by
  rcases h with ⟨front, back, hfront, hback, heq⟩
  rw [heq, List.forall_mem_append, List.forall_mem_append] at ht
  have hnil {cs : List Char} (h : ∀ c ∈ cs, isSpace c = true) (h' : ∀ c ∈ cs, isSpace c = false) :
      cs = [] := by
    rw [List.eq_nil_iff_forall_not_mem]
    intro c hc
    have hne := h' c hc
    rw [h c hc] at hne
    cases hne
  rw [hnil hfront ht.1, hnil hback ht.2.2, List.nil_append, List.append_nil] at heq
  exact (String.toList_injective heq).symm

end Pads

/-- True of texts that are there together, the second one with further space around it. -/
abbrev Pads? : Option String → Option String → Prop :=
  Option.Rel Pads

theorem Pads?.refl (x : Option String) : Pads? x x := by
  cases x with
  | none => exact .none
  | some s => exact .some (.refl s)

theorem Pads?.trim_getD {x y : Option String} (h : Pads? x y) :
    trim (x.getD "") = trim (y.getD "") := by
  cases h with
  | none => rfl
  | some h => exact h.trim_eq

/-- A valid truth value has no space around it. -/
theorem Pads?.eq_of_isTruth {x y : Option String} {value : Bool} (h : Pads? x y)
    (hy : IsTruth y value) : x = y := by
  cases h with
  | none => rfl
  | @some s t h =>
      have hall : t.toList.all (!isSpace ·) = true := by
        cases hy <;> rfl
      rw [h.eq_of_forall (by simpa using hall)]

/-! ## Elements -/

def PadsAttribute (x y : Attribute) : Prop :=
  x.name = y.name ∧ Pads x.value y.value

theorem forall₂_padsAttribute_refl (xs : List Attribute) : List.Forall₂ PadsAttribute xs xs :=
  List.forall₂_same.mpr fun x _ => ⟨rfl, .refl x.value⟩

/-- True of an element and one with further space around its attributes and texts, at any depth. -/
inductive Padded : Element → Element → Prop
  | intro {a b : Element} (name : a.name = b.name)
      (attributes : List.Forall₂ PadsAttribute a.attributes b.attributes)
      (text : Pads? a.text? b.text?) (elements : List.Forall₂ Padded a.elements b.elements) :
      Padded a b

namespace Padded

variable {a b : Element}

theorem name_eq (h : Padded a b) : a.name = b.name := by
  cases h with
  | intro name _ _ _ => exact name

theorem text (h : Padded a b) : Pads? a.text? b.text? := by
  cases h with
  | intro _ _ text _ => exact text

theorem hasTag_eq (h : Padded a b) (tag : String) : a.hasTag tag = b.hasTag tag :=
  hasTag_congr h.name_eq tag

theorem forall₂_tagged (h : Padded a b) (tag : String) :
    List.Forall₂ Padded (tagged a tag) (tagged b tag) := by
  cases h with
  | intro _ _ _ elements =>
      refine List.rel_filter ?_ elements
      intro x y hxy
      exact Bool.eq_iff_iff.mp (hxy.hasTag_eq tag)

theorem child? (h : Padded a b) (tag : String) :
    Option.Rel Padded (a.child? tag) (b.child? tag) :=
  rel_child?_of_tagged (h.forall₂_tagged tag)

theorem attribute? (h : Padded a b) (name : String) :
    Pads? (a.attribute? name) (b.attribute? name) := by
  cases h with
  | intro _ attributes _ _ =>
      unfold Element.attribute?
      generalize a.attributes = xs, b.attributes = ys at attributes
      induction attributes with
      | nil => exact .none
      | @cons x y _ _ hxy _ ih =>
          rcases hxy with ⟨hname, hvalue⟩
          rw [List.find?_cons, List.find?_cons, hname]
          cases y.name == ⟨none, name⟩ with
          | true => exact .some hvalue
          | false => exact ih

end Padded

/-! ### Space around one text -/

namespace Padded

variable {name : Name} {attributes : List Attribute} {line : Nat} {nodes : List Node}

theorem refl (e : Element) : Padded e e := by
  refine .intro rfl (forall₂_padsAttribute_refl _) (Pads?.refl _) ?_
  rw [List.forall₂_same]
  intro child hchild
  have hlt := sizeOf_lt_of_mem_elements hchild
  exact refl child
termination_by sizeOf e

theorem forall₂_refl (xs : List Element) : List.Forall₂ Padded xs xs :=
  List.forall₂_same.mpr fun x _ => .refl x

/-- Space is put around the text of an element. -/
theorem of_text {s t : String} (h : Pads s t) (hnodes : ∀ node ∈ nodes.head?, node.isText = false) :
    Padded (.mk name attributes line (.text s :: nodes))
      (.mk name attributes line (.text t :: nodes)) := by
  have htext (s : String) :
      (Element.mk name attributes line (.text s :: nodes)).text? = some s := by
    have hfront : nodes.takeWhile Node.isText = [] := by
      cases nodes with
      | nil => rfl
      | cons node nodes => exact List.takeWhile_cons_of_neg (by simp [hnodes node rfl])
    simp [Element.text?, Element.children, List.takeWhile_cons, Node.isText, Node.text?, hfront]
  refine .intro rfl (forall₂_padsAttribute_refl _) ?_ (forall₂_refl _)
  rw [htext, htext]
  exact .some h

/-- Space is put around the value of an attribute. -/
theorem of_attribute {front back : List Attribute} {x y : Attribute} (h : PadsAttribute x y) :
    Padded (.mk name (front ++ x :: back) line nodes)
      (.mk name (front ++ y :: back) line nodes) := by
  refine .intro rfl ?_ (Pads?.refl _) (forall₂_refl _)
  exact List.rel_append (forall₂_padsAttribute_refl front)
    (.cons h (forall₂_padsAttribute_refl back))

/-- Space is put around something in a child. -/
theorem of_child {front back : List Node} {x y : Element} (h : Padded x y) :
    Padded (.mk name attributes line (front ++ .element x :: back))
      (.mk name attributes line (front ++ .element y :: back)) := by
  refine .intro rfl (forall₂_padsAttribute_refl _) ?_ ?_
  -- The text of an element ends at its first child.
  · have htext (x : Element) : (front ++ .element x :: back).takeWhile Node.isText =
        front.takeWhile Node.isText := by
      rw [List.takeWhile_append, List.takeWhile_cons_of_neg (by simp [Node.isText]),
        List.append_nil]
      split
      · rename_i hlength
        exact ((List.takeWhile_sublist _).eq_of_length hlength).symm
      · rfl
    simp only [Element.text?, Element.children, htext]
    exact Pads?.refl _
  · simp only [Element.elements, Element.children, List.filterMap_append]
    exact List.rel_append (forall₂_refl _) (.cons h (forall₂_refl _))

end Padded

/-! ## Values -/

namespace Padded

variable {a b : Element} {tag : String} {property : Property}

theorem nameOf_eq (h : Padded a b) : nameOf a = nameOf b := by
  have hchild := h.child? "name"
  unfold nameOf
  generalize a.child? "name" = x, b.child? "name" = y at hchild
  cases hchild with
  | none => rfl
  | some hxy => simp only [hxy.text.trim_getD]

theorem descriptionOf_eq (h : Padded a b) : descriptionOf a = descriptionOf b := by
  have hchild := h.child? "description"
  unfold descriptionOf
  generalize a.child? "description" = x, b.child? "description" = y at hchild
  cases hchild with
  | none => rfl
  | some hxy => simp only [hxy.text.trim_getD]

theorem derivedFromOf (h : Padded a b) : SameValue (derivedFromOf a) (derivedFromOf b) := by
  have hvalue := h.attribute? "derivedFrom"
  unfold Description.derivedFromOf
  generalize a.attribute? "derivedFrom" = x, b.attribute? "derivedFrom" = y at hvalue
  cases hvalue with
  | none => exact .rfl
  | @some s t hst =>
      simp only [readReference, hst.trim_eq]
      split <;> rfl

/-- Results are the same with stand-ins if they are without. -/
theorem orStandIn {α : Type} {ofStandIn : Element → α} {value value' : Except Cause α}
    (h : Padded a b) (hof : ∀ x y, Padded x y → ofStandIn x = ofStandIn y)
    (hvalue : SameValue value value') :
    SameValue (orStandIn a property ofStandIn value) (orStandIn b property ofStandIn value') := by
  have hchild := h.child? property.word
  cases value with
  | ok v =>
      rw [hvalue.ok_iff.mp rfl]
      exact .rfl
  | error cause =>
      cases value' with
      | ok v => cases hvalue
      | error cause' =>
          have hcause : cause.isAbsent = cause'.isAbsent := Except.error.inj hvalue
          unfold Description.orStandIn
          generalize a.child? property.word = x, b.child? property.word = y at hchild
          cases hchild with
          | none => cases cause <;> cases cause' <;> first | rfl | cases hcause
          | some hxy =>
              simp only [hof _ _ hxy]
              cases cause <;> cases cause' <;> first | rfl | cases hcause

theorem standInNumber_eq (x y : Element) (h : Padded x y) :
    standInNumber x = standInNumber y := by
  have hstrip := congrArg String.toList h.text.trim_getD
  rw [toList_trim, toList_trim] at hstrip
  simp only [standInNumber, hstrip]

theorem integerOf (h : Padded a b) : SameValue (integerOf a tag) (integerOf b tag) := by
  apply h.orStandIn standInNumber_eq
  have htext := h.text
  generalize a.text? = s, b.text? = t at htext
  cases htext with
  | none => exact .rfl
  | @some s t hst =>
      dsimp only
      cases hs : readScaled s with
      | ok n =>
          rw [hst.readScaled_eq_ok_iff.mp hs]
          exact .rfl
      | error e =>
          cases ht : readScaled t with
          | ok n =>
              rw [hst.readScaled_eq_ok_iff.mpr ht] at hs
              cases hs
          | error e' => rfl

theorem integer? (h : Padded a b) :
    SameValue (integer? a tag property) (integer? b tag property) := by
  have hchild := h.child? tag
  unfold Description.integer?
  generalize a.child? tag = x, b.child? tag = y at hchild
  cases hchild with
  | none => exact .rfl
  | some hxy => exact (h.orStandIn standInNumber_eq hxy.integerOf).map some

theorem integer (h : Padded a b) :
    SameValue (integer a tag property) (integer b tag property) := by
  apply h.orStandIn standInNumber_eq
  have hchild := h.child? tag
  generalize a.child? tag = x, b.child? tag = y at hchild
  cases hchild with
  | none => exact .rfl
  | some hxy => exact hxy.integerOf

theorem word? {α : Type} {ofWord? : String → Option α} (h : Padded a b) :
    SameValue (word? a tag ofWord?) (word? b tag ofWord?) := by
  have hchild := h.child? tag
  unfold Description.word?
  generalize a.child? tag = x, b.child? tag = y at hchild
  cases hchild with
  | none => exact .rfl
  | some hxy =>
      simp only [hxy.text.trim_getD]
      split <;> rfl

theorem accessOf (h : Padded a b) : SameValue (accessOf a) (accessOf b) :=
  h.word?

theorem propertiesOf (h : Padded a b) : SameValue (propertiesOf a) (propertiesOf b) := by
  apply h.orStandIn fun _ _ _ => rfl
  apply h.integer?.bind
  intro size
  apply h.word?.bind
  intro access
  apply h.word?.bind
  intro protection
  apply h.integer?.bind
  intro value
  apply h.integer?.bind
  intro mask
  exact .rfl

theorem dimensionOf (h : Padded a b) : SameValue (dimensionOf a) (dimensionOf b) := by
  apply h.orStandIn fun _ _ _ => rfl
  apply h.integer?.bind
  intro count
  cases count with
  | none => exact .rfl
  | some count => exact h.integer?.bind fun _ => .rfl

theorem bitEnds? (h : Padded a b) : SameValue (bitEnds? a) (bitEnds? b) := by
  apply h.integer?.bind
  intro lsb
  cases lsb with
  | none => exact .rfl
  | some lsb =>
      apply h.integer?.bind
      intro msb
      cases msb <;> rfl

/-- The brackets of a bit range are looked for in the stripped text. -/
theorem readBitRange_eq {x y : Element} (h : Padded x y) :
    readBitRange (x.text?.getD "") = readBitRange (y.text?.getD "") := by
  have htrim := h.text.trim_getD
  have hstrip := congrArg String.toList htrim
  rw [toList_trim, toList_trim] at hstrip
  simp only [readBitRange, hstrip]

theorem standInBits_eq (x y : Element) (h : Padded x y) : standInBits x = standInBits y := by
  have hbit (tag : String) :
      ((x.child? tag).bind fun child => (Description.integerOf child tag).toOption) =
        (y.child? tag).bind fun child => (Description.integerOf child tag).toOption := by
    have hchild := h.child? tag
    generalize x.child? tag = p, y.child? tag = q at hchild
    cases hchild with
    | none => rfl
    | some hpq => exact hpq.integerOf.toOption_eq
  simp only [standInBits, hbit]

theorem bitsOf (h : Padded a b) : SameValue (bitsOf a) (bitsOf b) := by
  apply h.orStandIn standInBits_eq
  apply h.bitEnds?.bind
  intro ends
  cases ends with
  | some ends => exact .rfl
  | none =>
      apply h.integer?.bind
      intro offset
      cases offset with
      | some lsb => exact h.integer?.bind fun _ => .rfl
      | none =>
          have hchild := h.child? "bitRange"
          dsimp only
          generalize a.child? "bitRange" = x, b.child? "bitRange" = y at hchild
          cases hchild with
          | none => exact .rfl
          | some hxy =>
              simp only [hxy.readBitRange_eq]
              exact .rfl

theorem boundOf {bound : Property} (h : Padded a b) :
    SameValue (boundOf a bound) (boundOf b bound) := by
  apply h.orStandIn fun _ _ _ => rfl
  have hchild := h.child? bound.word
  generalize a.child? bound.word = x, b.child? bound.word = y at hchild
  cases hchild with
  | none => exact .rfl
  | some hxy => exact hxy.integerOf.map some

/-! ## Truth values -/

theorem standInTruth_eq {x y : Element} (h : Padded x y) : standInTruth x = standInTruth y := by
  have htext := h.text
  unfold standInTruth
  generalize x.text? = s, y.text? = t at htext
  cases htext with
  | none => rfl
  | some hst => simp only [Option.map_some, hst.trim_eq]

end Padded

/-- True of two elements whose first children with a tag have the same text, if they are there. -/
def SameText (a b : Element) (tag : String) : Prop :=
  Option.Rel (fun x y => x.text? = y.text?) (a.child? tag) (b.child? tag)

theorem SameText.refl (e : Element) (tag : String) : SameText e e tag := by
  unfold SameText
  cases e.child? tag with
  | none => exact .none
  | some child => exact .some rfl

namespace Padded

variable {a b : Element} {tag : String} {property : Property} {value : Bool}

/-- A truth value that is given with space around it if at all is given without. -/
theorem sameText_of_givesTruth (h : Padded a b) (hb : GivesTruth b tag property value) :
    SameText a b tag := by
  have hchild := h.child? tag
  unfold SameText
  cases hb with
  | text hy hvalue =>
      rw [hy] at hchild ⊢
      generalize a.child? tag = x at hchild
      cases hchild with
      | some hxy => exact .some (hxy.text.eq_of_isTruth hvalue)
  | standIn hnone _ =>
      rw [hnone] at hchild ⊢
      generalize a.child? tag = x at hchild
      cases hchild
      exact .none

/-- What stands in for a truth value counts as the same with space around it. -/
theorem givesTruth_iff (h : Padded a b) (hsame : SameText a b tag) :
    GivesTruth a tag property value ↔ GivesTruth b tag property value := by
  have hstandIn := h.child? property.word
  rw [← truthIn?_eq_some_iff, ← truthIn?_eq_some_iff]
  unfold SameText at hsame
  unfold truthIn?
  generalize a.child? tag = x, b.child? tag = y, a.child? property.word = p,
    b.child? property.word = q at hsame hstandIn
  cases hsame with
  | none =>
      cases hstandIn with
      | none => rfl
      | some hpq => simp only [Option.map_some, hpq.standInTruth_eq]
  | some hxy => simp only [hxy]

end Padded

end RegisterMap.Description
