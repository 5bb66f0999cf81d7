import RegisterMap.Proofs.Description.FirstFault
import RegisterMap.Proofs.Description.StandIn
import RegisterMap.Proofs.Description.Value

/-!
# Kinds of write constraints

A write constraint is read as the first of three kinds that can be used in it, a
truth value, another one or a range.  A kind that comes earlier and cannot be used
is passed over.  A bound that is missing or malformed is a fault of the element
around the constraint, and a constraint of no kind is one of its own.  A truth value
that is missing is given by a child that is named like the value.
-/

namespace RegisterMap.Description

open RegisterMap.Model RegisterMap.Number RegisterMap.Report.Outcome RegisterMap.Xml

/-! ## Truth values and bounds -/

/-- True of a text and the truth value that it is a valid form of.  No text is one of false. -/
inductive IsTruth : Option String → Bool → Prop
  | absent : IsTruth none false
  | trueWord : IsTruth (some "true") true
  | one : IsTruth (some "1") true
  | falseWord : IsTruth (some "false") false
  | zero : IsTruth (some "0") false

/--
What an element gives for a truth value: the valid one in its first child with a tag, or
what another child counts as if there is none.
-/
inductive GivesTruth (e : Element) (tag : String) (property : Property) : Bool → Prop
  | text {child : Element} {value : Bool} (hchild : e.child? tag = some child)
      (h : IsTruth child.text? value) : GivesTruth e tag property value
  | standIn {child : Element} (hnone : e.child? tag = none)
      (hchild : e.child? property.word = some child) :
      GivesTruth e tag property (standInTruth child)

/-- What a range gives for a bound, which is absent if its first child has nothing in it. -/
inductive GivesBound (range : Element) (bound : Property) : Option Int → Prop
  | integer {child : Element} {n : Int} (hchild : range.child? bound.word = some child)
      (h : GivesInteger child n) : GivesBound range bound (some n)
  | empty {child : Element} (hchild : range.child? bound.word = some child)
      (h : GivesNothing child) : GivesBound range bound none

inductive BoundFault (range : Element) (bound : Property) : Cause → Prop
  | missing (h : range.child? bound.word = none) : BoundFault range bound (.absent bound)
  | malformed {child : Element} {text : String} {e : NumeralError}
      (hchild : range.child? bound.word = some child) (htext : child.text? = some text)
      (hread : readScaled text = .error e) :
      BoundFault range bound (.malformedElement (some text) bound.word)

/-- What is wrong with a range.  The minimum is looked at first. -/
inductive RangeFault (range : Element) : Cause → Prop
  | minimum {cause : Cause} (h : BoundFault range .minimum cause) : RangeFault range cause
  | maximum {minimum : Option Int} {cause : Cause} (hmin : GivesBound range .minimum minimum)
      (h : BoundFault range .maximum cause) : RangeFault range cause

theorem truth?_eq_some_iff {text : Option String} {value : Bool} :
    truth? text = some value ↔ IsTruth text value := by
  unfold truth?
  constructor
  · intro h
    split at h <;> cases h
    · exact .absent
    · exact .trueWord
    · exact .one
    · exact .falseWord
    · exact .zero
  · intro h
    cases h <;> rfl

section

variable {e : Element} {tag : String} {property : Property} {value : Bool}

theorem truthIn?_eq_some_iff :
    truthIn? e tag property = some value ↔ GivesTruth e tag property value := by
  unfold truthIn?
  cases hchild : e.child? tag with
  | none =>
      rw [Option.map_eq_some_iff]
      constructor
      · rintro ⟨child, hstandIn, rfl⟩
        exact .standIn hchild hstandIn
      · rintro (⟨hsome, -⟩ | ⟨-, hstandIn⟩)
        · rw [hchild] at hsome
          cases hsome
        · exact ⟨_, hstandIn, rfl⟩
  | some child =>
      dsimp only
      rw [truth?_eq_some_iff]
      constructor
      · exact .text hchild
      · rintro (⟨hsome, h⟩ | ⟨hnone, -⟩)
        · rw [hchild, Option.some.injEq] at hsome
          rwa [hsome]
        · rw [hchild] at hnone
          cases hnone

theorem GivesTruth.congr {other : Element} (h : GivesTruth e tag property value)
    (hchild : e.child? tag = other.child? tag)
    (hstandIn : e.child? property.word = other.child? property.word) :
    GivesTruth other tag property value := by
  cases h with
  | text hsome h => exact .text (hchild ▸ hsome) h
  | standIn hnone hsome => exact .standIn (hchild ▸ hnone) (hstandIn ▸ hsome)

end

section

variable {range : Element} {bound : Property}

theorem boundOf_eq_ok_iff {n? : Option Int} :
    boundOf range bound = .ok n? ↔ GivesBound range bound n? := by
  rw [boundOf, orStandIn_eq_ok_iff]
  cases hchild : range.child? bound.word with
  | none =>
      refine iff_of_false ?_ ?_
      · simp
      · rintro (⟨hsome, -⟩ | ⟨hsome, -⟩) <;> rw [hchild] at hsome <;> cases hsome
  | some child =>
      simp only [map_eq_ok_iff, map_eq_error_iff, integerOf_eq_ok_iff, integerOf_eq_absent_iff]
      constructor
      · rintro (⟨n, hn, rfl⟩ | ⟨hnothing, -, -, rfl⟩)
        · exact .integer hchild hn
        · exact .empty hchild hnothing
      · rintro (⟨hsome, hn⟩ | ⟨hsome, hnothing⟩)
        · rw [hchild, Option.some.injEq] at hsome
          exact .inl ⟨_, hsome ▸ hn, rfl⟩
        · rw [hchild, Option.some.injEq] at hsome
          exact .inr ⟨hsome ▸ hnothing, child, rfl, rfl⟩

theorem boundOf_eq_error_iff {cause : Cause} :
    boundOf range bound = .error cause ↔ BoundFault range bound cause := by
  rw [boundOf, orStandIn_eq_error_iff]
  cases hchild : range.child? bound.word with
  | none =>
      constructor
      · rintro (⟨-, -, rfl⟩ | ⟨hcause, hother⟩)
        · exact .missing hchild
        · cases hcause
          exact absurd rfl (hother bound)
      · rintro (⟨-⟩ | ⟨hsome, -, -⟩)
        · exact .inl ⟨⟨bound, rfl⟩, rfl, rfl⟩
        · rw [hchild] at hsome
          cases hsome
  | some child =>
      simp only [map_eq_error_iff, reduceCtorEq, false_and, and_false, false_or]
      constructor
      · rintro ⟨hread, hother⟩
        rcases integerOf_eq_error_iff.mp hread with ⟨-, rfl⟩ | ⟨text, e, htext, herror, rfl⟩
        · exact absurd rfl (hother _)
        · exact .malformed hchild htext herror
      · rintro (⟨hnone⟩ | ⟨hsome, htext, hread⟩)
        · rw [hchild] at hnone
          cases hnone
        · rw [hchild, Option.some.injEq] at hsome
          refine ⟨integerOf_eq_error_iff.mpr (.inr ⟨_, _, hsome ▸ htext, hread, rfl⟩), ?_⟩
          rintro missing ⟨⟩

end

/-! ## Kinds -/

inductive ConstraintKind where
  /-- What is written must be what was read. -/
  | writeAsRead
  /-- What is written must be one of the enumerated values. -/
  | useEnumeratedValues
  /-- What is written must be in a range. -/
  | range
  deriving DecidableEq, Repr

namespace ConstraintKind

def tag : ConstraintKind → String
  | writeAsRead => "writeAsRead"
  | useEnumeratedValues => "useEnumeratedValues"
  | range => "range"

/-- The children that a kind is read from. -/
def tags : ConstraintKind → List String
  | writeAsRead => writeAsRead.tag :: Container.standInTags [.writeAsRead]
  | useEnumeratedValues => useEnumeratedValues.tag :: Container.standInTags [.useEnumeratedValues]
  | range => [range.tag]

/-- The place of a kind among those that are tried one after the other. -/
def rank : ConstraintKind → Nat
  | writeAsRead => 0
  | useEnumeratedValues => 1
  | range => 2

/-- True of a kind that can be used.  A range can be, even one that cannot be read. -/
def Usable (e : Element) : ConstraintKind → Prop
  | writeAsRead => ∃ value, GivesTruth e "writeAsRead" .writeAsRead value
  | useEnumeratedValues =>
      ∃ value, GivesTruth e "useEnumeratedValues" .useEnumeratedValues value
  | range => (e.child? "range").isSome

/-- True of the kind that a constraint is of: the first that can be used. -/
def Chosen (e : Element) (kind : ConstraintKind) : Prop :=
  kind.Usable e ∧ ∀ other : ConstraintKind, other.rank < kind.rank → ¬other.Usable e

end ConstraintKind

/-- True of an element and the constraint of the kind that it is of. -/
inductive GivesConstraint (e : Element) : WriteConstraint → Prop
  | writeAsRead {value : Bool} (hkind : ConstraintKind.writeAsRead.Chosen e)
      (h : GivesTruth e "writeAsRead" .writeAsRead value) : GivesConstraint e (.writeAsRead value)
  | useEnumeratedValues {value : Bool} (hkind : ConstraintKind.useEnumeratedValues.Chosen e)
      (h : GivesTruth e "useEnumeratedValues" .useEnumeratedValues value) :
      GivesConstraint e (.useEnumeratedValues value)
  | range {range : Element} {minimum maximum : Option Int}
      (hkind : ConstraintKind.range.Chosen e) (hrange : e.child? "range" = some range)
      (hmin : GivesBound range .minimum minimum) (hmax : GivesBound range .maximum maximum) :
      GivesConstraint e (.range minimum maximum)

/-- True of an element that is of the last kind but has a fault in its range. -/
def ConstraintFault (e : Element) (cause : Cause) : Prop :=
  ConstraintKind.range.Chosen e ∧ ∃ range, e.child? "range" = some range ∧ RangeFault range cause

/-- What the write constraint of an element of a shape is decoded to, or how decoding it fails. -/
inductive ConstraintOutcome (l child : Located) (shape : Shape) :
    Except DecodeError (Option WriteConstraint) → Prop
  | given {constraint : WriteConstraint} (h : GivesConstraint child.element constraint) :
      ConstraintOutcome l child shape (.ok (some constraint))
  /-- The fault of a bound is one of the element around the constraint. -/
  | fault {cause : Cause} (h : ConstraintFault child.element cause) :
      ConstraintOutcome l child shape (.error ⟨l.location, shape, cause⟩)
  | unusable (h : ∀ kind : ConstraintKind, ¬kind.Usable child.element) :
      ConstraintOutcome l child shape (.error ⟨child.location, .writeConstraint, .noConstraint⟩)

/-! ## Constraints -/

section

variable {e : Element}

theorem truthIn?_eq_none_iff {tag : String} {property : Property} :
    truthIn? e tag property = none ↔ ¬∃ value, GivesTruth e tag property value := by
  simp only [← truthIn?_eq_some_iff, Option.eq_none_iff_forall_ne_some, not_exists]

theorem unusable_iff : Unusable e ↔ ∀ kind : ConstraintKind, ¬kind.Usable e := by
  constructor
  · rintro ⟨hread, huse, hrange⟩ (_ | _ | _)
    · exact truthIn?_eq_none_iff.mp hread
    · exact truthIn?_eq_none_iff.mp huse
    · exact Option.not_isSome_iff_eq_none.mpr hrange
  · intro h
    exact ⟨truthIn?_eq_none_iff.mpr (h .writeAsRead),
      truthIn?_eq_none_iff.mpr (h .useEnumeratedValues),
      Option.not_isSome_iff_eq_none.mp (h .range)⟩

theorem constraintIn?_of_writeAsRead {value : Bool}
    (h : GivesTruth e "writeAsRead" .writeAsRead value) :
    constraintIn? e = .ok (some (.writeAsRead value)) := by
  rw [constraintIn?, truthIn?_eq_some_iff.mpr h]
  rfl

theorem constraintIn?_of_useEnumeratedValues {value : Bool}
    (hkind : ConstraintKind.useEnumeratedValues.Chosen e)
    (h : GivesTruth e "useEnumeratedValues" .useEnumeratedValues value) :
    constraintIn? e = .ok (some (.useEnumeratedValues value)) := by
  have hread : truthIn? e "writeAsRead" .writeAsRead = none :=
    truthIn?_eq_none_iff.mpr (hkind.2 .writeAsRead (by decide))
  rw [constraintIn?, hread, truthIn?_eq_some_iff.mpr h]
  rfl

/-- In a range the minimum is read before the maximum. -/
theorem constraintIn?_of_range {range : Element} (hkind : ConstraintKind.range.Chosen e)
    (hrange : e.child? "range" = some range) :
    constraintIn? e = (do
      let minimum ← boundOf range .minimum
      let maximum ← boundOf range .maximum
      return some (.range minimum maximum)) := by
  have hread : truthIn? e "writeAsRead" .writeAsRead = none :=
    truthIn?_eq_none_iff.mpr (hkind.2 .writeAsRead (by decide))
  have huse : truthIn? e "useEnumeratedValues" .useEnumeratedValues = none :=
    truthIn?_eq_none_iff.mpr (hkind.2 .useEnumeratedValues (by decide))
  rw [constraintIn?, hread, huse, hrange]

theorem GivesConstraint.reads {constraint : WriteConstraint} (h : GivesConstraint e constraint) :
    ReadsConstraint e constraint := by
  unfold ReadsConstraint
  cases h with
  | writeAsRead _ h => exact constraintIn?_of_writeAsRead h
  | useEnumeratedValues hkind h => exact constraintIn?_of_useEnumeratedValues hkind h
  | range hkind hrange hmin hmax =>
      rw [constraintIn?_of_range hkind hrange, boundOf_eq_ok_iff.mpr hmin,
        boundOf_eq_ok_iff.mpr hmax]
      rfl

theorem ConstraintFault.constraintIn?_eq {cause : Cause} (h : ConstraintFault e cause) :
    constraintIn? e = .error cause := by
  rcases h with ⟨hkind, range, hrange, hfault⟩
  rw [constraintIn?_of_range hkind hrange]
  cases hfault with
  | minimum h =>
      rw [boundOf_eq_error_iff.mpr h]
      rfl
  | maximum hmin h =>
      rw [boundOf_eq_ok_iff.mpr hmin, boundOf_eq_error_iff.mpr h]
      rfl

/-- A range has both bounds, or there is something wrong with it. -/
theorem gives_or_fault_of_range (hkind : ConstraintKind.range.Chosen e) :
    (∃ constraint, GivesConstraint e constraint) ∨ ∃ cause, ConstraintFault e cause := by
  rcases Option.isSome_iff_exists.mp hkind.1 with ⟨range, hrange⟩
  cases hmin : boundOf range .minimum with
  | error cause =>
      have hfault := RangeFault.minimum (boundOf_eq_error_iff.mp hmin)
      exact .inr ⟨cause, hkind, range, hrange, hfault⟩
  | ok minimum =>
      have hlow := boundOf_eq_ok_iff.mp hmin
      cases hmax : boundOf range .maximum with
      | error cause =>
          have hfault := RangeFault.maximum hlow (boundOf_eq_error_iff.mp hmax)
          exact .inr ⟨cause, hkind, range, hrange, hfault⟩
      | ok maximum => exact .inl ⟨_, .range hkind hrange hlow (boundOf_eq_ok_iff.mp hmax)⟩

/-- Every element is of one of the kinds, or of none. -/
theorem ConstraintKind.chosen_or_unusable (e : Element) :
    (∃ kind : ConstraintKind, kind.Chosen e) ∨ ∀ kind : ConstraintKind, ¬kind.Usable e := by
  by_cases hread : ConstraintKind.writeAsRead.Usable e
  · exact .inl ⟨.writeAsRead, hread, fun other hother => absurd hother (Nat.not_lt_zero _)⟩
  by_cases huse : ConstraintKind.useEnumeratedValues.Usable e
  · refine .inl ⟨.useEnumeratedValues, huse, ?_⟩
    rintro (_ | _ | _) hother
    · exact hread
    · exact absurd hother (by decide)
    · exact absurd hother (by decide)
  by_cases hrange : ConstraintKind.range.Usable e
  · refine .inl ⟨.range, hrange, ?_⟩
    rintro (_ | _ | _) hother
    · exact hread
    · exact huse
    · exact absurd hother (by decide)
  · refine .inr ?_
    rintro (_ | _ | _)
    · exact hread
    · exact huse
    · exact hrange

theorem gives_or_fault_or_unusable (e : Element) :
    (∃ constraint, GivesConstraint e constraint) ∨ (∃ cause, ConstraintFault e cause) ∨
      ∀ kind : ConstraintKind, ¬kind.Usable e := by
  rcases ConstraintKind.chosen_or_unusable e with ⟨kind, hkind⟩ | hunusable
  · cases kind with
    | writeAsRead =>
        rcases hkind.1 with ⟨value, h⟩
        exact .inl ⟨_, .writeAsRead hkind h⟩
    | useEnumeratedValues =>
        rcases hkind.1 with ⟨value, h⟩
        exact .inl ⟨_, .useEnumeratedValues hkind h⟩
    | range =>
        rcases gives_or_fault_of_range hkind with hgives | hfault
        · exact .inl hgives
        · exact .inr (.inl hfault)
  · exact .inr (.inr hunusable)

theorem readsConstraint_iff {constraint : WriteConstraint} :
    ReadsConstraint e constraint ↔ GivesConstraint e constraint := by
  constructor
  · intro h
    unfold ReadsConstraint at h
    rcases gives_or_fault_or_unusable e with ⟨_, hgives⟩ | ⟨_, hfault⟩ | hunusable
    · have hreads := h.symm.trans hgives.reads
      cases hreads
      exact hgives
    · cases h.symm.trans hfault.constraintIn?_eq
    · cases h.symm.trans (constraintIn?_eq_ok_none_iff.mpr (unusable_iff.mpr hunusable))
  · exact GivesConstraint.reads

/-- Only the children that a constraint is read from have a part in what it is read as. -/
theorem constraintIn?_congr_of_chosen {other : Element} {kind : ConstraintKind}
    (he : kind.Chosen e) (hother : kind.Chosen other)
    (hchild : ∀ tag ∈ kind.tags, e.child? tag = other.child? tag) :
    constraintIn? e = constraintIn? other := by
  cases kind with
  | writeAsRead =>
      rcases he.1 with ⟨value, h⟩
      have h' := h.congr (hchild "writeAsRead" (by decide))
        (hchild Property.writeAsRead.word (by decide))
      rw [constraintIn?_of_writeAsRead h, constraintIn?_of_writeAsRead h']
  | useEnumeratedValues =>
      rcases he.1 with ⟨value, h⟩
      have h' := h.congr (hchild "useEnumeratedValues" (by decide))
        (hchild Property.useEnumeratedValues.word (by decide))
      rw [constraintIn?_of_useEnumeratedValues he h,
        constraintIn?_of_useEnumeratedValues hother h']
  | range =>
      rcases Option.isSome_iff_exists.mp he.1 with ⟨range, hrange⟩
      rw [constraintIn?_of_range he hrange, constraintIn?_of_range hother
        ((hchild "range" (by decide)).symm.trans hrange)]

end

namespace ConstraintOutcome

variable {l child : Located} {shape : Shape} {r : Except DecodeError (Option WriteConstraint)}

theorem exists_outcome (l child : Located) (shape : Shape) :
    ∃ r, ConstraintOutcome l child shape r := by
  rcases gives_or_fault_or_unusable child.element with ⟨_, h⟩ | ⟨_, h⟩ | h
  · exact ⟨_, .given h⟩
  · exact ⟨_, .fault h⟩
  · exact ⟨_, .unusable h⟩

theorem eq_writeConstraintOf (hchild : l.child? "writeConstraint" = some child)
    (h : ConstraintOutcome l child shape r) : writeConstraintOf l shape = r := by
  cases h with
  | given h =>
      rw [writeConstraintOf_eq_ok_iff, ← Located.map_element_child?, hchild]
      exact .some h.reads
  | fault h =>
      exact Visit.writeConstraintOf_eq_error_iff.mpr
        ⟨child, hchild, .inl ⟨_, h.constraintIn?_eq, rfl⟩⟩
  | unusable h =>
      have hread := constraintIn?_eq_ok_none_iff.mpr (unusable_iff.mpr h)
      exact Visit.writeConstraintOf_eq_error_iff.mpr ⟨child, hchild, .inr ⟨hread, rfl⟩⟩

end ConstraintOutcome

/-! ## Elements around a constraint -/

/-- The kinds of elements that a write constraint can be of. -/
inductive ConstraintHolder where
  | register
  | field
  deriving DecidableEq, Repr

namespace ConstraintHolder

def shape : ConstraintHolder → Shape
  | register => .register
  | field => .field

/-- The elements inside one that are decoded before it. -/
def inner (l : Located) : ConstraintHolder → List Visit
  | register => (l.childrenWithin "fields" "field").map (Visit.mk .field)
  | field => []

/-- The write constraint of what an element is decoded to. -/
def constraintOf (l : Located) : ConstraintHolder → Except DecodeError (Option WriteConstraint)
  | register => (·.writeConstraint) <$> decodeRegister l
  | field => (·.writeConstraint) <$> decodeField l

/-- True of an element in which everything besides its write constraint can be read. -/
structure Readable (holder : ConstraintHolder) (l : Located) : Prop where
  inner : ∀ v ∈ holder.inner l, v.Sound
  values : ∀ value ∈ holder.shape.ownValues, value ≠ .writeConstraint →
    ¬value.Malformed l.element

theorem error?_constraintOf (holder : ConstraintHolder) (l : Located) :
    error? (holder.constraintOf l) =
      (holder.inner l ++ [Visit.mk holder.shape l]).findSome? Visit.fault? := by
  cases holder with
  | register => exact (error?_map _ _).trans (error?_decodeRegister l)
  | field =>
      refine (error?_map _ _).trans ((error?_decodeField l).trans ?_)
      rw [inner, List.nil_append, findSome?_cons_eq_or, List.findSome?_nil, Option.or_none]
      rfl

/-- The write constraint is the last of the values of an element. -/
theorem exists_ownValues (holder : ConstraintHolder) : ∃ front,
    holder.shape.ownValues = front ++ [.writeConstraint] ∧ .writeConstraint ∉ front := by
  cases holder with
  | register => exact ⟨[.name, .addressOffset, .dimension, .properties], rfl, by decide⟩
  | field => exact ⟨[.name, .bits, .access, .dimension], rfl, by decide⟩

theorem Readable.error?_constraintOf {holder : ConstraintHolder} {l : Located}
    (h : holder.Readable l) :
    error? (holder.constraintOf l) = error? (writeConstraintOf l holder.shape) := by
  rcases holder.exists_ownValues with ⟨front, hvalues, hnot⟩
  have hinner : (holder.inner l).findSome? Visit.fault? = none := by
    rw [List.findSome?_eq_none_iff]
    exact fun v hv => Visit.fault?_eq_none_iff.mpr (h.inner v hv)
  have hfront : front.findSome? (Visit.mk holder.shape l).faultIn? = none := by
    rw [List.findSome?_eq_none_iff]
    intro value hvalue
    apply Visit.faultIn?_eq_none_iff.mpr
    apply h.values value (by simp [hvalues, hvalue])
    rintro rfl
    exact hnot hvalue
  rw [ConstraintHolder.error?_constraintOf, List.findSome?_append, hinner, Option.none_or,
    findSome?_cons_eq_or, List.findSome?_nil, Option.or_none, Visit.fault?, hvalues,
    List.findSome?_append, hfront, Option.none_or, findSome?_cons_eq_or, List.findSome?_nil,
    Option.or_none]
  rfl

theorem writeConstraintOf_of_constraintOf {holder : ConstraintHolder} {l : Located}
    {constraint? : Option WriteConstraint} (h : holder.constraintOf l = .ok constraint?) :
    writeConstraintOf l holder.shape = .ok constraint? := by
  rw [writeConstraintOf_eq_ok_iff]
  cases holder with
  | register =>
      simp only [constraintOf, map_eq_pure_bind, bind_eq_ok_iff, pure_eq_ok_iff,
        decodeRegister_eq_ok_iff] at h
      rcases h with ⟨r, hr, rfl⟩
      exact hr.writeConstraint
  | field =>
      simp only [constraintOf, map_eq_pure_bind, bind_eq_ok_iff, pure_eq_ok_iff,
        decodeField_eq_ok_iff] at h
      rcases h with ⟨f, hf, rfl⟩
      exact hf.writeConstraint

/-- If all else can be read, only the write constraint decides whether decoding fails, and how. -/
theorem Readable.constraintOf_eq {holder : ConstraintHolder} {l : Located}
    (h : holder.Readable l) : holder.constraintOf l = writeConstraintOf l holder.shape := by
  cases hread : holder.constraintOf l with
  | ok constraint? => exact (writeConstraintOf_of_constraintOf hread).symm
  | error e =>
      have herror := h.error?_constraintOf
      rw [hread, error?, eq_comm, error?_eq_some_iff] at herror
      exact herror.symm

end ConstraintHolder

/--
A write constraint is decoded as the first kind that can be used in it, or fails as that
kind does, or is of none.  In a register or field that can be read otherwise this is what
becomes of the whole.  No other kind has a part in it.
-/
theorem constraintOf_firstKind {l child : Located}
    (hchild : l.child? "writeConstraint" = some child) (holder : ConstraintHolder) :
    (∀ r, writeConstraintOf l holder.shape = r ↔ ConstraintOutcome l child holder.shape r) ∧
    (holder.Readable l → holder.constraintOf l = writeConstraintOf l holder.shape) ∧
    ∀ (kind : ConstraintKind) (other : Element), kind.Chosen child.element → kind.Chosen other →
      (∀ tag ∈ kind.tags, child.element.child? tag = other.child? tag) →
      constraintIn? child.element = constraintIn? other := by
  refine ⟨?_, ?_, ?_⟩
  · intro r
    constructor
    · rintro rfl
      rcases ConstraintOutcome.exists_outcome l child holder.shape with ⟨r, h⟩
      rwa [h.eq_writeConstraintOf hchild]
    · exact ConstraintOutcome.eq_writeConstraintOf hchild
  · exact ConstraintHolder.Readable.constraintOf_eq
  · intro kind other
    exact constraintIn?_congr_of_chosen

/-! ### A mode with a range behind kinds that cannot be used -/

def modeField (nodes : List Node) : Located :=
  .root (.mk ⟨none, "field"⟩ [] 1
    [textNode "name" "MODE", textNode "bitRange" "[3:0]", groupNode "writeConstraint" nodes])

def modeConstraint (maximum : String) : List Node :=
  [groupNode "range" [textNode "maximum" maximum, groupNode "minimum" []],
    textNode "useEnumeratedValues" "no", textNode "writeAsRead" "perhaps",
    textNode "writeAsRead" "true"]

theorem readable_modeField (nodes : List Node) :
    ConstraintHolder.field.Readable (modeField nodes) := by
  refine ⟨nofun, ?_⟩
  intro value hvalue hne hmalformed
  rcases hmalformed with hcause | ⟨rfl, -⟩
  · simp only [ConstraintHolder.shape, Shape.ownValues, List.mem_cons, List.not_mem_nil,
      or_false] at hvalue
    rcases hvalue with rfl | rfl | rfl | rfl | rfl
    · cases hcause
    · cases hcause
    · cases hcause
    · cases hcause
    · exact hne rfl
  · exact hne rfl

theorem constraintOf_firstKind_mode :
    ConstraintHolder.field.constraintOf (modeField (modeConstraint "0x10")) =
        .ok (some (.range none (some 16))) ∧
      ConstraintHolder.field.constraintOf (modeField (modeConstraint "ten")) =
        .error ⟨(modeField (modeConstraint "ten")).location, .field,
          .malformedElement (some "ten") "maximum"⟩ := by
  have hunusable (maximum : String) :
      ∀ other : ConstraintKind, other.rank < ConstraintKind.range.rank →
        ¬other.Usable (.mk ⟨none, "writeConstraint"⟩ [] 1 (modeConstraint maximum)) := by
    rintro (_ | _ | _) hother
    · exact truthIn?_eq_none_iff.mp rfl
    · exact truthIn?_eq_none_iff.mp rfl
    · exact absurd hother (by decide)
  constructor
  · rcases constraintOf_firstKind (l := modeField (modeConstraint "0x10")) rfl .field
      with ⟨houtcome, hholder, -⟩
    rw [hholder (readable_modeField _), houtcome]
    refine .given (.range ⟨rfl, hunusable _⟩ rfl (.empty rfl ⟨rfl, rfl⟩) (.integer rfl ?_))
    exact .text rfl (n := 16) (by decide +kernel)
  · rcases constraintOf_firstKind (l := modeField (modeConstraint "ten")) rfl .field
      with ⟨houtcome, hholder, -⟩
    rw [hholder (readable_modeField _), houtcome]
    refine .fault ⟨⟨rfl, hunusable _⟩, _, rfl, .maximum (.empty rfl ⟨rfl, rfl⟩) ?_⟩
    exact .malformed rfl rfl rfl

/-! ### A child that is named like a truth value -/

def standInMode : Located :=
  modeField [textNode "_write_as_read" "true"]

/-- A constraint with nothing in it that is known is of the first kind all the same. -/
theorem constraintOf_standIn_truth :
    ConstraintHolder.field.constraintOf standInMode = .ok (some (.writeAsRead true)) ∧
      (standInMode.element.child? "writeConstraint").map (fun e =>
        [e.child? "writeAsRead", e.child? "useEnumeratedValues", e.child? "range"]) =
          some [none, none, none] :=
  ⟨rfl, rfl⟩

end RegisterMap.Description
