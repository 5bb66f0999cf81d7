import RegisterMap.Proofs.Description.Words

/-!
# Stand-ins

When another child stands in for a value that is missing, and what an integer is then.
In an element that holds no such child every integer is one that is written in the
element, so 64 bits hold it.
-/

namespace RegisterMap.Description

open RegisterMap.Export (IsWord?)
open RegisterMap.Model RegisterMap.Number RegisterMap.Report.Outcome RegisterMap.Xml

section

variable {α : Type} {e : Element} {property : Property} {ofStandIn : Element → α}
  {value : Except Cause α} {a : α}

theorem orStandIn_eq_ok_iff : orStandIn e property ofStandIn value = .ok a ↔
    value = .ok a ∨ (∃ missing, value = .error (.absent missing)) ∧
      ∃ standIn, e.child? property.word = some standIn ∧ ofStandIn standIn = a := by
  unfold orStandIn
  split
  · cases e.child? property.word <;> simp
  · rename_i hvalue
    constructor
    · exact .inl
    · rintro (h | ⟨⟨missing, h⟩, -⟩)
      · exact h
      · exact absurd h (hvalue missing)

/-- A value without a stand-in is as it is read. -/
theorem orStandIn_eq_ok_iff_of_none (h : e.child? property.word = none) :
    orStandIn e property ofStandIn value = .ok a ↔ value = .ok a := by
  rw [orStandIn_eq_ok_iff, h]
  simp

/-- A value fails if it is missing without a stand-in, or for another cause. -/
theorem orStandIn_eq_error_iff {cause : Cause} :
    orStandIn e property ofStandIn value = .error cause ↔
      ((∃ missing, value = .error (.absent missing)) ∧ e.child? property.word = none ∧
        cause = .absent property) ∨
      value = .error cause ∧ ∀ missing, cause ≠ .absent missing := by
  unfold orStandIn
  split
  · have hother (missing : Property) :
        ¬((Except.error (.absent missing) : Except Cause α) = .error cause ∧
          ∀ missing, cause ≠ .absent missing) := by
      rintro ⟨⟨⟩, h⟩
      exact h missing rfl
    simp only [hother, or_false]
    cases e.child? property.word <;> simp [eq_comm]
  · rename_i hvalue
    constructor
    · intro h
      exact .inr ⟨h, fun missing hcause => hvalue missing (hcause ▸ h)⟩
    · rintro (⟨⟨missing, h⟩, -⟩ | ⟨h, -⟩)
      · exact absurd h (hvalue missing)
      · exact h

/-- A value is still missing if it is and has no stand-in. -/
theorem orStandIn_eq_absent_iff {missing : Property} :
    orStandIn e property ofStandIn value = .error (.absent missing) ↔
      (∃ missing, value = .error (.absent missing)) ∧ e.child? property.word = none ∧
        missing = property := by
  rw [orStandIn_eq_error_iff]
  simp

/-- A missing value fails exactly if it has no stand-in. -/
theorem exists_error_orStandIn_iff (h : ∃ missing, value = .error (.absent missing)) :
    (∃ cause, orStandIn e property ofStandIn value = .error cause) ↔
      e.child? property.word = none := by
  rcases h with ⟨missing, rfl⟩
  unfold orStandIn
  cases e.child? property.word <;> simp

end

/-! ## Integers -/

/-- What an element that is read for an integer gives: its text or a child in the place of one. -/
inductive GivesInteger (e : Element) : Int → Prop
  | text {text : String} {n : Nat} (htext : e.text? = some text)
      (hread : readScaled text = .ok n) : GivesInteger e n
  | standIn {child : Element} (htext : e.text? = none)
      (hchild : e.child? Property.value.word = some child) : GivesInteger e (standInNumber child)

/-- True of an element without a text and without a child in the place of one. -/
structure GivesNothing (e : Element) : Prop where
  text : e.text? = none
  child : e.child? Property.value.word = none

/-- True of an element with an empty child for an integer and no child in the place of one. -/
structure LacksInteger (e : Element) (tag : String) (property : Property) : Prop where
  empty : ∃ child, e.child? tag = some child ∧ GivesNothing child
  standIn : e.child? property.word = none

section

variable {e : Element} {tag : String} {property : Property} {n : Int}

theorem integerOf_of_text {text : String} (h : e.text? = some text) : integerOf e tag =
    match readScaled text with
    | .ok n => .ok (n : Int)
    | .error _ => .error (.malformedElement (some text) tag) := by
  rw [integerOf, h]
  dsimp only
  cases readScaled text <;> rfl

theorem integerOf_of_no_text (h : e.text? = none) :
    integerOf e tag = orStandIn e .value standInNumber (.error (.absent .value)) := by
  rw [integerOf, h]

theorem integerOf_eq_ok_iff : integerOf e tag = .ok n ↔ GivesInteger e n := by
  cases htext : e.text? with
  | none =>
      rw [integerOf_of_no_text htext, orStandIn_eq_ok_iff]
      constructor
      · rintro (h | ⟨-, child, hchild, rfl⟩)
        · cases h
        · exact .standIn htext hchild
      · rintro (⟨htext', -⟩ | ⟨-, hchild⟩)
        · rw [htext] at htext'
          cases htext'
        · exact .inr ⟨⟨_, rfl⟩, _, hchild, rfl⟩
  | some text =>
      rw [integerOf_of_text htext]
      constructor
      · intro h
        split at h
        · rename_i hread
          cases h
          exact .text htext hread
        · cases h
      · rintro (⟨htext', hread⟩ | ⟨htext', -⟩)
        · rw [htext, Option.some.injEq] at htext'
          rw [htext', hread]
        · rw [htext] at htext'
          cases htext'

/-- An element without an integer has nothing in it or a text that is none. -/
theorem integerOf_eq_error_iff {cause : Cause} : integerOf e tag = .error cause ↔
    GivesNothing e ∧ cause = .absent .value ∨ ∃ text error, e.text? = some text ∧
      readScaled text = .error error ∧ cause = .malformedElement (some text) tag := by
  cases htext : e.text? with
  | none =>
      rw [integerOf_of_no_text htext, orStandIn_eq_error_iff]
      constructor
      · rintro (⟨-, hchild, rfl⟩ | ⟨hcause, hother⟩)
        · exact .inl ⟨⟨htext, hchild⟩, rfl⟩
        · cases hcause
          exact absurd rfl (hother _)
      · rintro (⟨hnothing, rfl⟩ | ⟨text, error, hsome, -⟩)
        · exact .inl ⟨⟨_, rfl⟩, hnothing.child, rfl⟩
        · cases hsome
  | some text =>
      rw [integerOf_of_text htext]
      constructor
      · intro h
        split at h
        · cases h
        · rename_i error hread
          cases h
          exact .inr ⟨text, error, rfl, hread, rfl⟩
      · rintro (⟨hnothing, -⟩ | ⟨_, error, ⟨⟩, hread, rfl⟩)
        · rw [hnothing.text] at htext
          cases htext
        · rw [hread]

theorem integerOf_eq_absent_iff :
    (∃ missing, integerOf e tag = .error (.absent missing)) ↔ GivesNothing e := by
  simp [integerOf_eq_error_iff]

/-- An integer is given by a child, or in the place of one that gives nothing. -/
theorem integer?_eq_some_iff : integer? e tag property = .ok (some n) ↔
    ∃ child, e.child? tag = some child ∧ (GivesInteger child n ∨ GivesNothing child ∧
      ∃ standIn, e.child? property.word = some standIn ∧ standInNumber standIn = n) := by
  unfold integer?
  cases e.child? tag with
  | none => simp
  | some child =>
      simp only [map_eq_ok_iff, Option.some.injEq, exists_eq_right, exists_eq_left',
        orStandIn_eq_ok_iff, integerOf_eq_ok_iff, integerOf_eq_absent_iff]

theorem integer?_eq_ok_none_iff : integer? e tag property = .ok none ↔ e.child? tag = none := by
  unfold integer?
  cases e.child? tag with
  | none => simp
  | some child => simp only [map_eq_ok_iff, reduceCtorEq, and_false, exists_false]

/-- An integer is missing if its child gives nothing and no other stands in for it. -/
theorem integer?_eq_absent_iff :
    (∃ missing, integer? e tag property = .error (.absent missing)) ↔
      LacksInteger e tag property := by
  unfold integer?
  cases hchild : e.child? tag with
  | none =>
      constructor
      · rintro ⟨missing, h⟩
        cases h
      · rintro ⟨⟨child, hsome, -⟩, -⟩
        rw [hchild] at hsome
        cases hsome
  | some child =>
      simp only [map_eq_error_iff, orStandIn_eq_absent_iff, integerOf_eq_absent_iff]
      constructor
      · rintro ⟨missing, hnothing, hstandIn, -⟩
        exact ⟨⟨child, hchild, hnothing⟩, hstandIn⟩
      · rintro ⟨⟨_, hsome, hnothing⟩, hstandIn⟩
        rw [hchild, Option.some.injEq] at hsome
        exact ⟨property, hsome ▸ hnothing, hstandIn, rfl⟩

theorem integer_eq_ok_iff : integer e tag property = .ok n ↔
    (∃ child, e.child? tag = some child ∧ GivesInteger child n) ∨
      (∀ child ∈ e.child? tag, GivesNothing child) ∧
        ∃ standIn, e.child? property.word = some standIn ∧ standInNumber standIn = n := by
  rw [integer, orStandIn_eq_ok_iff]
  cases e.child? tag with
  | none => simp
  | some child => simp [integerOf_eq_ok_iff, integerOf_eq_absent_iff]

/-- An integer that is missing fails exactly if it has no stand-in. -/
theorem exists_error_integer_iff (h : ∀ child ∈ e.child? tag, GivesNothing child) :
    (∃ cause, integer e tag property = .error cause) ↔ e.child? property.word = none := by
  apply exists_error_orStandIn_iff
  cases hchild : e.child? tag with
  | none => exact ⟨property, rfl⟩
  | some child => exact integerOf_eq_absent_iff.mpr (h child hchild)

end

/-! ## Elements without stand-ins -/

namespace Property

/-- The values that another child can stand in for. -/
def replaceable : List Property :=
  [.baseAddress, .offset, .dimension, .bitRange, .registerProperties, .count, .stride, .size,
    .resetValue, .resetMask, .lsb, .msb, .bitOffset, .bitWidth, .writeAsRead,
    .useEnumeratedValues]

end Property

/-- True of an element in which no child can stand in for a value, or for the text of a child. -/
structure HoldsNoStandIn (e : Element) : Prop where
  own : ∀ property ∈ Property.replaceable, e.child? property.word = none
  inner : ∀ child ∈ e.elements, child.child? Property.value.word = none

theorem holdsNoStandIn_iff {e : Element} : HoldsNoStandIn e ↔
    (Property.replaceable.all fun property => (e.child? property.word).isNone) = true ∧
      (e.elements.all fun child => (child.child? Property.value.word).isNone) = true := by
  simp only [List.all_eq_true, Option.isNone_iff_eq_none]
  exact ⟨fun h => ⟨h.own, h.inner⟩, fun h => ⟨h.1, h.2⟩⟩

instance : DecidablePred HoldsNoStandIn := fun _ => decidable_of_iff' _ holdsNoStandIn_iff

theorem mem_elements_of_child? {e child : Element} {tag : String} (h : e.child? tag = some child) :
    child ∈ e.elements :=
  List.mem_of_find?_eq_some h

namespace HoldsNoStandIn

variable {e child : Element} {tag : String} {property : Property}

/-- A child that is read for an integer gives one by its text alone. -/
theorem isWord (h : HoldsNoStandIn e) (hchild : e.child? tag = some child) {n : Int}
    (hn : GivesInteger child n) : isWord n = true := by
  cases hn with
  | text _ hread => exact isWord_of_readScaled hread
  | standIn _ hstandIn =>
      rw [h.inner child (mem_elements_of_child? hchild)] at hstandIn
      cases hstandIn

theorem isWord?_integer? (h : HoldsNoStandIn e) (hproperty : property ∈ Property.replaceable)
    {n? : Option Int} (hn : integer? e tag property = .ok n?) : IsWord? n? := by
  rintro n rfl
  rcases integer?_eq_some_iff.mp hn with ⟨child, hchild, hgives | ⟨-, standIn, hstandIn, -⟩⟩
  · exact h.isWord hchild hgives
  · rw [h.own property hproperty] at hstandIn
    cases hstandIn

theorem isWord_integer (h : HoldsNoStandIn e) (hproperty : property ∈ Property.replaceable)
    {n : Int} (hn : integer e tag property = .ok n) : RegisterMap.Number.isWord n = true := by
  rcases integer_eq_ok_iff.mp hn with ⟨child, hchild, hgives⟩ | ⟨-, standIn, hstandIn, -⟩
  · exact h.isWord hchild hgives
  · rw [h.own property hproperty] at hstandIn
    cases hstandIn

end HoldsNoStandIn

end RegisterMap.Description
