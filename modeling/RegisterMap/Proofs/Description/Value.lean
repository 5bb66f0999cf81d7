import RegisterMap.Proofs.Description.Words
import RegisterMap.Proofs.Text.Trimmed

/-!
# Values that are read

When an element gives a name, a description or the base of an alias, and which one it
is.
-/

namespace RegisterMap.Description

open RegisterMap.Text RegisterMap.Xml

variable {e : Element}

theorem nameOf_eq_ok_iff {name : String} : nameOf e = .ok name ↔
    ∃ child, e.child? "name" = some child ∧ trim (child.text?.getD "") = name ∧
      IsTrimmed name := by
  unfold nameOf
  constructor
  · intro h
    split at h
    · cases h
    · rename_i child hchild
      dsimp only at h
      split at h
      · cases h
      · rename_i hne
        cases h
        exact ⟨child, hchild, rfl, isTrimmed_trim (Bool.eq_false_iff.mpr hne)⟩
  · rintro ⟨child, hchild, rfl, hname⟩
    simp [hchild, isEmpty_of_isTrimmed hname]

theorem descriptionOf_eq_some_iff {description : String} : descriptionOf e = some description ↔
    ∃ child, e.child? "description" = some child ∧ trim (child.text?.getD "") = description ∧
      IsTrimmed description := by
  unfold descriptionOf
  constructor
  · intro h
    split at h
    · cases h
    · rename_i child hchild
      dsimp only at h
      split at h
      · cases h
      · rename_i hne
        cases h
        exact ⟨child, hchild, rfl, isTrimmed_trim (Bool.eq_false_iff.mpr hne)⟩
  · rintro ⟨child, hchild, rfl, hdescription⟩
    simp [hchild, isEmpty_of_isTrimmed hdescription]

theorem derivedFromOf_eq_ok_iff {base : Option String} : derivedFromOf e = .ok base ↔
    Option.Rel (fun value name => trim value = name ∧ IsTrimmed name)
      (e.attribute? "derivedFrom") base := by
  unfold derivedFromOf
  cases e.attribute? "derivedFrom" with
  | none =>
      constructor
      · rintro ⟨⟩
        exact .none
      · rintro ⟨⟩
        rfl
  | some value =>
      simp only [readReference]
      constructor
      · intro h
        split at h
        · rename_i name hname
          split at hname
          · cases hname
          · rename_i hne
            cases hname
            cases h
            exact .some ⟨rfl, isTrimmed_trim (Bool.eq_false_iff.mpr hne)⟩
        · cases h
      · intro h
        cases h with
        | some h =>
            rcases h with ⟨rfl, hname⟩
            simp only [isEmpty_of_isTrimmed hname]
            rfl

end RegisterMap.Description
