import RegisterMap.Proofs.Derivation.Validation
import RegisterMap.Proofs.Swift.PlainText
import RegisterMap.Proofs.Swift.SwiftName

/-!
# Printed references

An alias prints its reference with the names of types in place of its components,
one name for each of them, and reading the printed text gives these names again.  The
text is the identifier of one type exactly if the reference is a single component and
its type needs no backticks.
-/

namespace RegisterMap.Derivation

open RegisterMap.Swift

theorem not_mem_toList_of_isName {name : String} (h : IsName name) {c : Char}
    (hc : isNameChar c = false) : c ∉ name.toList := by
  intro hmem
  have hname := List.all_eq_true.mp h c hmem
  rw [hc] at hname
  cases hname

theorem components_ne_nil (reference : String) : components reference ≠ [] := by
  simp [components]

/-- A reference has one component more than dots. -/
theorem length_components (reference : String) :
    (components reference).length = reference.toList.count '.' + 1 := by
  rw [components, List.length_map]
  induction reference.toList with
  | nil => rfl
  | cons c cs ih =>
      rw [List.splitOn_cons_eq_if_modifyHead, List.count_cons]
      split
      · rw [List.length_cons, ih]
      · rw [List.length_modifyHead, ih, Nat.add_zero]

theorem components_intercalate {pieces : List String} (hne : pieces ≠ [])
    (hpieces : ∀ piece ∈ pieces, '.' ∉ piece.toList) :
    components (String.intercalate "." pieces) = pieces := by
  have hcut : (".".toList.intercalate (pieces.map String.toList)).splitOn '.' =
      pieces.map String.toList := by
    refine List.splitOn_intercalate '.' ?_ (by simpa using hne)
    simpa using hpieces
  rw [components, String.toList_intercalate, hcut, List.map_map]
  simp

theorem components_of_not_mem {reference : String} (h : '.' ∉ reference.toList) :
    components reference = [reference] := by
  rw [components, List.splitOn_eq_singleton h, List.map_singleton, String.ofList_toList]

theorem referencePath_ne_nil (reference : String) : referencePath reference ≠ [] := by
  rw [referencePath_eq]
  simpa [typePath] using components_ne_nil reference

/-- The components of the text that an alias prints are the path of its reference. -/
theorem components_aliasTarget (reference : String) :
    components (aliasTarget reference) = referencePath reference :=
  components_intercalate (referencePath_ne_nil reference) fun _ hpiece =>
    not_mem_toList_of_isName (isName_of_mem_referencePath hpiece) rfl

/-- True of Swift names that an alias prints for a reference, joined by dots. -/
structure PrintsNames (reference : String) (names : List String) : Prop where
  joined : aliasTarget reference = String.intercalate "." names
  wellFormed : ∀ name ∈ names, IsSwiftName name
  eq_map : names = (components reference).map swiftName
  /-- The dots of the text are those between the names. -/
  read : components (aliasTarget reference) = names
  /-- There is one name more than the reference has dots. -/
  length : names.length = reference.toList.count '.' + 1

theorem aliasTarget_printsNames (reference : String) :
    PrintsNames reference (referencePath reference) where
  joined := rfl
  wellFormed := by
    rw [referencePath_eq, typePath, List.forall_mem_map]
    exact fun component _ => isSwiftName_swiftName component
  eq_map := referencePath_eq reference
  read := components_aliasTarget reference
  length := by rw [referencePath_eq, typePath, List.length_map, length_components]

theorem aliasTarget_of_not_mem {reference : String} (h : '.' ∉ reference.toList) :
    aliasTarget reference = swiftName reference := by
  rw [aliasTarget, referencePath_eq, components_of_not_mem h]
  exact String.intercalate_singleton

theorem components_identifier (name : String) (h : IsName name) :
    components (identifier name) = [identifier name] := by
  have hdot := not_mem_toList_of_isName h (c := '.') rfl
  refine components_of_not_mem ?_
  unfold identifier
  split
  · simpa using hdot
  · exact hdot

/-- The printed reference to a name is the identifier of its type only for plain names. -/
theorem aliasTarget_eq_identifier_iff (name : String) :
    aliasTarget name = identifier (swiftName name) ↔
      '.' ∉ name.toList ∧ swiftName name ∉ keywords := by
  constructor
  · intro heq
    have hpath : referencePath name = [identifier (swiftName name)] := by
      rw [← components_aliasTarget, heq, components_identifier _ (isName_swiftName name)]
    have hdot : '.' ∉ name.toList := by
      have hlength := congrArg List.length hpath
      rw [referencePath_eq, typePath, List.length_map, length_components,
        List.length_singleton] at hlength
      exact List.count_eq_zero.mp (Nat.succ.inj hlength)
    refine ⟨hdot, ?_⟩
    intro hkeyword
    rw [aliasTarget_of_not_mem hdot, identifier, if_pos hkeyword] at heq
    exact not_isName_quoted _ (heq ▸ isName_swiftName name)
  · rintro ⟨hdot, hkeyword⟩
    rw [aliasTarget_of_not_mem hdot, identifier, if_neg hkeyword]

end RegisterMap.Derivation
