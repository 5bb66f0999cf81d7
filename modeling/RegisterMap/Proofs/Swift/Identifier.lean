import RegisterMap.Proofs.Number.Decimal
import RegisterMap.Swift.Name

/-!
# Identifiers

Names are made of ASCII letters, digits and underscores, and so is everything that
is added to them.  A name of such characters is told from any other by the
identifier that source text writes for it.
-/

namespace RegisterMap.Swift

open RegisterMap.Number RegisterMap.Text

/-- True of a text that is made of the characters of names. -/
def IsName (text : String) : Prop :=
  text.toList.all isNameChar = true

instance : DecidablePred IsName :=
  fun text => inferInstanceAs (Decidable (text.toList.all isNameChar = true))

@[simp] theorem isName_append {s t : String} : IsName (s ++ t) ↔ IsName s ∧ IsName t := by
  simp only [IsName, String.toList_append, List.all_append, Bool.and_eq_true]

theorem all_isNameChar_sanitize (cs : List Char) : (sanitize cs).all isNameChar = true := by
  have hkept : ((dropPlaceholders (strip cs)).map fun c =>
      if isNameChar c then c else '_').all isNameChar = true := by
    rw [List.all_map, List.all_eq_true]
    intro c _
    by_cases hc : isNameChar c = true
    · simp [hc]
    · simp only [Function.comp_apply, if_neg hc]
      decide
  unfold sanitize
  simp only
  split
  · decide
  · split
    · rw [List.all_cons, hkept]
      decide
    · exact hkept

theorem isName_swiftName (name : String) : IsName (swiftName name) := by
  rw [IsName, swiftName, String.toList_ofList]
  exact all_isNameChar_sanitize name.toList

theorem isNameChar_of_isDigit {c : Char} (h : c.isDigit = true) : isNameChar c = true := by
  simp [isNameChar, Char.isAlphanum, h]

theorem isName_toString (n : Nat) : IsName (toString n) := by
  rw [IsName, List.all_eq_true]
  exact fun c hc => isNameChar_of_isDigit (isDigit_of_mem_toString hc)

/-- The characters of names are the first 127 at most. -/
theorem toNat_lt_of_isNameChar {c : Char} (h : isNameChar c = true) : c.toNat < 127 := by
  unfold isNameChar Char.isAlphanum Char.isAlpha Char.isUpper Char.isLower Char.isDigit at h
  simp only [Bool.or_eq_true, Bool.and_eq_true, decide_eq_true_eq, beq_iff_eq] at h
  rcases h with ((⟨_, hhigh⟩ | ⟨_, hhigh⟩) | ⟨_, hhigh⟩) | rfl
  · exact Nat.lt_of_le_of_lt hhigh (by decide)
  · exact Nat.lt_of_le_of_lt hhigh (by decide)
  · exact Nat.lt_of_le_of_lt hhigh (by decide)
  · decide

/-- What holds of the characters of names among the first 127 holds of all of them. -/
theorem of_isNameChar {P : Char → Prop}
    (h : ∀ n < 127, isNameChar (Char.ofNat n) = true → P (Char.ofNat n)) {c : Char}
    (hc : isNameChar c = true) : P c := by
  have hchar := h c.toNat (toNat_lt_of_isNameChar hc)
  rw [Char.ofNat_toNat] at hchar
  exact hchar hc

theorem IsName.map {f : Char → Char} (hf : ∀ n < 127, isNameChar (Char.ofNat n) = true →
    isNameChar (f (Char.ofNat n)) = true) {name : String} (h : IsName name) :
    IsName (name.map f) := by
  rw [IsName, String.toList_map, List.all_map, List.all_eq_true]
  intro c hc
  exact of_isNameChar (P := fun c => isNameChar (f c) = true) hf (List.all_eq_true.mp h c hc)

theorem IsName.toUpper {name : String} (h : IsName name) : IsName name.toUpper :=
  h.map (by decide)

theorem IsName.toLower {name : String} (h : IsName name) : IsName name.toLower :=
  h.map (by decide)

/-! ## Names as identifiers -/

theorem not_isName_quoted (name : String) : ¬IsName ("`" ++ name ++ "`") := by
  intro h
  have hfront : IsName "`" := (isName_append.mp (isName_append.mp h).1).1
  exact absurd hfront (by decide)

/-- Two names that source text writes alike are one name. -/
theorem eq_of_identifier_eq {a b : String} (ha : IsName a) (hb : IsName b)
    (h : identifier a = identifier b) : a = b := by
  unfold identifier at h
  by_cases hka : a ∈ keywords
  · by_cases hkb : b ∈ keywords
    · rw [if_pos hka, if_pos hkb] at h
      exact (String.append_right_inj _).mp ((String.append_left_inj _).mp h)
    · rw [if_pos hka, if_neg hkb] at h
      exact absurd (h ▸ hb) (not_isName_quoted a)
  · by_cases hkb : b ∈ keywords
    · rw [if_neg hka, if_pos hkb] at h
      exact absurd (h ▸ ha) (not_isName_quoted b)
    · rwa [if_neg hka, if_neg hkb] at h

end RegisterMap.Swift
