import RegisterMap.Proofs.Swift.Identifier
import RegisterMap.Proofs.Text.Trimmed

/-!
# Well-formed names

A Swift name starts with a letter or an underscore and goes on with letters, digits
and underscores.  Any text is made into one, whatever blanks, placeholders, digits and
letters of other scripts it holds.  The texts that stay as they are on the way are
exactly the Swift names, so there is nothing left to do for a text once it is one.
-/

namespace RegisterMap.Swift

open RegisterMap.Text

/-- An ASCII letter or underscore with ASCII letters, digits and underscores behind it. -/
inductive IsNameText : List Char → Prop
  | cons {first : Char} {rest : List Char} :
      (first.isAlpha = true ∨ first = '_') → (∀ c ∈ rest, c.isAlphanum = true ∨ c = '_') →
      IsNameText (first :: rest)

/-- True of a text that is such a name. -/
def IsSwiftName (text : String) : Prop :=
  IsNameText text.toList

theorem isNameText_cons {first : Char} {rest : List Char} :
    IsNameText (first :: rest) ↔
      (first.isAlpha = true ∨ first = '_') ∧ ∀ c ∈ rest, c.isAlphanum = true ∨ c = '_' := by
  constructor
  · rintro (⟨hfirst, hrest⟩)
    exact ⟨hfirst, hrest⟩
  · rintro ⟨hfirst, hrest⟩
    exact .cons hfirst hrest

instance : DecidablePred IsNameText
  | [] => .isFalse nofun
  | first :: rest =>
      decidable_of_iff
        ((first.isAlpha || first == '_') = true ∧
          (rest.all fun c => c.isAlphanum || c == '_') = true)
        (by simp only [isNameText_cons, Bool.or_eq_true, beq_iff_eq, List.all_eq_true])

instance : DecidablePred IsSwiftName :=
  fun text => inferInstanceAs (Decidable (IsNameText text.toList))

/-! ## Characters of names -/

theorem isNameChar_iff {c : Char} : isNameChar c = true ↔ c.isAlphanum = true ∨ c = '_' := by
  simp [isNameChar]

/-- A name starts with any of its characters but a digit. -/
theorem isAlpha_or_underscore_iff {c : Char} :
    c.isAlpha = true ∨ c = '_' ↔ isNameChar c = true ∧ c.isDigit = false := by
  constructor
  · intro h
    have hname : isNameChar c = true := by
      rw [isNameChar_iff, Char.isAlphanum, Bool.or_eq_true]
      exact h.imp_left Or.inl
    exact ⟨hname, of_isNameChar
      (P := fun c => c.isAlpha = true ∨ c = '_' → c.isDigit = false) (by decide) hname h⟩
  · rintro ⟨hname, hdigit⟩
    rw [isNameChar_iff, Char.isAlphanum, Bool.or_eq_true, hdigit] at hname
    simpa using hname

theorem isBlank_of_isNameChar {c : Char} (h : isNameChar c = true) : isBlank c = false :=
  of_isNameChar (P := fun c => isBlank c = false) (by decide) h

/-- A name is never empty, never starts with a digit, and has the characters of names. -/
theorem isNameText_iff {cs : List Char} :
    IsNameText cs ↔
      cs ≠ [] ∧ cs.all isNameChar = true ∧ ∀ c ∈ cs.head?, c.isDigit = false := by
  cases cs with
  | nil => exact iff_of_false nofun fun h => h.1 rfl
  | cons first rest =>
      simp only [isNameText_cons, isAlpha_or_underscore_iff, ← isNameChar_iff, List.all_cons,
        Bool.and_eq_true, List.all_eq_true, List.head?_cons, Option.mem_def, Option.some.injEq,
        forall_eq', ne_eq, reduceCtorEq, not_false_eq_true, true_and]
      tauto

theorem IsNameText.isNameChar {cs : List Char} (h : IsNameText cs) {c : Char} (hc : c ∈ cs) :
    isNameChar c = true :=
  List.all_eq_true.mp (isNameText_iff.mp h).2.1 c hc

/-! ## Names made from texts -/

/-- A text that is empty or starts with a digit gets an underscore in front. -/
theorem exists_sanitize_eq_cons (cs : List Char) :
    ∃ first rest, sanitize cs = first :: rest ∧ first.isDigit = false := by
  unfold sanitize
  simp only
  split
  · exact ⟨'_', [], rfl, rfl⟩
  · rename_i first rest hkept
    split
    · exact ⟨'_', _, rfl, rfl⟩
    · rename_i hdigit
      exact ⟨first, rest, hkept, Bool.eq_false_iff.mpr hdigit⟩

theorem isNameText_sanitize (cs : List Char) : IsNameText (sanitize cs) := by
  have hchars := all_isNameChar_sanitize cs
  obtain ⟨first, rest, heq, hdigit⟩ := exists_sanitize_eq_cons cs
  rw [heq] at hchars ⊢
  exact isNameText_iff.mpr ⟨List.cons_ne_nil first rest, hchars, by simpa using hdigit⟩

theorem dropPlaceholders_of_not_mem {cs : List Char} (h : '%' ∉ cs) : dropPlaceholders cs = cs := by
  fun_induction dropPlaceholders cs with
  | case1 rest ih => simp at h
  | case2 rest ih => simp at h
  | case3 c rest _ _ ih => rw [ih (List.not_mem_of_not_mem_cons h)]
  | case4 => rfl

/-- Nothing is taken from a name, nothing is replaced in it and nothing put before it. -/
theorem sanitize_of_isNameText {cs : List Char} (h : IsNameText cs) : sanitize cs = cs := by
  obtain ⟨hne, -, hdigit⟩ := isNameText_iff.mp h
  have hstrip : strip cs = cs := by
    refine strip_of_isStripped (isStripped_of_forall hne ?_)
    intro c hc
    exact isBlank_of_isNameChar (h.isNameChar hc)
  have hdrop : dropPlaceholders cs = cs :=
    dropPlaceholders_of_not_mem fun hpercent => absurd (h.isNameChar hpercent) (by decide)
  have hkept : cs.map (fun c => if isNameChar c then c else '_') = cs := by
    refine (List.map_congr_left fun c hc => ?_).trans cs.map_id
    exact if_pos (h.isNameChar hc)
  rw [sanitize, hstrip, hdrop, hkept]
  cases cs with
  | nil => exact absurd rfl hne
  | cons first rest => exact if_neg (by simp [hdigit first rfl])

theorem sanitize_eq_self_iff {cs : List Char} : sanitize cs = cs ↔ IsNameText cs := by
  constructor
  · intro h
    rw [← h]
    exact isNameText_sanitize cs
  · exact sanitize_of_isNameText

/-! ## Swift names -/

theorem isSwiftName_swiftName (name : String) : IsSwiftName (swiftName name) := by
  rw [IsSwiftName, swiftName, String.toList_ofList]
  exact isNameText_sanitize name.toList

/-- A placeholder around another one leaves a placeholder, which is no character of names. -/
example : swiftName " ٣[%%ss] " = "___s_" := by decide

theorem IsSwiftName.isName {name : String} (h : IsSwiftName name) : IsName name :=
  (isNameText_iff.mp h).2.1

theorem swiftName_eq_self_iff {name : String} : swiftName name = name ↔ IsSwiftName name := by
  rw [← String.toList_inj, swiftName, String.toList_ofList, sanitize_eq_self_iff, IsSwiftName]

theorem swiftName_swiftName (name : String) : swiftName (swiftName name) = swiftName name :=
  swiftName_eq_self_iff.mpr (isSwiftName_swiftName name)

end RegisterMap.Swift
