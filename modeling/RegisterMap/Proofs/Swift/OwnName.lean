import RegisterMap.Proofs.Swift.FreeName

/-!
# Field names beside the register and the property

The suffix for a field that is named like its register and the upper case for one
without capitals are there to keep the type name of a field apart from the register
and from its own property.  They are applied first.  A name without letters has no
upper case, and the upper case, the index of a replica or a number may give a field
the name of its register after all.  Here is exactly when that happens.
-/

namespace RegisterMap.Swift

open RegisterMap.Number
open FieldNames (toList_toLower)

/-! ## Capitals -/

/-- True of a text with an ASCII letter in upper case. -/
def HasCapital (name : String) : Prop :=
  name.toList.any Char.isUpper = true

/-- True of a text with an ASCII letter. -/
def HasLetter (name : String) : Prop :=
  name.toList.any Char.isAlpha = true

instance : DecidablePred HasCapital :=
  fun name => inferInstanceAs (Decidable (name.toList.any Char.isUpper = true))

instance : DecidablePred HasLetter :=
  fun name => inferInstanceAs (Decidable (name.toList.any Char.isAlpha = true))

theorem hasCapital_iff {name : String} :
    HasCapital name ↔ ∃ c ∈ name.toList, c.isUpper = true :=
  List.any_eq_true

theorem hasLetter_iff {name : String} : HasLetter name ↔ ∃ c ∈ name.toList, c.isAlpha = true :=
  List.any_eq_true

theorem hasCapital_append {s t : String} :
    HasCapital (s ++ t) ↔ HasCapital s ∨ HasCapital t := by
  simp only [HasCapital, String.toList_append, List.any_append, Bool.or_eq_true]

/-- A name with capitals as it is, any other in upper case. -/
def raised (name : String) : String :=
  if name = name.toLower then name.toUpper else name

section

variable {name : String}

theorem HasCapital.hasLetter (h : HasCapital name) : HasLetter name := by
  rcases hasCapital_iff.mp h with ⟨c, hc, hupper⟩
  exact hasLetter_iff.mpr ⟨c, hc, (Bool.or_eq_true _ _).mpr (.inl hupper)⟩

theorem isUpper_of_isDigit {c : Char} (h : c.isDigit = true) : c.isUpper = false :=
  of_isNameChar (P := fun c => c.isDigit = true → c.isUpper = false) (by decide)
    (isNameChar_of_isDigit h) h

theorem not_hasCapital_toString (n : Nat) : ¬HasCapital (toString n) := by
  intro h
  rcases hasCapital_iff.mp h with ⟨c, hc, hupper⟩
  rw [isUpper_of_isDigit (isDigit_of_mem_toString hc)] at hupper
  cases hupper

/-- A name is its own property exactly if it has no capitals. -/
theorem IsName.eq_toLower_iff (h : IsName name) : name = name.toLower ↔ ¬HasCapital name := by
  have hchars : name = name.toLower ↔ ∀ c ∈ name.toList, c.toLower = c := by
    have hmap := List.map_inj_left (l := name.toList) (f := Char.toLower) (g := id)
    rwa [List.map_id, ← toList_toLower, ← String.ext_iff, eq_comm] at hmap
  rw [hchars, hasCapital_iff]
  simp only [not_exists, not_and, Bool.not_eq_true]
  refine forall₂_congr fun c hc => ?_
  exact of_isNameChar (P := fun c => c.toLower = c ↔ c.isUpper = false) (by decide)
    (List.all_eq_true.mp h c hc)

theorem IsName.hasCapital_toUpper (h : IsName name) :
    HasCapital name.toUpper ↔ HasLetter name := by
  have hchars : name.toUpper.toList = name.toList.map Char.toUpper := String.toList_map
  simp only [hasCapital_iff, hasLetter_iff, hchars, List.mem_map, exists_exists_and_eq_and]
  refine exists_congr fun c => and_congr_right fun hc => ?_
  exact of_isNameChar (P := fun c => c.toUpper.isUpper = true ↔ c.isAlpha = true) (by decide)
    (List.all_eq_true.mp h c hc)

theorem IsName.hasCapital_raised (h : IsName name) :
    HasCapital (raised name) ↔ HasLetter name := by
  unfold raised
  split
  · exact h.hasCapital_toUpper
  · rename_i hne
    rw [h.eq_toLower_iff, not_not] at hne
    exact iff_of_true hne hne.hasLetter

theorem raised_of_hasCapital (hname : IsName name) (h : HasCapital name) : raised name = name :=
  if_neg fun heq => hname.eq_toLower_iff.mp heq h

/-- What is raised to a name that it is not itself has been put in upper case. -/
theorem of_raised_eq {other : String} (h : raised name = other) (hne : name ≠ other) :
    name = name.toLower ∧ name.toUpper = other := by
  unfold raised at h
  split at h
  · exact ⟨‹_›, h⟩
  · exact absurd h hne

end

namespace FieldNames

/-! ## Type names of fields -/

section

variable {names : FieldNames} {fieldName : String}

theorem typeName_eq (names : FieldNames) (fieldName : String) :
    names.typeName fieldName = raised (if swiftName fieldName = names.registerType then
      swiftName fieldName ++ collisionSuffix else swiftName fieldName) := rfl

theorem typeName_of_ne (h : swiftName fieldName ≠ names.registerType) :
    names.typeName fieldName = raised (swiftName fieldName) := by
  rw [typeName_eq, if_neg h]

theorem typeName_of_eq (h : swiftName fieldName = names.registerType) :
    names.typeName fieldName = names.registerType ++ collisionSuffix := by
  have hname : IsName (swiftName fieldName ++ collisionSuffix) :=
    isName_append.mpr ⟨isName_swiftName fieldName, by decide⟩
  have hcapital : HasCapital (swiftName fieldName ++ collisionSuffix) :=
    hasCapital_append.mpr (.inr (by decide))
  rw [typeName_eq, if_pos h, raised_of_hasCapital hname hcapital, h]

theorem hasCapital_typeName : HasCapital (names.typeName fieldName) ↔
    swiftName fieldName = names.registerType ∨ HasLetter (swiftName fieldName) := by
  by_cases h : swiftName fieldName = names.registerType
  · rw [typeName_of_eq h, hasCapital_append]
    exact iff_of_true (.inr (by decide)) (.inl h)
  · rw [typeName_of_ne h, (isName_swiftName fieldName).hasCapital_raised]
    simp only [h, false_or]

end

theorem not_hasCapital_suffix {r : Request} {s : String} (h : s ∈ r.suffixes) :
    ¬HasCapital s := by
  rcases suffix_cases h with rfl | ⟨i, rfl⟩
  · decide
  · exact not_hasCapital_toString i

theorem hasCapital_candidate {base : String} {k : Nat} :
    HasCapital (candidate base k) ↔ HasCapital base := by
  unfold candidate
  split
  · exact Iff.rfl
  · have hmark : ¬HasCapital "_" := by decide
    simp only [hasCapital_append, hmark, not_hasCapital_toString, or_false]

/-- A field is told from its own property if it has a letter, or the name of the register. -/
theorem reserve_eq_instanceName_iff (names : FieldNames) (r : Request) {s : String}
    (hs : s ∈ r.suffixes) :
    (names.reserve r.fieldName r.indices?).1 ++ s =
        instanceName ((names.reserve r.fieldName r.indices?).1 ++ s) ↔
      swiftName r.fieldName ≠ names.registerType ∧ ¬HasLetter (swiftName r.fieldName) := by
  have hname : IsName ((names.reserve r.fieldName r.indices?).1 ++ s) :=
    isName_append.mpr ⟨isName_reserve .., isName_suffix hs⟩
  have hcapital : HasCapital (names.reserve r.fieldName r.indices?).1 ↔
      HasCapital (names.typeName r.fieldName) := hasCapital_candidate
  rw [instanceName, hname.eq_toLower_iff, hasCapital_append,
    or_iff_left (not_hasCapital_suffix hs), hcapital, hasCapital_typeName, not_or]

/-! ## Fields that get the name of the register -/

/--
How a field that is not named like a register gets its name, while some names are taken:
by its upper case, by the index of a replica, or by its number.
-/
inductive Meets (register : String) (taken : List String) (r : Request) : Prop
  | upperCase (hreplicas : r.replicas = none)
      (hlower : swiftName r.fieldName = (swiftName r.fieldName).toLower)
      (hname : (swiftName r.fieldName).toUpper = register)
      (hfree : register.toLower ∉ taken) : Meets register taken r
  | replica {n i : Nat} (hreplicas : r.replicas = some n) (hi : i < n)
      (hname : raised (swiftName r.fieldName) ++ toString i = register)
      (hfree : ∀ j < n, (raised (swiftName r.fieldName) ++ toString j).toLower ∉ taken) :
      Meets register taken r
  | numbered {k : Nat} {s : String} (hs : s ∈ r.suffixes)
      (hname : raised (swiftName r.fieldName) ++ "_" ++ toString k ++ s = register)
      (hfirst : FirstFree taken (raised (swiftName r.fieldName)) r.suffixes
        (raised (swiftName r.fieldName) ++ "_" ++ toString k)) : Meets register taken r

/-- A field is given its type name as it is if that is free. -/
theorem reserve_of_free {names : FieldNames} {r : Request}
    (h : ∀ s ∈ r.suffixes, (names.typeName r.fieldName ++ s).toLower ∉ names.taken) :
    (names.reserve r.fieldName r.indices?).1 = names.typeName r.fieldName :=
  (firstFree_reserve names r).unique (.plain h)

theorem meets_of_reserve {names : FieldNames} {r : Request} {s : String}
    (hother : swiftName r.fieldName ≠ names.registerType) (hs : s ∈ r.suffixes)
    (heq : (names.reserve r.fieldName r.indices?).1 ++ s = names.registerType) :
    Meets names.registerType names.taken r := by
  have hfirst := firstFree_reserve names r
  rw [typeName_of_ne hother] at hfirst
  generalize (names.reserve r.fieldName r.indices?).1 = name at hfirst heq
  -- The plain name is the register's by its case or with an index, any other by its number.
  cases hfirst with
  | plain hfree =>
      cases hreplicas : r.replicas with
      | none =>
          rw [suffixes_of_none hreplicas] at hs hfree
          obtain rfl := List.mem_singleton.mp hs
          have hplain := hfree "" (List.mem_singleton_self _)
          rw [heq] at hplain
          rw [String.append_empty] at heq
          obtain ⟨hlower, hupper⟩ := of_raised_eq heq hother
          exact .upperCase hreplicas hlower hupper hplain
      | some n =>
          rcases (mem_suffixes_of_some hreplicas).mp hs with ⟨i, hi, rfl⟩
          refine .replica hreplicas hi heq fun j hj => ?_
          exact hfree _ ((mem_suffixes_of_some hreplicas).mpr ⟨j, hj, rfl⟩)
  | numbered hk hplain hless hfree => exact .numbered hs heq (.numbered hk hplain hless hfree)

theorem reserve_of_meets {names : FieldNames} {r : Request}
    (hother : swiftName r.fieldName ≠ names.registerType)
    (h : Meets names.registerType names.taken r) :
    ∃ s ∈ r.suffixes, (names.reserve r.fieldName r.indices?).1 ++ s = names.registerType := by
  have htype := names.typeName_of_ne hother
  cases h with
  | upperCase hreplicas hlower hname hfree =>
      have hraised : raised (swiftName r.fieldName) = names.registerType :=
        (if_pos hlower).trans hname
      rw [suffixes_of_none hreplicas, reserve_of_free, htype, hraised]
      · exact ⟨"", List.mem_singleton_self _, String.append_empty⟩
      · rw [suffixes_of_none hreplicas, htype, hraised]
        simpa using hfree
  | replica hreplicas hi hname hfree =>
      refine ⟨_, (mem_suffixes_of_some hreplicas).mpr ⟨_, hi, rfl⟩, ?_⟩
      rw [reserve_of_free, htype, hname]
      intro s hs
      rcases (mem_suffixes_of_some hreplicas).mp hs with ⟨j, hj, rfl⟩
      rw [htype]
      exact hfree j hj
  | numbered hs hname hnumbered =>
      have hfirst := firstFree_reserve names r
      rw [htype] at hfirst
      rw [hfirst.unique hnumbered]
      exact ⟨_, hs, hname⟩

/-- A field that is named like the register does not get its name. -/
theorem reserve_ne_registerType (names : FieldNames) (r : Request) (s : String)
    (h : swiftName r.fieldName = names.registerType) :
    (names.reserve r.fieldName r.indices?).1 ++ s ≠ names.registerType := by
  intro heq
  have hlength := congrArg String.length heq
  have hbase : (names.registerType ++ collisionSuffix).length ≤
      (names.reserve r.fieldName r.indices?).1.length := by
    have hfirst := firstFree_reserve names r
    rw [typeName_of_eq h] at hfirst
    generalize (names.reserve r.fieldName r.indices?).1 = name at hfirst
    cases hfirst with
    | plain _ => exact Nat.le_refl _
    | numbered => simp only [String.length_append]; omega
  have hsuffix : collisionSuffix.length = 6 := by decide
  simp only [String.length_append] at hlength hbase
  omega

theorem forall_mem_const_iff {α : Type} {xs : List α} {P : Prop} :
    (∀ x ∈ xs, P) ↔ xs = [] ∨ P := by
  cases xs with
  | nil => simp
  | cons x xs =>
      constructor
      · intro h
        exact .inr (h x (List.mem_cons_self ..))
      · rintro (hnil | h) _ _
        · cases hnil
        · exact h

/-- When the names given to one field are told from its register and from their own properties. -/
theorem reserve_apart_iff (names : FieldNames) (r : Request) :
    (∀ s ∈ r.suffixes,
        (names.reserve r.fieldName r.indices?).1 ++ s ≠ names.registerType ∧
          (names.reserve r.fieldName r.indices?).1 ++ s ≠
            instanceName ((names.reserve r.fieldName r.indices?).1 ++ s)) ↔
      swiftName r.fieldName = names.registerType ∨
        (r.replicas = some 0 ∨ HasLetter (swiftName r.fieldName)) ∧
          ¬Meets names.registerType names.taken r := by
  rw [forall₂_and]
  by_cases hname : swiftName r.fieldName = names.registerType
  · refine iff_of_true ⟨?_, ?_⟩ (.inl hname)
    · intro s _
      exact reserve_ne_registerType names r s hname
    · intro s hs heq
      exact ((reserve_eq_instanceName_iff names r hs).mp heq).1 hname
  · rw [or_iff_right hname, and_comm]
    refine and_congr ?_ ?_
    · rw [← suffixes_eq_nil_iff, ← forall_mem_const_iff]
      refine forall₂_congr fun s hs => ?_
      rw [ne_eq, reserve_eq_instanceName_iff names r hs, not_and, not_not]
      exact forall_prop_of_true hname
    · constructor
      · intro h hmeets
        rcases reserve_of_meets hname hmeets with ⟨s, hs, heq⟩
        exact h s hs heq
      · intro h s hs heq
        exact h (meets_of_reserve hname hs heq)

/-! ## Runs -/

/-- The names given in a run are those given to its requests, each when its turn comes. -/
theorem forall_mem_given {names : FieldNames} {requests : List Request} {P : String → Prop} :
    (∀ type ∈ names.given requests, P type) ↔
      ∀ earlier r later, requests = earlier ++ r :: later → ∀ s ∈ r.suffixes,
        P (((names.after earlier).reserve r.fieldName r.indices?).1 ++ s) := by
  induction requests generalizing names with
  | nil => simp [given]
  | cons first requests ih =>
      simp only [given, List.forall_mem_append, List.forall_mem_map, ih]
      constructor
      · rintro ⟨hfirst, hrest⟩ earlier r later hsplit
        rcases List.cons_eq_append_iff.mp hsplit with ⟨rfl, heq⟩ | ⟨earlier, rfl, heq⟩
        · cases heq
          exact hfirst
        · exact hrest earlier r later heq
      · intro h
        refine ⟨h [] first requests rfl, fun earlier r later hsplit => ?_⟩
        exact h (first :: earlier) r later (by rw [hsplit]; rfl)

/--
All names given in a run are told from the register and from their own properties
exactly if each field is named like the register, or has a letter (unless it has no
replicas) and does not get the register's name by its upper case, an index or a number.
-/
theorem given_apart_iff (register : String) (requests : List Request) :
    (∀ type ∈ given { registerType := swiftName register } requests,
        type ≠ swiftName register ∧ type ≠ instanceName type) ↔
      ∀ earlier r later, requests = earlier ++ r :: later →
        swiftName r.fieldName = swiftName register ∨
          (r.replicas = some 0 ∨ HasLetter (swiftName r.fieldName)) ∧
            ¬Meets (swiftName register)
              (after { registerType := swiftName register } earlier).taken r := by
  rw [forall_mem_given]
  refine forall₄_congr fun earlier r later _ => ?_
  have hstep := reserve_apart_iff (after { registerType := swiftName register } earlier) r
  rwa [registerType_after] at hstep

/-- An upper case that meets the register, and a name that has none. -/
theorem given_meets_register :
    given { registerType := swiftName "CTRL" } [⟨"ctrl", none⟩, ⟨"1", none⟩] =
        [swiftName "CTRL", instanceName "_1"] ∧
      ¬∀ type ∈ given { registerType := swiftName "CTRL" } [⟨"ctrl", none⟩, ⟨"1", none⟩],
        type ≠ swiftName "CTRL" ∧ type ≠ instanceName type := by
  have hgiven : given { registerType := swiftName "CTRL" } [⟨"ctrl", none⟩, ⟨"1", none⟩] =
    [swiftName "CTRL", instanceName "_1"] := by decide +kernel
  refine ⟨hgiven, fun h => ?_⟩
  rw [hgiven] at h
  exact (h _ (List.mem_cons_self ..)).1 rfl

/-- The index of a replica and the number of a second field do so too. -/
example : given { registerType := "PIN0" } [⟨"PIN[%s]", some 2⟩] = ["PIN0", "PIN1"] ∧
    given { registerType := "A_2" } [⟨"A", none⟩, ⟨"A", none⟩] = ["A", "A_2"] := by
  decide +kernel

end FieldNames

end RegisterMap.Swift
