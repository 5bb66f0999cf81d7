import RegisterMap.Proofs.Swift.FieldNames

/-!
# The first free name

A table of names looks for a free name one candidate after the other, and nothing in
the search itself says that it ends.  It does: with a given suffix a taken name rules
out one candidate at most.  So a field is given its plain type name, or else the type
name with the least number that is free, and its names are added to the table.
-/

namespace RegisterMap.Swift.FieldNames

/-! ## The search as a loop -/

section

variable {test : Nat → Bool} {k last : Nat}

theorem SearchEnds.le (h : SearchEnds test k last) : k ≤ last := by
  induction h with
  | found _ => exact Nat.le_refl _
  | passed _ _ ih => omega

theorem SearchEnds.fails (h : SearchEnds test k last) {j : Nat} (hk : k ≤ j) (hj : j < last) :
    test j = false := by
  induction h with
  | found _ => omega
  | passed hfails _ ih =>
      rcases Nat.eq_or_lt_of_le hk with rfl | hlater
      · exact hfails
      · exact ih hlater hj

theorem SearchEnds.unique {other : Nat} (h : SearchEnds test k last)
    (hother : SearchEnds test k other) : last = other := by
  rcases Nat.lt_trichotomy last other with hlt | heq | hlt
  · have hpasses := h.passes
    rw [hother.fails h.le hlt] at hpasses
    cases hpasses
  · exact heq
  · have hpasses := hother.passes
    rw [h.fails hother.le hlt] at hpasses
    cases hpasses

theorem firstPassing_le {remaining : Nat} : firstPassing test remaining k ≤ k + remaining := by
  induction remaining generalizing k with
  | zero => exact Nat.le_refl _
  | succ remaining ih =>
      rw [firstPassing]
      split
      · omega
      · have hle := ih (k := k + 1)
        omega

end

/-- The search from the plain name on ends with the number that is given out, and with no other. -/
theorem searchEnds_iff {names : FieldNames} {base : String} {ends : List String} {k : Nat} :
    SearchEnds (names.isFree base ends) 1 k ↔ k = names.freeNumber base ends := by
  have hends : SearchEnds (names.isFree base ends) 1 (names.freeNumber base ends) :=
    searchEnds_firstPassing (names.exists_isFree base ends)
  constructor
  · intro h
    exact h.unique hends
  · rintro rfl
    exact hends

/-! ## The name that is given -/

/--
True of the name that a base gets while some names are taken: the base itself, or else
the base with the least number from two on, if none of its replicas is taken.
-/
inductive FirstFree (taken : List String) (base : String) (ends : List String) : String → Prop
  | plain (hfree : ∀ s ∈ ends, (base ++ s).toLower ∉ taken) : FirstFree taken base ends base
  | numbered {k : Nat} (hk : 2 ≤ k) (hplain : ∃ s ∈ ends, (base ++ s).toLower ∈ taken)
      (hless : ∀ j, 2 ≤ j → j < k →
        ∃ s ∈ ends, (base ++ "_" ++ toString j ++ s).toLower ∈ taken)
      (hfree : ∀ s ∈ ends, (base ++ "_" ++ toString k ++ s).toLower ∉ taken) :
      FirstFree taken base ends (base ++ "_" ++ toString k)

theorem isFree_eq_false_iff {names : FieldNames} {base : String} {ends : List String} {k : Nat} :
    names.isFree base ends k = false ↔
      ∃ s ∈ ends, (candidate base k ++ s).toLower ∈ names.taken := by
  rw [Bool.eq_false_iff, ne_eq, isFree_iff]
  simp only [not_forall, not_not, exists_prop]

theorem firstFree_of_searchEnds {names : FieldNames} {base : String} {ends : List String} {k : Nat}
    (h : SearchEnds (names.isFree base ends) 1 k) :
    FirstFree names.taken base ends (candidate base k) := by
  have hfree := isFree_iff.mp h.passes
  rcases Nat.eq_or_lt_of_le h.le with rfl | hk
  · exact .plain hfree
  · have hplain := isFree_eq_false_iff.mp (h.fails (Nat.le_refl 1) hk)
    rw [candidate_numbered base hk] at hfree ⊢
    refine .numbered hk hplain ?_ hfree
    intro j hj hlt
    have hpassed := isFree_eq_false_iff.mp (h.fails (by omega) hlt)
    rwa [candidate_numbered base hj] at hpassed

theorem firstFree_reserve (names : FieldNames) (r : Request) :
    FirstFree names.taken (names.typeName r.fieldName) r.suffixes
      (names.reserve r.fieldName r.indices?).1 :=
  firstFree_of_searchEnds (searchEnds_iff.mpr rfl)

theorem FirstFree.unique {taken ends : List String} {base name other : String}
    (h : FirstFree taken base ends name) (hother : FirstFree taken base ends other) :
    name = other := by
  cases h with
  | plain hfree =>
      cases hother with
      | plain _ => rfl
      | numbered _ hplain _ _ =>
          rcases hplain with ⟨s, hs, htaken⟩
          exact absurd htaken (hfree s hs)
  | @numbered k hk hplain hless hfree =>
      cases hother with
      | plain hfree =>
          rcases hplain with ⟨s, hs, htaken⟩
          exact absurd htaken (hfree s hs)
      | @numbered j hj _ hless' hfree' =>
          rcases Nat.lt_trichotomy k j with hlt | rfl | hlt
          · rcases hless' k hk hlt with ⟨s, hs, htaken⟩
            exact absurd htaken (hfree s hs)
          · rfl
          · rcases hless j hj hlt with ⟨s, hs, htaken⟩
            exact absurd htaken (hfree' s hs)

/-! ## Suffixes -/

theorem suffixes_of_none {r : Request} (h : r.replicas = none) : r.suffixes = [""] := by
  rw [Request.suffixes, Request.indices?, h]
  rfl

theorem mem_suffixes_of_some {r : Request} {n : Nat} (h : r.replicas = some n) {s : String} :
    s ∈ r.suffixes ↔ ∃ i < n, toString i = s := by
  rw [Request.suffixes, Request.indices?, h]
  simp [suffixes]

theorem suffixes_eq_nil_iff {r : Request} : r.suffixes = [] ↔ r.replicas = some 0 := by
  rcases r with ⟨fieldName, _ | n⟩
  · simp [Request.suffixes, Request.indices?, suffixes]
  · simp [Request.suffixes, Request.indices?, suffixes]

/-! ## Tables that can be reached -/

/-- The table of names after some requests. -/
def after (names : FieldNames) : List Request → FieldNames
  | [] => names
  | r :: requests => (names.reserve r.fieldName r.indices?).2.after requests

theorem registerType_after (names : FieldNames) (requests : List Request) :
    (names.after requests).registerType = names.registerType := by
  induction requests generalizing names with
  | nil => rfl
  | cons r requests ih => exact ih _

/-- What is taken after some requests: what was taken, and the names given to them. -/
theorem mem_taken_after {names : FieldNames} {requests : List Request} {name : String} :
    name ∈ (names.after requests).taken ↔
      (∃ type ∈ names.given requests, type.toLower = name) ∨ name ∈ names.taken := by
  induction requests generalizing names with
  | nil => simp [after, given]
  | cons r requests ih =>
      rw [after, ih, mem_taken_reserve, given]
      simp only [List.mem_append, List.mem_map, or_and_right, exists_or, exists_exists_and_eq_and]
      exact or_left_comm.trans or_assoc.symm

/--
From every table that some requests lead to, the search ends, within a number of steps
that the taken names and the suffixes bound.  The name that is given is the first free
one.  Exactly its replicas are added to what is taken, so that all names given before
stay reserved, and without any replica nothing changes.
-/
theorem reserve_firstFree (registerType : String) (earlier : List Request) (r : Request) :
    let names := after { registerType } earlier
    let base := names.typeName r.fieldName
    let name := (names.reserve r.fieldName r.indices?).1
    let next := (names.reserve r.fieldName r.indices?).2
    (∃ k ≤ 1 + names.taken.length * r.suffixes.length,
        SearchEnds (names.isFree base r.suffixes) 1 k) ∧
      (∀ k, SearchEnds (names.isFree base r.suffixes) 1 k → name = candidate base k) ∧
      FirstFree names.taken base r.suffixes name ∧
      (∀ taken, taken ∈ next.taken ↔
        (∃ s ∈ r.suffixes, (name ++ s).toLower = taken) ∨ taken ∈ names.taken) ∧
      (∀ type ∈ given { registerType } earlier, type.toLower ∈ next.taken) ∧
      next.registerType = registerType ∧
      (r.replicas = some 0 → name = base ∧ next = names) := by
  intro names base name next
  have hfirst := firstFree_reserve names r
  refine ⟨⟨_, firstPassing_le, searchEnds_iff.mpr rfl⟩, ?_, hfirst, fun _ => mem_taken_reserve,
    ?_, registerType_after _ earlier, ?_⟩
  · intro k hk
    rw [searchEnds_iff.mp hk]
    rfl
  · intro type htype
    exact mem_taken_reserve.mpr (.inr (mem_taken_after.mpr (.inl ⟨type, htype, rfl⟩)))
  · intro hnone
    have hsuffixes := suffixes_eq_nil_iff.mpr hnone
    rw [hsuffixes] at hfirst
    refine ⟨hfirst.unique (.plain (List.forall_mem_nil _)), ?_⟩
    change { names with taken := family name r.suffixes ++ names.taken } = names
    rw [hsuffixes]
    rfl

end RegisterMap.Swift.FieldNames
