import Mathlib.Combinatorics.Enumerative.DoubleCounting
import Mathlib.Data.List.Nodup
import Mathlib.Order.Interval.Finset.Nat
import RegisterMap.Proofs.Swift.Identifier
import RegisterMap.Swift.FieldNames

/-!
# Field names that stay apart

The names that the fields of a register are given, replica indices included, are
different from each other even without regard to case.  The invariant is that the
taken names are those of all fields so far in lower case; a name is only given if
none of its replicas is among them.
-/

namespace RegisterMap.Swift.FieldNames

open RegisterMap.Number

/-! ## Names in lower case -/

theorem toList_toLower (s : String) : s.toLower.toList = s.toList.map Char.toLower :=
  String.toList_map

theorem length_toLower (s : String) : s.toLower.length = s.length := by
  rw [← String.length_toList, ← String.length_toList, toList_toLower, List.length_map]

theorem toLower_append (s t : String) : (s ++ t).toLower = s.toLower ++ t.toLower := by
  rw [String.ext_iff, String.toList_append]
  simp only [toList_toLower, String.toList_append, List.map_append]

theorem toLower_of_isDigit {c : Char} (h : c.isDigit = true) : c.toLower = c := by
  simp only [Char.isDigit, Bool.and_eq_true, decide_eq_true_eq] at h
  unfold Char.toLower
  rw [dif_neg]
  intro hupper
  exact absurd (UInt32.le_trans hupper.1 h.2) (by decide)

theorem toLower_toString (n : Nat) : (toString n).toLower = toString n := by
  have hdigits : ∀ c ∈ (toString n).toList, c.toLower = c :=
    fun c hc => toLower_of_isDigit (isDigit_of_mem_toString hc)
  rw [String.ext_iff, toList_toLower, List.map_congr_left hdigits, List.map_id']

/-! ## Replicas of one name -/

theorem nodup_suffixes_range (replicas : Option Nat) :
    (suffixes (replicas.map List.range)).Nodup := by
  cases replicas with
  | none => exact List.nodup_singleton ""
  | some n => exact List.nodup_range.map fun _ _ h => eq_of_toString_eq h

theorem toLower_suffix {indices? : Option (List Nat)} {s : String} (h : s ∈ suffixes indices?) :
    s.toLower = s := by
  cases indices? with
  | none =>
      obtain rfl := List.mem_singleton.mp h
      rw [String.ext_iff, toList_toLower]
      rfl
  | some indices =>
      rcases List.mem_map.mp h with ⟨i, -, rfl⟩
      exact toLower_toString i

theorem nodup_family (name : String) (replicas : Option Nat) :
    (family name (suffixes (replicas.map List.range))).Nodup := by
  refine (nodup_suffixes_range replicas).map_on ?_
  intro s hs t ht h
  rw [toLower_append, toLower_append, String.append_right_inj, toLower_suffix hs,
    toLower_suffix ht] at h
  exact h

/-! ## Candidates -/

theorem candidate_one (base : String) : candidate base 1 = base := rfl

theorem candidate_numbered (base : String) {k : Nat} (h : 2 ≤ k) :
    candidate base k = base ++ "_" ++ toString k := by
  unfold candidate
  rw [if_neg (by omega)]

theorem length_lt_length_candidate (base : String) {k : Nat} (h : 2 ≤ k) :
    base.length < (candidate base k).length := by
  rw [candidate_numbered base h, String.length_append, String.length_append]
  have hmark : "_".length = 1 := by decide
  omega

/-- Candidates with different numbers differ, without regard to case. -/
theorem candidate_injective {base : String} {j k : Nat} (hj : 1 ≤ j) (hk : 1 ≤ k)
    (h : (candidate base j).toLower = (candidate base k).toLower) : j = k := by
  have hlength := congrArg String.length h
  rw [length_toLower, length_toLower] at hlength
  by_cases hj2 : 2 ≤ j
  · by_cases hk2 : 2 ≤ k
    · rw [candidate_numbered base hj2, candidate_numbered base hk2, toLower_append, toLower_append,
        toLower_append _ (toString k), toLower_append, String.append_right_inj, toLower_toString,
        toLower_toString] at h
      exact eq_of_toString_eq h
    · obtain rfl : k = 1 := by omega
      have hlt := length_lt_length_candidate base hj2
      rw [candidate_one] at hlength
      omega
  · obtain rfl : j = 1 := by omega
    by_cases hk2 : 2 ≤ k
    · have hlt := length_lt_length_candidate base hk2
      rw [candidate_one] at hlength
      omega
    · omega

/-! ## The search for a free name -/

theorem isFree_iff {names : FieldNames} {base : String} {ends : List String} {k : Nat} :
    names.isFree base ends k = true ↔
      ∀ s ∈ ends, (candidate base k ++ s).toLower ∉ names.taken := by
  simp [isFree, family]

/-- How a search goes on from a number, one by one: it ends at the first that passes a test. -/
inductive SearchEnds (test : Nat → Bool) : Nat → Nat → Prop
  | found {k : Nat} (h : test k = true) : SearchEnds test k k
  | passed {k last : Nat} (h : test k = false) (hrest : SearchEnds test (k + 1) last) :
      SearchEnds test k last

theorem SearchEnds.passes {test : Nat → Bool} {k last : Nat} (h : SearchEnds test k last) :
    test last = true := by
  induction h with
  | found h => exact h
  | passed _ _ ih => exact ih

/-- The bounded search is the search, if something within the bound passes the test. -/
theorem searchEnds_firstPassing {test : Nat → Bool} {remaining k : Nat}
    (h : ∃ j, k ≤ j ∧ j ≤ k + remaining ∧ test j = true) :
    SearchEnds test k (firstPassing test remaining k) := by
  induction remaining generalizing k with
  | zero =>
      rcases h with ⟨j, hle, hge, hj⟩
      obtain rfl : j = k := by omega
      exact .found hj
  | succ remaining ih =>
      unfold firstPassing
      split
      · exact .found ‹_›
      · rename_i hfails
        refine .passed (Bool.eq_false_iff.mpr hfails) (ih ?_)
        rcases h with ⟨j, hle, hge, hj⟩
        have hne : j ≠ k := by
          intro heq
          subst heq
          exact hfails hj
        exact ⟨j, by omega, by omega, hj⟩

/--
With a given suffix, a taken name rules out one candidate at most.  So among more
candidates than there are pairs of a taken name and a suffix, one is free.
-/
theorem exists_isFree (names : FieldNames) (base : String) (ends : List String) :
    ∃ k, 1 ≤ k ∧ k ≤ 1 + names.taken.length * ends.length ∧
      names.isFree base ends k = true := by
  by_contra hnone
  have hruled : ∀ k ∈ Finset.Icc 1 (1 + names.taken.length * ends.length),
      ∃ pair ∈ names.taken.toFinset ×ˢ ends.toFinset,
        (candidate base k ++ pair.2).toLower = pair.1 := by
    intro k hk
    rw [Finset.mem_Icc] at hk
    by_contra hfree
    refine hnone ⟨k, hk.1, hk.2, isFree_iff.mpr ?_⟩
    intro s hs htaken
    exact hfree ⟨((candidate base k ++ s).toLower, s), by simp [htaken, hs], rfl⟩
  have hcount := Finset.card_le_card_of_forall_subsingleton
    (fun k (pair : String × String) => (candidate base k ++ pair.2).toLower = pair.1) hruled ?_
  · have hproduct : (names.taken.toFinset ×ˢ ends.toFinset).card ≤
        names.taken.length * ends.length := by
      rw [Finset.card_product]
      exact Nat.mul_le_mul names.taken.toFinset_card_le ends.toFinset_card_le
    rw [Nat.card_Icc] at hcount
    omega
  · intro pair _ j hj k hk
    have heq := hj.2.trans hk.2.symm
    rw [toLower_append, toLower_append, String.append_left_inj] at heq
    exact candidate_injective (Finset.mem_Icc.mp hj.1).1 (Finset.mem_Icc.mp hk.1).1 heq

theorem isFree_freeNumber (names : FieldNames) (base : String) (ends : List String) :
    names.isFree base ends (names.freeNumber base ends) = true :=
  (searchEnds_firstPassing (names.exists_isFree base ends)).passes

/-! ## Names given one after the other -/

/-- What a field asks for: a name of its own, or one for a number of replicas. -/
structure Request where
  fieldName : String
  replicas : Option Nat

namespace Request

def indices? (r : Request) : Option (List Nat) :=
  r.replicas.map List.range

def suffixes (r : Request) : List String :=
  FieldNames.suffixes r.indices?

end Request

/-- All names that some requests are given in turn, replica indices included. -/
def given (names : FieldNames) : List Request → List String
  | [] => []
  | r :: requests =>
      r.suffixes.map ((names.reserve r.fieldName r.indices?).1 ++ ·) ++
        (names.reserve r.fieldName r.indices?).2.given requests

theorem reserve_free (names : FieldNames) (r : Request) {s : String} (hs : s ∈ r.suffixes) :
    ((names.reserve r.fieldName r.indices?).1 ++ s).toLower ∉ names.taken :=
  isFree_iff.mp (names.isFree_freeNumber _ _) s hs

theorem mem_taken_reserve {names : FieldNames} {r : Request} {name : String} :
    name ∈ (names.reserve r.fieldName r.indices?).2.taken ↔
      (∃ s ∈ r.suffixes, ((names.reserve r.fieldName r.indices?).1 ++ s).toLower = name) ∨
        name ∈ names.taken := by
  simp only [reserve, family, List.mem_append, List.mem_map]
  rfl

theorem not_mem_taken_of_mem_given {names : FieldNames} {requests : List Request} {name : String}
    (h : name ∈ names.given requests) : name.toLower ∉ names.taken := by
  induction requests generalizing names with
  | nil => cases h
  | cons r requests ih =>
      rcases List.mem_append.mp h with h | h
      · rcases List.mem_map.mp h with ⟨s, hs, rfl⟩
        exact names.reserve_free r hs
      · intro htaken
        exact ih h (mem_taken_reserve.mpr (.inr htaken))

theorem nodup_given (names : FieldNames) (requests : List Request) :
    ((names.given requests).map String.toLower).Nodup := by
  induction requests generalizing names with
  | nil => exact List.nodup_nil
  | cons r requests ih =>
      rw [given, List.map_append, List.map_map]
      refine (nodup_family _ r.replicas).append (ih _) ?_
      -- A later name is not among those taken for this request.
      intro name hown hlater
      rcases List.mem_map.mp hown with ⟨s, hs, rfl⟩
      rcases List.mem_map.mp hlater with ⟨later, hmem, heq⟩
      have hfree := not_mem_taken_of_mem_given hmem
      rw [heq] at hfree
      exact hfree (mem_taken_reserve.mpr (.inl ⟨s, hs, rfl⟩))

/-! ## Names are identifiers -/

theorem isName_typeName (names : FieldNames) (fieldName : String) :
    IsName (names.typeName fieldName) := by
  have hname := isName_swiftName fieldName
  have hsuffixed : IsName (swiftName fieldName ++ collisionSuffix) :=
    isName_append.mpr ⟨hname, by decide⟩
  unfold typeName
  simp only
  split <;> split
  · exact hsuffixed.toUpper
  · exact hsuffixed
  · exact hname.toUpper
  · exact hname

theorem isName_candidate {base : String} (h : IsName base) (k : Nat) :
    IsName (candidate base k) := by
  unfold candidate
  split
  · exact h
  · simp only [isName_append]
    exact ⟨⟨h, by decide⟩, isName_toString k⟩

theorem isName_reserve (names : FieldNames) (fieldName : String)
    (indices? : Option (List Nat)) : IsName (names.reserve fieldName indices?).1 :=
  isName_candidate (names.isName_typeName fieldName) _

/-- Behind the name of a field there is nothing or the index of a replica. -/
theorem suffix_cases {r : Request} {s : String} (h : s ∈ r.suffixes) :
    s = "" ∨ ∃ i : Nat, s = toString i := by
  rcases r with ⟨fieldName, replicas⟩
  cases replicas with
  | none => exact .inl (List.mem_singleton.mp h)
  | some n =>
      rcases List.mem_map.mp h with ⟨i, -, rfl⟩
      exact .inr ⟨i, rfl⟩

theorem isName_suffix {r : Request} {s : String} (h : s ∈ r.suffixes) : IsName s := by
  rcases suffix_cases h with rfl | ⟨i, rfl⟩
  · decide
  · exact isName_toString i

theorem isName_of_mem_given {names : FieldNames} {requests : List Request} {name : String}
    (h : name ∈ names.given requests) : IsName name := by
  induction requests generalizing names with
  | nil => cases h
  | cons r requests ih =>
      rcases List.mem_append.mp h with h | h
      · rcases List.mem_map.mp h with ⟨s, hs, rfl⟩
        exact isName_append.mpr ⟨isName_reserve .., isName_suffix hs⟩
      · exact ih h

end RegisterMap.Swift.FieldNames
