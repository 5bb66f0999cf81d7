import RegisterMap.Proofs.Swift.FieldNames

/-!
# Names of replicas beside other names

An element without replicas is declared by its own name, one with replicas by this name
with the index of each replica behind it.  Elements of different names may still be
declared alike: a name that goes on with a number is what a replica is called.
-/

namespace RegisterMap.Swift

open RegisterMap.Number
open FieldNames (suffixes nodup_suffixes_range)

/-- The names that an element is declared by: a name, and the number of its replicas if any. -/
structure NameFamily where
  base : String
  replicas : Option Nat := none
  deriving DecidableEq, Repr

namespace NameFamily

variable {a b : NameFamily} {name : String}

def names (a : NameFamily) : List String :=
  (suffixes (a.replicas.map List.range)).map (a.base ++ ·)

theorem nodup_names (a : NameFamily) : a.names.Nodup :=
  (nodup_suffixes_range a.replicas).map fun _ _ h => (String.append_right_inj a.base).mp h

theorem mem_names_of_single (h : a.replicas = none) : name ∈ a.names ↔ name = a.base := by
  simp [names, h, suffixes]

theorem mem_names_of_replicas {n : Nat} (h : a.replicas = some n) :
    name ∈ a.names ↔ ∃ i < n, name = a.base ++ toString i := by
  simp [names, h, suffixes, eq_comm (a := name)]

theorem isName_of_mem (a : NameFamily) (hbase : IsName a.base) (h : name ∈ a.names) :
    IsName name := by
  obtain ⟨s, hs, rfl⟩ := List.mem_map.mp h
  refine isName_append.mpr ⟨hbase, ?_⟩
  cases hreplicas : a.replicas with
  | none =>
      rw [hreplicas] at hs
      rw [List.mem_singleton.mp hs]
      decide
  | some n =>
      rw [hreplicas] at hs
      obtain ⟨i, -, rfl⟩ := List.mem_map.mp hs
      exact isName_toString i

/-- True of an element that is called like some replica of another one: the number behind
the name of the other, with the index zero behind it for an element with replicas, is the
index of a replica of the other. -/
def CalledLike (a b : NameFamily) : Prop :=
  ∃ k n, a.base = b.base ++ toString k ∧ b.replicas = some n ∧
    match a.replicas with
    | none => k < n
    | some m => 0 < m ∧ 0 < k ∧ 10 * k < n

theorem CalledLike.exists_mem (h : a.CalledLike b) : ∃ name ∈ a.names, name ∈ b.names := by
  obtain ⟨k, n, hbase, hn, hindex⟩ := h
  cases hm : a.replicas with
  | none =>
      rw [hm] at hindex
      refine ⟨a.base, (mem_names_of_single hm).mpr rfl, ?_⟩
      exact (mem_names_of_replicas hn).mpr ⟨k, hindex, hbase⟩
  | some m =>
      rw [hm] at hindex
      obtain ⟨hpos, hk, hlt⟩ := hindex
      refine ⟨a.base ++ toString 0, (mem_names_of_replicas hm).mpr ⟨0, hpos, rfl⟩, ?_⟩
      refine (mem_names_of_replicas hn).mpr ⟨10 * k, hlt, ?_⟩
      rw [hbase, String.append_assoc, ← toString_append_zero hk]
      rfl

/-- If a name goes on behind another one and two of their replicas are called alike, then it
goes on with a number. -/
theorem calledLike_of_append {more s s' : String} (hmore : more ≠ "")
    (hbase : a.base = b.base ++ more) (hs : a.base ++ s ∈ a.names) (hs' : b.base ++ s' ∈ b.names)
    (heq : s' = more ++ s) : a.CalledLike b := by
  cases hn : b.replicas with
  | none =>
      rw [mem_names_of_single hn] at hs'
      have hnil : s' = "" := (String.append_right_inj b.base).mp (by simpa using hs')
      rw [hnil] at heq
      exact absurd (String.append_eq_empty_iff.mp heq.symm).1 hmore
  | some n =>
      obtain ⟨j, hj, hindex⟩ := (mem_names_of_replicas hn).mp hs'
      rw [String.append_right_inj] at hindex
      cases hm : a.replicas with
      | none =>
          rw [mem_names_of_single hm] at hs
          have hnil : s = "" := (String.append_right_inj a.base).mp (by simpa using hs)
          rw [heq, hnil, String.append_empty] at hindex
          refine ⟨j, n, by rw [hbase, hindex], hn, ?_⟩
          rwa [hm]
      | some m =>
          obtain ⟨i, hi, hown⟩ := (mem_names_of_replicas hm).mp hs
          rw [String.append_right_inj] at hown
          rw [heq, hown] at hindex
          obtain ⟨k, hk, hfront, hle⟩ := exists_toString_front hmore hindex
          refine ⟨k, n, by rw [hbase, hfront], hn, ?_⟩
          rw [hm]
          exact ⟨by omega, hk, by omega⟩

/-- Elements of different names share a name exactly if one is called like a replica of
the other. -/
theorem exists_mem_names_iff (hne : a.base ≠ b.base) :
    (∃ name ∈ a.names, name ∈ b.names) ↔ a.CalledLike b ∨ b.CalledLike a := by
  constructor
  · rintro ⟨name, ha, hb⟩
    obtain ⟨s, -, rfl⟩ := List.mem_map.mp ha
    obtain ⟨s', -, heq⟩ := List.mem_map.mp hb
    have hchars := congrArg String.toList heq
    simp only [String.toList_append] at hchars
    -- One of the two names is the front of the other.
    rcases List.append_eq_append_iff.mp hchars with ⟨more, hbase, hrest⟩ | ⟨more, hbase, hrest⟩
    · have hbase : a.base = b.base ++ String.ofList more := by
        simpa [← String.toList_inj] using hbase
      have hrest : s' = String.ofList more ++ s := by
        simpa [← String.toList_inj] using hrest
      refine .inl (calledLike_of_append ?_ hbase ha (heq ▸ hb) hrest)
      intro hnil
      exact hne (by rw [hbase, hnil, String.append_empty])
    · have hbase : b.base = a.base ++ String.ofList more := by
        simpa [← String.toList_inj] using hbase
      have hrest : s = String.ofList more ++ s' := by
        simpa [← String.toList_inj] using hrest
      refine .inr (calledLike_of_append ?_ hbase (heq ▸ hb) ha hrest)
      intro hnil
      exact hne (by rw [hbase, hnil, String.append_empty])
  · rintro (h | h)
    · exact h.exists_mem
    · obtain ⟨name, hb, ha⟩ := h.exists_mem
      exact ⟨name, ha, hb⟩

/-- True of elements none of which is called like a replica of another one. -/
def Apart (families : List NameFamily) : Prop :=
  ∀ a ∈ families, ∀ b ∈ families, ¬a.CalledLike b

/-- Elements of different names are declared by different names exactly if none of them is
called like a replica of another one. -/
theorem nodup_flatMap_names_iff {families : List NameFamily}
    (hbases : (families.map (·.base)).Nodup) :
    (families.flatMap names).Nodup ↔ Apart families := by
  rw [List.nodup_flatMap, and_iff_right fun a _ => a.nodup_names]
  have hdifferent : ∀ {a b}, a ∈ families → b ∈ families → a ≠ b → a.base ≠ b.base :=
    fun ha hb hne heq => hne (List.inj_on_of_nodup_map hbases ha hb heq)
  constructor
  · intro hpairs a ha b hb hlike
    have hne : a ≠ b := by
      rintro rfl
      obtain ⟨k, n, hbase, -⟩ := hlike
      exact toString_ne_empty k (String.append_eq_left_iff.mp hbase.symm)
    obtain ⟨name, hmem, hmem'⟩ := hlike.exists_mem
    have hsymm : Std.Symm (Function.onFun List.Disjoint names) := ⟨fun _ _ h => h.symm⟩
    exact hpairs.forall ha hb hne hmem hmem'
  · intro hapart
    refine hbases.of_map.pairwise_of_forall_ne fun a ha b hb hne name hmem hmem' => ?_
    rcases (exists_mem_names_iff (hdifferent ha hb hne)).mp ⟨name, hmem, hmem'⟩ with hlike | hlike
    · exact hapart a ha b hb hlike
    · exact hapart b hb a ha hlike

end NameFamily

end RegisterMap.Swift
