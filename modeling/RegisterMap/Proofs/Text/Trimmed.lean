import Mathlib.Data.List.DropRight
import Mathlib.Tactic.MkIffOfInductiveProp
import RegisterMap.Text.Blank

/-!
# Trimmed texts

A trimmed text has something in it and no blank at either end.  Trimming leaves
such a text as it is, and whatever else it leaves is empty or trimmed.
-/

namespace RegisterMap.Text

/-- True of characters that are there and neither start nor end with a blank. -/
@[mk_iff]
structure IsStripped (cs : List Char) : Prop where
  ne_nil : cs ≠ []
  first : ∀ c ∈ cs.head?, isBlank c = false
  last : ∀ c ∈ cs.getLast?, isBlank c = false

/-- True of a text that is not empty and has no blank around it. -/
def IsTrimmed (s : String) : Prop :=
  IsStripped s.toList

instance (cs : List Char) : Decidable (IsStripped cs) :=
  decidable_of_iff
    (cs ≠ [] ∧ cs.head?.all (!isBlank ·) = true ∧ cs.getLast?.all (!isBlank ·) = true)
    (by simp only [isStripped_iff, Option.all_eq_true, Option.mem_def, Bool.not_eq_true'])

instance (s : String) : Decidable (IsTrimmed s) :=
  inferInstanceAs (Decidable (IsStripped s.toList))

/-- A text without blanks is stripped. -/
theorem isStripped_of_forall {cs : List Char} (hne : cs ≠ []) (h : ∀ c ∈ cs, isBlank c = false) :
    IsStripped cs where
  ne_nil := hne
  first c hc := h c (List.mem_of_mem_head? hc)
  last c hc := h c (List.mem_of_mem_getLast? hc)

theorem stripEnd_eq_rdropWhile (cs : List Char) : stripEnd cs = cs.rdropWhile isBlank := rfl

theorem stripEnd_append {back : List Char} (hback : ∀ c ∈ back, isBlank c = true)
    (cs : List Char) : stripEnd (cs ++ back) = stripEnd cs := by
  rw [stripEnd, List.reverse_append, List.dropWhile_append_of_pos (by simpa using hback), stripEnd]

/-- Stripping takes away the blanks that are put on both sides of a text with its own. -/
theorem strip_padded {front back : List Char} (hfront : ∀ c ∈ front, isBlank c = true)
    (hback : ∀ c ∈ back, isBlank c = true) (cs : List Char) :
    strip (front ++ (cs ++ back)) = strip cs := by
  rw [strip, List.dropWhile_append_of_pos hfront, List.dropWhile_append, strip]
  split
  · rename_i hempty
    rw [List.isEmpty_iff.mp hempty, List.dropWhile_eq_nil_iff.mpr hback]
  · exact stripEnd_append hback _

theorem strip_of_isStripped {cs : List Char} (h : IsStripped cs) : strip cs = cs := by
  have hfront : cs.dropWhile isBlank = cs := by
    cases cs with
    | nil => exact absurd rfl h.ne_nil
    | cons c cs => exact List.dropWhile_cons_of_neg (by simp [h.first c rfl])
  rw [strip, hfront, stripEnd_eq_rdropWhile, List.rdropWhile_eq_self_iff]
  intro hne
  simp [h.last _ (List.getLast?_eq_some_getLast hne)]

/-- Stripping takes the blanks on both sides of a stripped text away. -/
theorem strip_surrounded {front cs back : List Char} (hfront : ∀ c ∈ front, isBlank c = true)
    (h : IsStripped cs) (hback : ∀ c ∈ back, isBlank c = true) :
    strip (front ++ (cs ++ back)) = cs := by
  rw [strip_padded hfront hback, strip_of_isStripped h]

/-- What stripping takes away are blanks. -/
theorem mem_strip_of_mem {cs : List Char} {c : Char} (hc : c ∈ cs) (hblank : isBlank c = false) :
    c ∈ strip cs := by
  have hfront : c ∈ cs.dropWhile isBlank := by
    rw [← List.takeWhile_append_dropWhile (p := isBlank) (l := cs), List.mem_append] at hc
    refine hc.resolve_left fun hc => ?_
    rw [List.mem_takeWhile_imp hc] at hblank
    cases hblank
  rw [strip, stripEnd_eq_rdropWhile]
  rw [← List.rdropWhile_append_rtakeWhile (p := isBlank) (l := cs.dropWhile isBlank),
    List.mem_append] at hfront
  refine hfront.resolve_right fun hc => ?_
  rw [List.mem_rtakeWhile_imp hc] at hblank
  cases hblank

theorem isStripped_strip {cs : List Char} (h : strip cs ≠ []) : IsStripped (strip cs) := by
  have hlast := List.rdropWhile_last_not isBlank (cs.dropWhile isBlank) h
  refine ⟨h, ?_, ?_⟩
  · intro c hc
    -- What is stripped at its end still starts as it did.
    have hprefix : strip cs <+: cs.dropWhile isBlank := List.rdropWhile_prefix _ _
    have hc' : c ∈ (cs.dropWhile isBlank).head? := by
      rcases hprefix with ⟨rest, hrest⟩
      rw [← hrest, List.head?_append_of_ne_nil _ h]
      exact hc
    have hhead := List.head?_dropWhile_not isBlank cs
    rw [Option.mem_def.mp hc'] at hhead
    simpa using hhead
  · intro c hc
    have hc' : (strip cs).getLast h = c := by
      rw [List.getLast?_eq_some_getLast h] at hc
      exact Option.some.inj hc
    rw [← hc']
    exact Bool.eq_false_iff.mpr hlast

theorem trim_of_isTrimmed {s : String} (h : IsTrimmed s) : trim s = s := by
  rw [trim, strip_of_isStripped h, String.ofList_toList]

theorem isEmpty_of_isTrimmed {s : String} (h : IsTrimmed s) : s.isEmpty = false := by
  rw [Bool.eq_false_iff, ne_eq, String.isEmpty_iff]
  rintro rfl
  exact h.ne_nil rfl

theorem isTrimmed_trim {s : String} (h : (trim s).isEmpty = false) : IsTrimmed (trim s) := by
  rw [IsTrimmed, toList_trim]
  apply isStripped_strip
  intro hnil
  rw [trim, hnil] at h
  exact absurd h (by decide)

end RegisterMap.Text
