import Mathlib.Data.List.Induction
import Mathlib.Data.Nat.Basic

/-!
# Decimal texts

The usual text of a natural number is made of digits, and different numbers have
different texts.  The front of the text of a number is the text of a smaller number, for
a text of several digits does not start with a zero.
-/

namespace RegisterMap.Number

theorem isDigit_of_mem_toString {n : Nat} {c : Char} (hc : c ∈ (toString n).toList) :
    c.isDigit = true := by
  rw [Nat.toString_eq_repr, Nat.toList_repr] at hc
  exact Nat.isDigit_of_mem_toDigits (by decide) (by decide) hc

theorem eq_of_toString_eq {m n : Nat} (h : toString m = toString n) : m = n := by
  have hdigits := congrArg String.toList h
  rw [Nat.toString_eq_repr, Nat.toString_eq_repr, Nat.toList_repr, Nat.toList_repr] at hdigits
  have hvalue := congrArg (fun digits => Nat.ofDigitChars 10 digits 0) hdigits
  simpa using hvalue

theorem toString_ne_empty (n : Nat) : toString n ≠ "" := by
  intro h
  have hdigits := congrArg String.toList h
  rw [Nat.toString_eq_repr, Nat.toList_repr] at hdigits
  exact Nat.toDigits_ne_nil hdigits

theorem toString_append_zero {k : Nat} (hk : 0 < k) : toString k ++ "0" = toString (10 * k) := by
  have hdigits := Nat.toDigits_append_toDigits (b := 10) (d := 0) (by decide) hk (by decide)
  rw [← String.toList_inj, String.toList_append]
  simp only [Nat.toString_eq_repr, Nat.toList_repr]
  exact hdigits

/-- By induction on the digits behind the front: without the last of them, the text is that
of a tenth of the number. -/
theorem exists_toDigits_front {front back : List Char} {j : Nat} (hfront : front ≠ [])
    (hback : back ≠ []) (h : front ++ back = Nat.toDigits 10 j) :
    ∃ k, 0 < k ∧ front = Nat.toDigits 10 k ∧ 10 * k ≤ j := by
  induction back using List.reverseRecOn generalizing j with
  | nil => exact absurd rfl hback
  | append_singleton back digit ih =>
      rw [Nat.toDigits_eq_if (by decide), ← List.append_assoc] at h
      split at h
      · have hlength := congrArg List.length h
        have hpos := List.length_pos_iff.mpr hfront
        simp only [List.length_append, List.length_singleton] at hlength
        omega
      · obtain ⟨hrest, -⟩ := List.append_inj' h rfl
        by_cases hnil : back = []
        · rw [hnil, List.append_nil] at hrest
          exact ⟨j / 10, by omega, hrest, by omega⟩
        · obtain ⟨k, hk, hdigits, hle⟩ := ih hnil hrest
          exact ⟨k, hk, hdigits, by omega⟩

/-- A text in front of the text of a number can only be that of a number itself. -/
theorem exists_toString_front {front : String} {i j : Nat} (hfront : front ≠ "")
    (h : front ++ toString i = toString j) : ∃ k, 0 < k ∧ front = toString k ∧ 10 * k ≤ j := by
  have hdigits := congrArg String.toList h
  simp only [String.toList_append, Nat.toString_eq_repr, Nat.toList_repr] at hdigits
  obtain ⟨k, hk, hchars, hle⟩ :=
    exists_toDigits_front (by simpa using hfront) Nat.toDigits_ne_nil hdigits
  refine ⟨k, hk, ?_, hle⟩
  rw [← String.toList_inj, hchars, Nat.toString_eq_repr, Nat.toList_repr]

end RegisterMap.Number
