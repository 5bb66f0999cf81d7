import Mathlib.Algebra.Ring.Nat
import RegisterMap.Number.Hex
import RegisterMap.Proofs.Number.Numeral

/-!
# Hexadecimal literals

A literal of source text holds a number in as few groups of four digits as possible.
It is of the grammar of scaled integers, so it is read back as the number that it was
written for, and different numbers have different literals.
-/

namespace RegisterMap.Number

open RegisterMap.Text

/-! ## Groups -/

/-- The digits of literals.  The letters among them are small. -/
def literalDigits : List Char :=
  ['0', '1', '2', '3', '4', '5', '6', '7', '8', '9', 'a', 'b', 'c', 'd', 'e', 'f']

/-- True of groups of four digits that stand for a number when they are put together. -/
structure Groups (groups : List (List Char)) (n : Nat) : Prop where
  ne_nil : groups ≠ []
  four : ∀ group ∈ groups, group.length = 4
  plain : ∀ group ∈ groups, ∀ c ∈ group, c ∈ literalDigits
  value : ∃ digits, Radix.hexadecimal.Digits groups.flatten digits ∧
    Numeral.ofDigits Radix.hexadecimal.base digits = n

/-- True of groups for a number if no fewer groups can stand for it. -/
structure FewestGroups (groups : List (List Char)) (n : Nat) : Prop extends Groups groups n where
  fewest : ∀ others, Groups others n → groups.length ≤ others.length

/-! ## Values of digits -/

theorem Numeral.ofDigits_replicate_zero (base count : Nat) (digits : List Nat) :
    ofDigits base (List.replicate count 0 ++ digits) = ofDigits base digits := by
  induction count with
  | zero => rfl
  | succ count ih =>
      rw [List.replicate_succ, List.cons_append, ofDigits, List.foldl_cons, Nat.zero_mul]
      exact ih

theorem Numeral.ofDigits_lt_pow {base : Nat} {digits : List Nat}
    (h : ∀ d ∈ digits, d < base) : ofDigits base digits < base ^ digits.length := by
  induction digits using List.reverseRecOn with
  | nil => exact Nat.one_pos
  | append_singleton digits d ih =>
      rw [List.forall_mem_append, List.forall_mem_singleton] at h
      have hfront : ofDigits base digits + 1 ≤ base ^ digits.length := ih h.1
      have hscaled := Nat.mul_le_mul_right base hfront
      have hlast := h.2
      rw [ofDigits_append, List.length_append, List.length_singleton, Nat.pow_succ]
      rw [Nat.add_mul, Nat.one_mul] at hscaled
      omega

/-- A number that some groups stand for is bounded by how many there are. -/
theorem Groups.lt_pow {groups : List (List Char)} {n : Nat} (h : Groups groups n) :
    n < Radix.hexadecimal.base ^ (groups.length * 4) := by
  rcases h.value with ⟨digits, hdigits, rfl⟩
  have hlength : groups.flatten.length = groups.length * 4 := by
    rw [List.length_flatten, List.map_congr_left h.four, List.map_const', List.sum_replicate_nat]
  rw [← hlength, hdigits.length_eq]
  apply Numeral.ofDigits_lt_pow
  intro d hd
  rcases Report.Outcome.exists_mem_left hdigits hd with ⟨c, -, hc⟩
  exact Radix.lt_base_of_digit? hc

/-! ## Digits in fours -/

theorem mem_literalDigits_toDigits {n : Nat} {c : Char} (h : c ∈ Nat.toDigits 16 n) :
    c ∈ literalDigits := by
  have hdigit : ∀ d < 16, d.digitChar ∈ literalDigits := by decide
  rcases exists_digitChar_of_mem_toDigits (by omega) h with ⟨d, hd, rfl⟩
  exact hdigit d hd

/-- The digits of a number, with zeros in front that fill up their first group. -/
def filledDigits (n : Nat) : List Char :=
  padToFours [] (Nat.toDigits 16 n)

theorem filledDigits_eq (n : Nat) : ∃ count, filledDigits n =
    List.replicate count '0' ++ Nat.toDigits 16 n :=
  ⟨_, rfl⟩

theorem length_filledDigits (n : Nat) :
    (filledDigits n).length = ((Nat.toDigits 16 n).length + 3) / 4 * 4 := by
  simp only [filledDigits, padToFours, List.length_append, List.length_replicate, List.length_nil]
  omega

theorem mem_literalDigits_filledDigits {n : Nat} {c : Char} (h : c ∈ filledDigits n) :
    c ∈ literalDigits := by
  rcases filledDigits_eq n with ⟨count, heq⟩
  rw [heq, List.mem_append] at h
  cases h with
  | inl hzero =>
      rw [List.eq_of_mem_replicate hzero]
      decide
  | inr hdigit => exact mem_literalDigits_toDigits hdigit

theorem Radix.digits_replicate_zero (radix : Radix) (count : Nat) :
    radix.Digits (List.replicate count '0') (List.replicate count 0) := by
  induction count with
  | zero => exact .nil
  | succ count ih => exact .cons (radix.digit?_of_zero (by decide)) ih

/-- The digits of a number stand for it behind any number of zeros. -/
theorem Radix.exists_digits_zeros_toDigits (radix : Radix) (count n : Nat) :
    ∃ digits, radix.Digits (List.replicate count '0' ++ Nat.toDigits radix.base n) digits ∧
      Numeral.ofDigits radix.base digits = n := by
  rcases radix.exists_digits_toDigits n with ⟨digits, hdigits, hvalue⟩
  refine ⟨List.replicate count 0 ++ digits, ?_, ?_⟩
  · exact List.rel_append (radix.digits_replicate_zero count) hdigits
  · rw [Numeral.ofDigits_replicate_zero, hvalue]

theorem exists_digits_filledDigits (n : Nat) :
    ∃ digits, Radix.hexadecimal.Digits (filledDigits n) digits ∧
      Numeral.ofDigits Radix.hexadecimal.base digits = n := by
  rcases filledDigits_eq n with ⟨count, heq⟩
  rw [heq]
  exact Radix.hexadecimal.exists_digits_zeros_toDigits count n

theorem groupsOfFour_of_length {cs : List Char} {count : Nat} (h : cs.length = count * 4) :
    (groupsOfFour cs).length = count ∧ ∀ group ∈ groupsOfFour cs, group.length = 4 := by
  fun_induction groupsOfFour cs generalizing count with
  | case1 a b c d rest ih =>
      simp only [List.length_cons] at h
      have hrest : rest.length = (count - 1) * 4 := by omega
      obtain ⟨hcount, hfour⟩ := ih hrest
      refine ⟨by rw [List.length_cons, hcount]; omega, ?_⟩
      exact List.forall_mem_cons.mpr ⟨rfl, hfour⟩
  | case2 => exact ⟨by simp only [List.length_nil] at h ⊢; omega, List.forall_mem_nil _⟩
  | case3 short hfull hempty =>
      -- One, two or three digits are no whole number of groups.
      rcases short with _ | ⟨a, _ | ⟨b, _ | ⟨c, _ | ⟨d, rest⟩⟩⟩⟩
      · exact absurd rfl hempty
      · simp only [List.length_cons, List.length_nil] at h
        omega
      · simp only [List.length_cons, List.length_nil] at h
        omega
      · simp only [List.length_cons, List.length_nil] at h
        omega
      · exact absurd rfl (hfull a b c d rest)

theorem groups_filledDigits (n : Nat) : FewestGroups (groupsOfFour (filledDigits n)) n := by
  obtain ⟨hcount, hfour⟩ := groupsOfFour_of_length (length_filledDigits n)
  have hflatten := flatten_groupsOfFour (filledDigits n)
  refine ⟨⟨?_, hfour, ?_, ?_⟩, ?_⟩
  · rw [← List.length_pos_iff, hcount]
    have hpos : 0 < (Nat.toDigits 16 n).length := Nat.length_toDigits_pos
    omega
  · intro group hgroup c hc
    apply mem_literalDigits_filledDigits (n := n)
    rw [← hflatten]
    exact List.mem_flatten_of_mem hgroup hc
  · rw [hflatten]
    exact exists_digits_filledDigits n
  · intro others hothers
    have hpos : 0 < others.length := List.length_pos_iff.mpr hothers.ne_nil
    have hshort : (Nat.toDigits 16 n).length ≤ others.length * 4 :=
      (Nat.length_toDigits_le_iff (by omega) (by omega)).mpr hothers.lt_pow
    omega

/-! ## Reading literals -/

theorem Radix.Separated.join {radix : Radix} {cs cs' : List Char} {digits digits' : List Nat}
    (h : radix.Separated cs digits) (h' : radix.Separated cs' digits') :
    radix.Separated (cs ++ '_' :: cs') (digits ++ digits') := by
  induction h with
  | last hc => exact .underscore hc h'
  | digit hc _ ih => exact .digit hc ih
  | underscore hc _ ih => exact .underscore hc ih

theorem Radix.Separated.isBlank {radix : Radix} {cs : List Char} {digits : List Nat}
    (h : radix.Separated cs digits) : ∀ c ∈ cs, isBlank c = false := by
  induction h with
  | last hc => exact List.forall_mem_singleton.mpr (Radix.isBlank_of_digit? hc)
  | digit hc _ ih => exact List.forall_mem_cons.mpr ⟨Radix.isBlank_of_digit? hc, ih⟩
  | underscore hc _ ih =>
      exact List.forall_mem_cons.mpr
        ⟨Radix.isBlank_of_digit? hc, List.forall_mem_cons.mpr ⟨by decide, ih⟩⟩

/-- Underscores between groups of digits stand one by one between two digits. -/
theorem Radix.Digits.separated_intercalate {radix : Radix} {groups : List (List Char)}
    {digits : List Nat} (h : radix.Digits groups.flatten digits) (hne : groups ≠ [])
    (hgroups : ∀ group ∈ groups, group ≠ []) :
    radix.Separated (List.intercalate ['_'] groups) digits := by
  induction groups generalizing digits with
  | nil => exact absurd rfl hne
  | cons group groups ih =>
      rw [List.forall_mem_cons] at hgroups
      by_cases hlast : groups = []
      · subst hlast
        rw [List.flatten_cons, List.flatten_nil, List.append_nil] at h
        rw [List.intercalate_singleton]
        exact h.separated hgroups.1
      · rw [List.flatten_cons] at h
        have hfront := (List.forall₂_take_append _ _ _ h.flip).flip
        have hback := (List.forall₂_drop_append _ _ _ h.flip).flip
        rw [List.intercalate_cons_of_ne_nil hlast, List.append_assoc, List.singleton_append,
          ← List.take_append_drop group.length digits]
        exact (Radix.Digits.separated hfront hgroups.1).join (ih hback hlast hgroups.2)

theorem toList_hexLiteral (n : Nat) : (hexLiteral n).toList =
    '0' :: 'x' :: List.intercalate ['_'] (groupsOfFour (filledDigits n)) := by
  have hsigned : signedHexDigits n = ([], Nat.toDigits 16 n) := by
    rw [signedHexDigits, if_neg (by omega), Int.natAbs_natCast]
  rw [hexLiteral, hsigned, String.toList_ofList, filledDigits]

/-- Behind its mark a literal holds digits that are separated, whatever their number. -/
theorem exists_separated_hexLiteral (n : Nat) : ∃ cs digits,
    (hexLiteral n).toList = '0' :: 'x' :: cs ∧ Radix.hexadecimal.Separated cs digits ∧
      Numeral.ofDigits Radix.hexadecimal.base digits = n := by
  have hgroups := groups_filledDigits n
  rcases hgroups.value with ⟨digits, hdigits, hvalue⟩
  refine ⟨_, digits, toList_hexLiteral n, ?_, hvalue⟩
  apply hdigits.separated_intercalate hgroups.ne_nil
  intro group hgroup hnil
  have hfour := hgroups.four group hgroup
  rw [hnil] at hfour
  cases hfour

theorem Radix.Separated.writes {cs : List Char} {digits : List Nat}
    (h : Radix.hexadecimal.Separated cs digits) :
    Radix.hexadecimal.Writes cs (Numeral.ofDigits Radix.hexadecimal.base digits : Nat) :=
  .intro (List.forall_mem_nil _) .absent .absent h nofun

theorem readScaled_hexLiteral {n : Nat} (hn : n < wordLimit) :
    readScaled (hexLiteral n) = .ok n := by
  rcases exists_separated_hexLiteral n with ⟨cs, digits, htext, hdigits, hvalue⟩
  have hblank : ∀ c ∈ (hexLiteral n).toList, isBlank c = false := by
    rw [htext, List.forall_mem_cons, List.forall_mem_cons]
    exact ⟨by decide, by decide, hdigits.isBlank⟩
  have hne : (hexLiteral n).toList ≠ [] := by
    rw [htext]
    exact List.cons_ne_nil _ _
  have hstrip := strip_of_isStripped (isStripped_of_forall hne hblank)
  apply readScaled_of_isScaled
  refine ⟨hn, .hexadecimal, "0x", by decide, cs, hstrip.trans htext, ?_⟩
  rw [← hvalue]
  exact hdigits.writes

/-- A number is told by its literal, also if 64 bits do not hold it. -/
theorem eq_of_hexLiteral_eq {m n : Nat} (h : hexLiteral m = hexLiteral n) : m = n := by
  rcases exists_separated_hexLiteral m with ⟨cs, digits, hm, hdigits, hmvalue⟩
  rcases exists_separated_hexLiteral n with ⟨cs', digits', hn, hdigits', hnvalue⟩
  rw [h, hn] at hm
  simp only [List.cons.injEq, true_and] at hm
  have hread := Numeral.read_of_writes hdigits.writes
  rw [← hm, Numeral.read_of_writes hdigits'.writes, hmvalue, hnvalue] at hread
  exact (Int.ofNat_inj.mp (Except.ok.inj hread)).symm

/--
The literal of a number is its mark and as few groups of four digits as can stand for the
number, with underscores between them.  It is read back as the number if 64 bits hold it,
and no other number has the same literal.
-/
theorem hexLiteral_exact (n : Nat) :
    (n < wordLimit → readScaled (hexLiteral n) = .ok n) ∧
      (∃ groups, FewestGroups groups n ∧
        (hexLiteral n).toList = '0' :: 'x' :: List.intercalate ['_'] groups) ∧
      ∀ m : Nat, hexLiteral m = hexLiteral n → m = n :=
  ⟨readScaled_hexLiteral, ⟨_, groups_filledDigits n, toList_hexLiteral n⟩,
    fun _ => eq_of_hexLiteral_eq⟩

/-- A number of five digits fills a second group with zeros. -/
theorem hexLiteral_exact_fiveDigits :
    0x4c0de < wordLimit ∧ hexLiteral 0x4c0de = "0x0004_c0de" ∧
      readScaled "0x0004_c0de" = .ok 0x4c0de := by
  have hword : 0x4c0de < wordLimit := by decide
  have hliteral : hexLiteral (0x4c0de : Nat) = "0x0004_c0de" := by decide +kernel
  have hread := (hexLiteral_exact 0x4c0de).1 hword
  rw [hliteral] at hread
  exact ⟨hword, hliteral, hread⟩

end RegisterMap.Number
