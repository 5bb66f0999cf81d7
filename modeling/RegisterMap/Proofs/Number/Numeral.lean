import RegisterMap.Proofs.Number.Grammar
import RegisterMap.Proofs.Report.Outcome

/-!
# Plain numerals

The numerals of a number when nothing is left open: digits of one base behind the
mark that announces it, without a sign, underscores or blanks.  Reading such a
numeral gives the number, and every number has one in each base.
-/

namespace RegisterMap.Number

open RegisterMap.Report.Outcome RegisterMap.Text

/-- True of characters that are digits of a base, with their values. -/
abbrev Radix.Digits (radix : Radix) : List Char → List Nat → Prop :=
  List.Forall₂ fun c d => radix.digit? c = some d

/-- True of the digits of a number in a base. -/
structure Radix.Denotes (radix : Radix) (cs : List Char) (n : Nat) : Prop where
  ne_nil : cs ≠ []
  value : ∃ digits, radix.Digits cs digits ∧ Numeral.ofDigits radix.base digits = n
  /-- A decimal numeral is not read if it has too many digits. -/
  short : radix = .decimal → cs.length ≤ NumeralError.digitLimit

/-- True of a text that is a plain numeral of a number, in any of the bases. -/
def Spells (text : String) (n : Nat) : Prop :=
  ∃ radix : Radix, ∃ mark ∈ radix.announcements, ∃ cs,
    text = mark ++ String.ofList cs ∧ radix.Denotes cs n

/-! ## Digits -/

theorem Radix.digit?_digitChar (radix : Radix) {d : Nat} (h : d < radix.base) :
    radix.digit? d.digitChar = some d := by
  have hall : ∀ radix : Radix, radix.base ≤ 16 ∧
      ∀ d < 16, d < radix.base → radix.digit? d.digitChar = some d := by
    rintro (_ | _ | _) <;> decide
  exact (hall radix).2 d (Nat.lt_of_lt_of_le h (hall radix).1) h

/-! ## Reading -/

theorem Radix.Digits.separated {radix : Radix} {cs : List Char} {digits : List Nat}
    (h : radix.Digits cs digits) (hne : cs ≠ []) : radix.Separated cs digits := by
  induction h with
  | nil => exact absurd rfl hne
  | @cons c d cs digits hc hrest ih =>
      by_cases hnil : cs = []
      · rw [hnil, List.forall₂_nil_left_iff] at hrest
        rw [hnil, hrest]
        exact .last hc
      · exact .digit hc (ih hnil)

theorem Radix.Denotes.writes {radix : Radix} {cs : List Char} {n : Nat} (h : radix.Denotes cs n) :
    radix.Writes cs n := by
  rcases h.value with ⟨digits, hdigits, rfl⟩
  have hshort : radix = .decimal → digits.length ≤ NumeralError.digitLimit := by
    intro hradix
    rw [← hdigits.length_eq]
    exact h.short hradix
  exact .intro (List.forall_mem_nil _) .absent .absent (hdigits.separated h.ne_nil) hshort

theorem isStripped_of_announcement {radix : Radix} {mark : String}
    (hmark : mark ∈ radix.announcements) {cs : List Char} {n : Nat} (h : radix.Denotes cs n) :
    IsStripped (mark.toList ++ cs) := by
  have hdigit : ∀ c ∈ cs, isBlank c = false := by
    rcases h.value with ⟨digits, hdigits, -⟩
    intro c hc
    rcases exists_mem_right hdigits hc with ⟨d, -, hd⟩
    exact Radix.isBlank_of_digit? hd
  have hblank : ∀ c ∈ mark.toList, isBlank c = false := by
    have hall : ∀ mark ∈ radix.announcements, mark.toList.all (!isBlank ·) = true := by
      cases radix <;> decide
    simpa using hall mark hmark
  exact isStripped_of_forall (List.append_ne_nil_of_right_ne_nil _ h.ne_nil)
    (List.forall_mem_append.mpr ⟨hblank, hdigit⟩)

/-- A plain numeral of a number that 64 bits hold is read as that number. -/
theorem readScaled_of_spells {text : String} {n : Nat} (h : Spells text n) (hn : n < wordLimit) :
    readScaled text = .ok n := by
  rcases h with ⟨radix, mark, hmark, cs, rfl, hdenotes⟩
  refine readScaled_of_isScaled ⟨hn, radix, mark, hmark, cs, ?_, hdenotes.writes⟩
  rw [String.toList_append, String.toList_ofList,
    strip_of_isStripped (isStripped_of_announcement hmark hdenotes)]

/-! ## Writing -/

theorem exists_digitChar_of_mem_toDigits {base n : Nat} {c : Char} (hbase : 1 < base)
    (h : c ∈ Nat.toDigits base n) : ∃ d < base, c = d.digitChar := by
  induction n using Nat.strongRecOn with
  | _ n ih =>
      rw [Nat.toDigits_eq_if hbase] at h
      split at h
      · rename_i hlt
        exact ⟨n, hlt, List.mem_singleton.mp h⟩
      · rename_i hge
        rw [List.mem_append, List.mem_singleton] at h
        cases h with
        | inl hfront => exact ih (n / base) (Nat.div_lt_self (by omega) hbase) hfront
        | inr hlast => exact ⟨n % base, Nat.mod_lt n (by omega), hlast⟩

theorem Numeral.ofDigits_append (base : Nat) (front : List Nat) (digit : Nat) :
    ofDigits base (front ++ [digit]) = ofDigits base front * base + digit := by
  simp only [ofDigits, List.foldl_append, List.foldl_cons, List.foldl_nil]

theorem Radix.exists_digits_toDigits (radix : Radix) (n : Nat) :
    ∃ digits, radix.Digits (Nat.toDigits radix.base n) digits ∧
      Numeral.ofDigits radix.base digits = n := by
  have hbase : 1 < radix.base := by cases radix <;> decide
  induction n using Nat.strongRecOn with
  | _ n ih =>
      rw [Nat.toDigits_eq_if hbase]
      split
      · rename_i hlt
        refine ⟨[n], .cons (radix.digit?_digitChar hlt) .nil, ?_⟩
        simp [Numeral.ofDigits]
      · rename_i hge
        rcases ih (n / radix.base) (Nat.div_lt_self (by omega) hbase) with ⟨front, hfront, hvalue⟩
        have hlast := radix.digit?_digitChar (Nat.mod_lt n (by omega))
        refine ⟨front ++ [n % radix.base], List.rel_append hfront (.cons hlast .nil), ?_⟩
        rw [Numeral.ofDigits_append, hvalue, Nat.mul_comm, Nat.div_add_mod]

/-- The usual digits of a number that 64 bits hold spell it, behind any mark of their base. -/
theorem spells_toDigits {radix : Radix} {mark : String} (hmark : mark ∈ radix.announcements)
    {n : Nat} (hn : n < wordLimit) :
    Spells (mark ++ String.ofList (Nat.toDigits radix.base n)) n := by
  refine ⟨radix, mark, hmark, _, rfl, Nat.toDigits_ne_nil, radix.exists_digits_toDigits n, ?_⟩
  rintro rfl
  have hlength : (Nat.toDigits 10 n).length ≤ 20 :=
    (Nat.length_toDigits_le_iff (by decide) (by decide)).mpr (Nat.lt_of_lt_of_le hn (by decide))
  exact Nat.le_trans hlength (by decide)

end RegisterMap.Number
