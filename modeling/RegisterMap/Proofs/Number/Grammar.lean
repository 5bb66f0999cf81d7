import RegisterMap.Number.Scaled
import RegisterMap.Proofs.Text.Trimmed

/-!
# Grammar of scaled integers

How a scaled integer may be written: behind the mark of its base there are blanks, a
sign, the mark a second time, and digits with single underscores between them, each
but the digits left out at will.  Reading is described piece by piece: what a reader
takes off is of the form that the grammar gives, and what has that form is taken off.
So a text is read exactly if it is of the grammar, and as the number that it stands for.
-/

namespace RegisterMap.Number

open RegisterMap.Text

/-! ## Grammar -/

/-- What stands before the digits of a scaled integer in a base. -/
def Radix.announcements : Radix → List String
  | binary => ["#"]
  | decimal => [""]
  | hexadecimal => ["0x", "0X"]

/-- Digits of a base with at most single underscores between them, and the values of the digits. -/
inductive Radix.Separated (radix : Radix) : List Char → List Nat → Prop
  | last {c : Char} {d : Nat} (hc : radix.digit? c = some d) : Separated radix [c] [d]
  | digit {c : Char} {d : Nat} {cs : List Char} {digits : List Nat}
      (hc : radix.digit? c = some d) (hrest : Separated radix cs digits) :
      Separated radix (c :: cs) (d :: digits)
  | underscore {c : Char} {d : Nat} {cs : List Char} {digits : List Nat}
      (hc : radix.digit? c = some d) (hrest : Separated radix cs digits) :
      Separated radix (c :: '_' :: cs) (d :: digits)

/-- The sign of a numeral, true for a minus. -/
inductive IsSign : List Char → Bool → Prop
  | absent : IsSign [] false
  | plus : IsSign ['+'] false
  | minus : IsSign ['-'] true

/-- The repeated mark of a base: a digit zero and the letter, perhaps with an underscore. -/
inductive Radix.IsMark (radix : Radix) : List Char → Prop
  | absent : IsMark radix []
  | plain {zero letter : Char} (hzero : decimalDigit? zero = some 0)
      (hletter : radix.mark? = some letter.toLower) : IsMark radix [zero, letter]
  | underscored {zero letter : Char} (hzero : decimalDigit? zero = some 0)
      (hletter : radix.mark? = some letter.toLower) : IsMark radix [zero, letter, '_']

/-- The numerals of a signed number in a base. -/
inductive Radix.Writes (radix : Radix) : List Char → Int → Prop
  | intro {spacing sign mark body : List Char} {negative : Bool} {digits : List Nat}
      (hspacing : ∀ c ∈ spacing, Numeral.isSpacing c = true) (hsign : IsSign sign negative)
      (hmark : radix.IsMark mark) (hbody : radix.Separated body digits)
      (hshort : radix = .decimal → digits.length ≤ NumeralError.digitLimit) :
      Writes radix (spacing ++ (sign ++ (mark ++ body)))
        (if negative then -(Numeral.ofDigits radix.base digits : Int)
          else Numeral.ofDigits radix.base digits)

/-- True of a text that writes a number of 64 bits, with any blanks around it. -/
structure IsScaled (text : String) (n : Nat) : Prop where
  fits : n < wordLimit
  written : ∃ radix : Radix, ∃ announcement ∈ radix.announcements, ∃ cs,
    strip text.toList = announcement.toList ++ cs ∧ radix.Writes cs n

/-! ## Characters -/

theorem isBlank_of_decimalDigit? {c : Char} {d : Nat} (h : decimalDigit? c = some d) :
    isBlank c = false := by
  have hscripts : ∀ first ∈ zeroDigits, ∀ k < 10, first + k ≠ 0x85 ∧ first + k ≠ 0xA0 ∧
      first + k ≠ 0x1680 ∧ ¬(0x2000 ≤ first + k ∧ first + k ≤ 0x200A) ∧ first + k ≠ 0x2028 ∧
      first + k ≠ 0x2029 ∧ first + k ≠ 0x202F ∧ first + k ≠ 0x205F ∧ first + k ≠ 0x3000 := by
    decide
  have hscript : 0x30 ≤ c.toNat ∧ c.toNat ≤ 0x39 ∨
      0x80 ≤ c.toNat ∧ ∃ first ∈ zeroDigits, ∃ k < 10, first + k = c.toNat := by
    unfold decimalDigit? at h
    dsimp only at h
    split at h
    · split at h
      · exact .inl ‹_›
      · cases h
    · rcases Option.map_eq_some_iff.mp h with ⟨first, hfind, -⟩
      have hrange := List.find?_some hfind
      simp only [Bool.and_eq_true, decide_eq_true_eq] at hrange
      exact .inr ⟨by omega, first, List.mem_of_find?_eq_some hfind, c.toNat - first, by omega,
        by omega⟩
  simp only [isBlank, Bool.or_eq_false_iff, Bool.and_eq_false_iff, beq_eq_false_iff_ne,
    decide_eq_false_iff_not]
  rcases hscript with hascii | ⟨hlarge, first, hfirst, k, hk, heq⟩
  · omega
  · have hne := hscripts first hfirst k hk
    rw [heq] at hne
    omega

theorem isBlank_of_letterDigit? {c : Char} {d : Nat} (h : letterDigit? c = some d) :
    isBlank c = false := by
  have hletter : 'A'.toNat ≤ c.toNat ∧ c.toNat ≤ 'z'.toNat := by
    unfold letterDigit? at h
    split at h
    · rename_i hrange
      exact ⟨Nat.le_trans (by decide) hrange.1, hrange.2⟩
    · split at h
      · rename_i hrange
        exact ⟨hrange.1, Nat.le_trans hrange.2 (by decide)⟩
      · cases h
  simp only [Char.reduceToNat] at hletter
  simp only [isBlank, Bool.or_eq_false_iff, Bool.and_eq_false_iff, beq_eq_false_iff_ne,
    decide_eq_false_iff_not]
  omega

theorem eq_or_eq_of_toLower {c l u : Char} (h : c.toLower = l) (hu : u.toNat + 32 = l.toNat) :
    c = l ∨ c = u := by
  unfold Char.toLower at h
  split at h
  · rename_i hupper
    have hhigh : c.toNat ≤ 'Z'.toNat := hupper.2
    simp only [Char.reduceToNat] at hhigh
    have hsum : (c.val + ('a'.val - 'A'.val)).toNat = c.toNat + 32 := by
      rw [UInt32.toNat_add]
      exact Nat.mod_eq_of_lt (Nat.lt_of_le_of_lt (Nat.add_le_add_right hhigh 32) (by decide))
    have hl : (c.val + ('a'.val - 'A'.val)).toNat = l.toNat := congrArg Char.toNat h
    exact .inr (Char.toNat_inj.mp (by omega))
  · exact .inl h

namespace Radix

variable {radix : Radix} {c : Char} {d : Nat}

theorem isBlank_of_digit? (h : radix.digit? c = some d) : isBlank c = false := by
  rcases Option.or_eq_some_iff.mp (Option.filter_eq_some_iff.mp h).1 with hdigit | ⟨-, hletter⟩
  · exact isBlank_of_decimalDigit? hdigit
  · exact isBlank_of_letterDigit? hletter

/-- A digit zero is one in every base. -/
theorem digit?_of_zero (radix : Radix) (h : decimalDigit? c = some 0) :
    radix.digit? c = some 0 := by
  rw [digit?, h]
  cases radix <;> rfl

theorem eq_of_mark? (h : radix.mark? = some c.toLower) : c ∈ ['b', 'B', 'x', 'X'] := by
  cases radix with
  | decimal => cases h
  | binary =>
      have hmark : c = 'b' ∨ c = 'B' := eq_or_eq_of_toLower (Option.some.inj h).symm rfl
      rcases hmark with rfl | rfl <;> decide
  | hexadecimal =>
      have hmark : c = 'x' ∨ c = 'X' := eq_or_eq_of_toLower (Option.some.inj h).symm rfl
      rcases hmark with rfl | rfl <;> decide

/-- The letter in the mark of a base is not one of its digits, in either case. -/
theorem digit?_of_mark? (h : radix.mark? = some c.toLower) : radix.digit? c = none := by
  have hletter := eq_of_mark? h
  simp only [List.mem_cons, List.not_mem_nil, or_false] at hletter
  rcases hletter with rfl | rfl | rfl | rfl <;> revert h <;> cases radix <;> decide

theorem digit?_underscore (radix : Radix) : radix.digit? '_' = none := by
  cases radix <;> decide

end Radix

theorem isSpacing_of_isBlank {c : Char} (h : isBlank c = false) : Numeral.isSpacing c = false := by
  rw [Numeral.isSpacing, h, Bool.false_and]

/-! ## Pieces of a numeral -/

namespace Numeral

variable {radix : Radix} {cs : List Char} {digits : List Nat}

theorem splitDigits_of_separated (h : radix.Separated cs digits) (afterDigit : Bool) :
    splitDigits radix afterDigit cs = some (digits, []) := by
  induction h generalizing afterDigit with
  | last hc => simp [splitDigits, hc]
  | digit hc _ ih => simp [splitDigits, hc, ih]
  | underscore hc _ ih => simp [splitDigits, hc, Radix.digit?_underscore, ih]

/-- What is split off are digits, perhaps behind an underscore, or nothing if a digit came before. -/
theorem separated_of_splitDigits {afterDigit : Bool} {rest : List Char}
    (h : splitDigits radix afterDigit cs = some (digits, rest)) :
    (afterDigit = true ∧ digits = [] ∧ rest = cs) ∨
      ∃ lead body, cs = lead ++ (body ++ rest) ∧ radix.Separated body digits ∧
        (lead = [] ∨ afterDigit = true ∧ lead = ['_']) := by
  induction cs generalizing afterDigit digits with
  | nil =>
      rw [splitDigits] at h
      split at h
      · rename_i hafter
        cases h
        exact .inl ⟨hafter, rfl, rfl⟩
      · cases h
  | cons c cs ih =>
      rw [splitDigits] at h
      cases hc : radix.digit? c with
      | some d =>
          simp only [hc, Option.map_eq_some_iff] at h
          rcases h with ⟨⟨digits', rest'⟩, hsplit, heq⟩
          cases heq
          refine .inr ?_
          -- Behind the digit nothing is split off, or digits, or an underscore and digits.
          rcases ih hsplit with ⟨-, rfl, rfl⟩ | ⟨lead, body, rfl, hbody, rfl | ⟨-, rfl⟩⟩
          · exact ⟨[], [c], rfl, .last hc, .inl rfl⟩
          · exact ⟨[], c :: body, rfl, .digit hc hbody, .inl rfl⟩
          · exact ⟨[], c :: '_' :: body, rfl, .underscore hc hbody, .inl rfl⟩
      | none =>
          simp only [hc] at h
          cases afterDigit with
          | false => cases h
          | true =>
              simp only [Bool.not_true, Bool.false_eq_true, if_false] at h
              split at h
              · rename_i hunderscore
                rcases ih h with ⟨hfalse, -, -⟩ | ⟨lead, body, rfl, hbody, rfl | ⟨hfalse, -⟩⟩
                · cases hfalse
                · exact .inr ⟨['_'], body, by rw [hunderscore]; rfl, hbody, .inr ⟨rfl, rfl⟩⟩
                · cases hfalse
              · cases h
                exact .inl ⟨rfl, rfl, rfl⟩

theorem exists_digit_of_separated (h : radix.Separated cs digits) :
    ∃ c rest, cs = c :: rest ∧ radix.digit? c ≠ none := by
  cases h with
  | last hc => exact ⟨_, _, rfl, by simp [hc]⟩
  | digit hc _ => exact ⟨_, _, rfl, by simp [hc]⟩
  | underscore hc _ => exact ⟨_, _, rfl, by simp [hc]⟩

/-- A mark is taken off from the digits behind it. -/
theorem afterMark_of_isMark {mark : List Char} (hmark : radix.IsMark mark)
    (h : radix.Separated cs digits) : afterMark radix (mark ++ cs) = cs := by
  cases hmark with
  | absent =>
      -- The second character is a digit or an underscore, and no letter of a mark.
      rw [List.nil_append]
      unfold afterMark
      split
      · rename_i first letter rest
        rw [if_neg]
        rintro ⟨-, hletter⟩
        have hnone := Radix.digit?_of_mark? hletter
        cases h with
        | digit _ hrest =>
            rcases exists_digit_of_separated hrest with ⟨c, cs, heq, hc⟩
            cases heq
            exact hc hnone
        | underscore _ _ =>
            have hmember := Radix.eq_of_mark? hletter
            revert hmember
            decide
      · rfl
  | plain hzero hletter =>
      rcases exists_digit_of_separated h with ⟨c, rest, rfl, hc⟩
      simp only [List.cons_append, List.nil_append, afterMark, if_pos (And.intro hzero hletter)]
      split
      · rename_i heq
        cases heq
        exact absurd radix.digit?_underscore hc
      · rfl
  | underscored hzero hletter =>
      simp only [List.cons_append, List.nil_append, afterMark, if_pos (And.intro hzero hletter)]

theorem exists_isMark (radix : Radix) (cs : List Char) :
    ∃ mark, radix.IsMark mark ∧ cs = mark ++ afterMark radix cs := by
  unfold afterMark
  split
  · split
    · rename_i hmark
      split
      · exact ⟨_, .underscored hmark.1 hmark.2, rfl⟩
      · exact ⟨_, .plain hmark.1 hmark.2, rfl⟩
    · exact ⟨[], .absent, rfl⟩
  · exact ⟨[], .absent, rfl⟩

theorem splitSign_of_isSign {sign : List Char} {negative : Bool} (hsign : IsSign sign negative)
    (hplus : cs.head? ≠ some '+') (hminus : cs.head? ≠ some '-') :
    splitSign (sign ++ cs) = (negative, cs) := by
  cases hsign with
  | absent =>
      rw [List.nil_append, splitSign]
      · rintro rest rfl
        exact hminus rfl
      · rintro rest rfl
        exact hplus rfl
  | plus => rfl
  | minus => rfl

theorem exists_isSign (cs : List Char) :
    ∃ sign, IsSign sign (splitSign cs).1 ∧ cs = sign ++ (splitSign cs).2 := by
  unfold splitSign
  split
  · exact ⟨['-'], .minus, rfl⟩
  · exact ⟨['+'], .plus, rfl⟩
  · exact ⟨[], .absent, rfl⟩

/-! ## Numerals -/

/-- A mark and digits start with a digit. -/
theorem exists_digit_of_isMark {mark : List Char} (hmark : radix.IsMark mark)
    (h : radix.Separated cs digits) : ∃ c rest, mark ++ cs = c :: rest ∧ radix.digit? c ≠ none := by
  cases hmark with
  | absent => exact exists_digit_of_separated h
  | plain hzero _ => exact ⟨_, _, rfl, by simp [radix.digit?_of_zero hzero]⟩
  | underscored hzero _ => exact ⟨_, _, rfl, by simp [radix.digit?_of_zero hzero]⟩

theorem dropWhile_isSpacing_append {spacing : List Char}
    (hspacing : ∀ c ∈ spacing, isSpacing c = true) (h : ∀ c ∈ cs.head?, isSpacing c = false) :
    (spacing ++ cs).dropWhile isSpacing = cs := by
  rw [List.dropWhile_append_of_pos hspacing]
  cases cs with
  | nil => rfl
  | cons c cs => exact List.dropWhile_cons_of_neg (by simp [h c rfl])

theorem read_of_writes {n : Int} (h : radix.Writes cs n) : read radix cs = .ok n := by
  cases h with
  | @intro spacing sign mark body negative digits hspacing hsign hmark hbody hshort =>
      obtain ⟨c, rest, hhead, hc⟩ := exists_digit_of_isMark hmark hbody
      have hsigns : radix.digit? '+' = none ∧ radix.digit? '-' = none := by
        cases radix <;> decide
      have hfront : ∀ first ∈ (sign ++ (mark ++ body)).head?, isSpacing first = false := by
        cases hsign with
        | absent =>
            obtain ⟨d, hd⟩ := Option.ne_none_iff_exists'.mp hc
            rw [List.nil_append, hhead]
            rintro _ ⟨⟩
            exact isSpacing_of_isBlank (Radix.isBlank_of_digit? hd)
        | plus =>
            rintro _ ⟨⟩
            decide
        | minus =>
            rintro _ ⟨⟩
            decide
      have hsplit : splitSign (sign ++ (mark ++ body)) = (negative, mark ++ body) := by
        refine splitSign_of_isSign hsign ?_ ?_
        · rw [hhead]
          rintro ⟨⟩
          exact hc hsigns.1
        · rw [hhead]
          rintro ⟨⟩
          exact hc hsigns.2
      have hlimit : ¬(radix = .decimal ∧ NumeralError.digitLimit < digits.length) := by
        rintro ⟨hradix, hlong⟩
        have hle := hshort hradix
        omega
      simp only [read, dropWhile_isSpacing_append hspacing hfront, hsplit,
        afterMark_of_isMark hmark hbody, splitDigits_of_separated hbody, if_neg hlimit,
        List.all_nil, if_true]

/-- What is read is a numeral, and nothing but blanks behind it. -/
theorem exists_writes_of_read {n : Int} (h : read radix cs = .ok n) :
    ∃ numeral spacing, cs = numeral ++ spacing ∧ radix.Writes numeral n ∧
      ∀ c ∈ spacing, isSpacing c = true := by
  obtain ⟨sign, hsign, hunsigned⟩ := exists_isSign (cs.dropWhile isSpacing)
  obtain ⟨mark, hmark, hbody⟩ := exists_isMark radix (splitSign (cs.dropWhile isSpacing)).2
  simp only [read] at h
  split at h
  · cases h
  · rename_i digits rest hsplit
    split at h
    · cases h
    · rename_i hlimit
      split at h
      · rename_i hrest
        cases h
        rcases separated_of_splitDigits hsplit with ⟨hfalse, -, -⟩ | ⟨lead, body, heq, hdigits,
          rfl | ⟨hfalse, -⟩⟩
        · cases hfalse
        · refine ⟨cs.takeWhile isSpacing ++ (sign ++ (mark ++ body)), rest, ?_, ?_, ?_⟩
          · rw [List.nil_append] at heq
            rw [heq] at hbody
            rw [hbody] at hunsigned
            conv_lhs => rw [← List.takeWhile_append_dropWhile (p := isSpacing) (l := cs), hunsigned]
            simp only [List.append_assoc]
          · refine .intro (fun c hc => List.mem_takeWhile_imp hc) hsign hmark hdigits ?_
            intro hradix
            exact Nat.le_of_not_lt fun hlong => hlimit ⟨hradix, hlong⟩
          · simpa using hrest
        · cases hfalse
      · cases h

end Numeral

/-! ## Scaled integers -/

namespace Radix

variable {radix : Radix} {cs : List Char}

/-- The characters that can stand in a numeral. -/
def IsNumeralChar (radix : Radix) (c : Char) : Prop :=
  isBlank c = true ∨ c ∈ ['+', '-', '_'] ∨ radix.digit? c ≠ none ∨
    radix.mark? = some c.toLower

instance (radix : Radix) : DecidablePred radix.IsNumeralChar :=
  fun c => inferInstanceAs (Decidable (isBlank c = true ∨ c ∈ ['+', '-', '_'] ∨
    radix.digit? c ≠ none ∨ radix.mark? = some c.toLower))

theorem Separated.isNumeralChar {digits : List Nat} (h : radix.Separated cs digits) :
    ∀ c ∈ cs, radix.IsNumeralChar c := by
  have hdigit {c : Char} {d : Nat} (hc : radix.digit? c = some d) : radix.IsNumeralChar c :=
    .inr (.inr (.inl (by simp [hc])))
  induction h with
  | last hc => simpa using hdigit hc
  | digit hc _ ih => exact List.forall_mem_cons.mpr ⟨hdigit hc, ih⟩
  | underscore hc _ ih =>
      refine List.forall_mem_cons.mpr ⟨hdigit hc, List.forall_mem_cons.mpr ⟨?_, ih⟩⟩
      exact .inr (.inl (by decide))

theorem IsMark.isNumeralChar (h : radix.IsMark cs) : ∀ c ∈ cs, radix.IsNumeralChar c := by
  have hdigit {c : Char} (hc : decimalDigit? c = some 0) : radix.IsNumeralChar c :=
    .inr (.inr (.inl (by simp [radix.digit?_of_zero hc])))
  cases h with
  | absent => exact List.forall_mem_nil _
  | plain hzero hletter =>
      simp only [List.forall_mem_cons]
      exact ⟨hdigit hzero, .inr (.inr (.inr hletter)), List.forall_mem_nil _⟩
  | underscored hzero hletter =>
      simp only [List.forall_mem_cons]
      exact ⟨hdigit hzero, .inr (.inr (.inr hletter)), .inr (.inl (by decide)),
        List.forall_mem_nil _⟩

theorem Writes.isNumeralChar {n : Int} (h : radix.Writes cs n) :
    ∀ c ∈ cs, radix.IsNumeralChar c := by
  cases h with
  | intro hspacing hsign hmark hbody _ =>
      simp only [List.forall_mem_append]
      refine ⟨?_, ?_, hmark.isNumeralChar, hbody.isNumeralChar⟩
      · intro c hc
        have hblank := hspacing c hc
        rw [Numeral.isSpacing, Bool.and_eq_true] at hblank
        exact .inl hblank.1
      · intro c hc
        have hmember : c ∈ ['+', '-', '_'] := by
          cases hsign with
          | absent => cases hc
          | plus => simp_all
          | minus => simp_all
        exact .inr (.inl hmember)

end Radix

theorem exists_announcement (cs : List Char) : ∃ announcement ∈ (splitRadix cs).1.announcements,
    cs = announcement.toList ++ (splitRadix cs).2 := by
  unfold splitRadix
  split
  · exact ⟨"0x", by simp [Radix.announcements], rfl⟩
  · exact ⟨"0X", by simp [Radix.announcements], rfl⟩
  · exact ⟨"#", by simp [Radix.announcements], rfl⟩
  · exact ⟨"", by simp [Radix.announcements], rfl⟩

theorem splitRadix_of_announcement {radix : Radix} {announcement : String} {cs : List Char}
    (hannouncement : announcement ∈ radix.announcements)
    (h : ∀ c ∈ cs, radix.IsNumeralChar c) :
    splitRadix (announcement.toList ++ cs) = (radix, cs) := by
  cases radix with
  | binary =>
      obtain rfl := List.mem_singleton.mp hannouncement
      rfl
  | hexadecimal =>
      rcases List.mem_pair.mp hannouncement with rfl | rfl <;> rfl
  | decimal =>
      obtain rfl := List.mem_singleton.mp hannouncement
      -- Every other announcement has a character in it that no decimal numeral has.
      change splitRadix cs = _
      unfold splitRadix
      split
      · exact absurd (h 'x' (by simp)) (by decide)
      · exact absurd (h 'X' (by simp)) (by decide)
      · exact absurd (h '#' (by simp)) (by decide)
      · rfl

theorem readScaled_eq_ok_iff_read {text : String} {n : Nat} : readScaled text = .ok n ↔
    Numeral.read (splitRadix (strip text.toList)).1 (splitRadix (strip text.toList)).2 =
      .ok (n : Int) ∧ n < wordLimit := by
  unfold readScaled
  cases h : Numeral.read (splitRadix (strip text.toList)).1 (splitRadix (strip text.toList)).2 with
  | error e => simp [h, bind, Except.bind]
  | ok value =>
      cases value with
      | ofNat m =>
          simp only [h, bind, Except.bind, Int.ofNat_eq_natCast, Except.ok.injEq, Int.ofNat_inj]
          split
          · rename_i hlt
            simp only [pure, Except.pure, Except.ok.injEq]
            constructor
            · rintro rfl
              exact ⟨rfl, hlt⟩
            · exact And.left
          · rename_i hge
            refine iff_of_false nofun ?_
            rintro ⟨rfl, hlt⟩
            exact hge hlt
      | negSucc m =>
          simp only [h, bind, Except.bind, Except.ok.injEq]
          exact iff_of_false nofun nofun

theorem isScaled_of_readScaled {text : String} {n : Nat} (h : readScaled text = .ok n) :
    IsScaled text n := by
  obtain ⟨hread, hlt⟩ := readScaled_eq_ok_iff_read.mp h
  obtain ⟨announcement, hannouncement, hstrip⟩ := exists_announcement (strip text.toList)
  obtain ⟨numeral, spacing, hsplit, hnumeral, hspacing⟩ := Numeral.exists_writes_of_read hread
  rw [hsplit] at hstrip
  refine ⟨hlt, _, announcement, hannouncement, numeral, ?_, hnumeral⟩
  cases spacing.eq_nil_or_concat' with
  | inl hnil => rw [hstrip, hnil, List.append_nil]
  | inr hconcat =>
      -- A stripped text does not end in a blank.
      obtain ⟨front, c, rfl⟩ := hconcat
      rw [← List.append_assoc, ← List.append_assoc] at hstrip
      have hstripped : IsStripped (strip text.toList) := isStripped_strip (by rw [hstrip]; simp)
      have hlast := hstripped.last c (by rw [hstrip]; simp)
      have hblank := hspacing c (by simp)
      rw [isSpacing_of_isBlank hlast] at hblank
      cases hblank

theorem readScaled_of_isScaled {text : String} {n : Nat} (h : IsScaled text n) :
    readScaled text = .ok n := by
  obtain ⟨radix, announcement, hannouncement, cs, hstrip, hnumeral⟩ := h.written
  rw [readScaled_eq_ok_iff_read, hstrip,
    splitRadix_of_announcement hannouncement hnumeral.isNumeralChar]
  exact ⟨Numeral.read_of_writes hnumeral, h.fits⟩

/-- Blanks apart, a scaled integer is made of the characters of its mark and of its numeral. -/
theorem IsScaled.char {text : String} {n : Nat} (h : IsScaled text n) {c : Char}
    (hc : c ∈ text.toList) :
    isBlank c = true ∨ c ∈ ['#', '0', 'x', 'X'] ∨ ∃ radix : Radix, radix.IsNumeralChar c := by
  cases hblank : isBlank c with
  | true => exact .inl rfl
  | false =>
      obtain ⟨radix, announcement, hannouncement, cs, hstrip, hnumeral⟩ := h.written
      have hmember := mem_strip_of_mem hc hblank
      rw [hstrip, List.mem_append] at hmember
      rcases hmember with hmark | hdigit
      · have hmarks : ∀ announcement ∈ radix.announcements,
            announcement.toList.all (['#', '0', 'x', 'X'].contains ·) = true := by
          cases radix <;> decide
        have hall := List.all_eq_true.mp (hmarks announcement hannouncement) c hmark
        exact .inr (.inl (List.contains_iff_mem.mp hall))
      · exact .inr (.inr ⟨radix, hnumeral.isNumeralChar c hdigit⟩)

/--
A text is read as a scaled integer exactly if it is of the grammar and the number fits in
64 bits, and it is refused exactly if it is no number's.
-/
theorem readScaled_grammar (text : String) :
    (∀ n, readScaled text = .ok n ↔ IsScaled text n) ∧
      ((∃ e, readScaled text = .error e) ↔ ∀ n, ¬IsScaled text n) := by
  have hok : ∀ n, readScaled text = .ok n ↔ IsScaled text n :=
    fun n => ⟨isScaled_of_readScaled, readScaled_of_isScaled⟩
  refine ⟨hok, ?_⟩
  simp only [← hok]
  cases readScaled text with
  | error e => exact iff_of_true ⟨e, rfl⟩ nofun
  | ok n =>
      exact iff_of_false nofun fun h => h n rfl

/-- The information separators are blanks around a number, but not between its mark and its digits. -/
example : readScaled "\x1c0X+\u0660x_f\n" = .ok 15 ∧
    readScaled "0x\x1cf" = .error (.malformed .hexadecimal "\x1cf") := by
  decide +kernel

end RegisterMap.Number
