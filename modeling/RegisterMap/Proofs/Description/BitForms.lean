import RegisterMap.Proofs.Description.Bits
import RegisterMap.Proofs.Description.Lookup
import RegisterMap.Proofs.Description.Reading
import RegisterMap.Proofs.Description.Value
import RegisterMap.Proofs.Number.Grammar

/-!
# Forms of bit ranges

A field writes its bits by their two ends, by the first bit and a width, or in
brackets, and each number in any way in which it can be read.  All forms of the same
bits are decoded alike.  Of several forms the first one counts, and a single end is
none.  Bits that are written are in order; those of a child that stands in for missing
ones need not be.
-/

namespace RegisterMap.Description

open RegisterMap.Model RegisterMap.Number RegisterMap.Text RegisterMap.Xml

/-! ## Forms -/

/-- True of an element that writes a number in a child, in any way in which it can be read. -/
def WritesNumber (e : Element) (tag : String) (n : Nat) : Prop :=
  ∃ child text, e.child? tag = some child ∧ child.text? = some text ∧ readScaled text = .ok n

/-- True of a text in brackets, with any blanks around it, that writes the two ends of some bits. -/
def WritesBrackets (text : String) (lsb msb : Nat) : Prop :=
  ∃ front back first last : List Char,
    text.toList = front ++ ('[' :: (last ++ ':' :: first ++ [']']) ++ back) ∧
      (∀ c ∈ front, isBlank c = true) ∧ (∀ c ∈ back, isBlank c = true) ∧
      readScaled (String.ofList last) = .ok msb ∧ readScaled (String.ofList first) = .ok lsb

inductive BitForm where
  /-- The first and the last bit. -/
  | ends
  /-- The first bit and a width, which may be left out if it is one. -/
  | span
  /-- Both ends in brackets, the last bit first. -/
  | brackets
  deriving DecidableEq, Repr

namespace BitForm

/-- The place of a form among those that are tried one after the other. -/
def rank : BitForm → Nat
  | ends => 0
  | span => 1
  | brackets => 2

/-- True of an element that has a form, whether it can be read or not. -/
def IsIn (e : Element) : BitForm → Prop
  | ends => (e.child? "lsb").isSome ∧ (e.child? "msb").isSome
  | span => (e.child? "bitOffset").isSome
  | brackets => (e.child? "bitRange").isSome

instance (e : Element) : DecidablePred (IsIn e)
  | ends => inferInstanceAs (Decidable ((e.child? "lsb").isSome ∧ (e.child? "msb").isSome))
  | span => inferInstanceAs (Decidable ((e.child? "bitOffset").isSome))
  | brackets => inferInstanceAs (Decidable ((e.child? "bitRange").isSome))

/-- True of an element that writes some bits in a form. -/
def Writes (e : Element) (lsb msb : Nat) : BitForm → Prop
  | ends => WritesNumber e "lsb" lsb ∧ WritesNumber e "msb" msb
  | span => WritesNumber e "bitOffset" lsb ∧
      (WritesNumber e "bitWidth" (msb - lsb + 1) ∨ e.child? "bitWidth" = none ∧ msb = lsb)
  | brackets => ∃ child text, e.child? "bitRange" = some child ∧ child.text? = some text ∧
      WritesBrackets text lsb msb

end BitForm

/-- True of an element that has no first bit without a last one, or one that can be read. -/
def LoneEndIsRead (e : Element) : Prop :=
  e.child? "lsb" = none ∨ (e.child? "msb").isSome ∨ ∃ n, WritesNumber e "lsb" n

/-! ## Numbers -/

section

variable {e : Element} {tag : String} {property : Property} {n : Nat}

theorem WritesNumber.integer? (h : WritesNumber e tag n) :
    integer? e tag property = .ok (some (n : Int)) := by
  rcases h with ⟨child, text, hchild, htext, hread⟩
  exact integer?_eq_some_iff.mpr ⟨child, hchild, .inl (.text htext hread)⟩

/-- What can be read as a number has no colon in it. -/
theorem colon_not_mem {cs : List Char} (h : readScaled (String.ofList cs) = .ok n) : ':' ∉ cs := by
  intro hc
  have hscaled := isScaled_of_readScaled h
  have hradix : ∀ radix : Radix, ¬radix.IsNumeralChar ':' := by
    rintro (_ | _ | _) <;> decide
  rcases hscaled.char (c := ':') (by rwa [String.toList_ofList]) with hblank | hmark | ⟨radix, hchar⟩
  · revert hblank
    decide
  · revert hmark
    decide
  · exact hradix radix hchar

theorem integerIn_eq_ok {cs : List Char} (h : readScaled (String.ofList cs) = .ok n) :
    integerIn cs = .ok (n : Int) := by
  simp only [integerIn, h]

theorem unbracket?_bracketed (inner : List Char) :
    unbracket? ('[' :: (inner ++ [']'])) = some inner := by
  simp [unbracket?]

theorem isStripped_bracketed (inner : List Char) : IsStripped ('[' :: (inner ++ [']'])) := by
  refine ⟨by simp, ?_, ?_⟩
  · rintro _ ⟨⟩
    decide
  · intro c hc
    rw [← List.cons_append, List.getLast?_concat, Option.mem_def, Option.some.injEq] at hc
    rw [← hc]
    decide

theorem readBitRange_of_brackets {text : String} {lsb msb : Nat} (h : WritesBrackets text lsb msb)
    (hle : lsb ≤ msb) : readBitRange text = .ok ⟨lsb, msb⟩ := by
  rcases h with ⟨front, back, first, last, htext, hfront, hback, hlast, hfirst⟩
  have hcolon : ∀ c ∈ last, (c != ':') = true := by
    intro c hc
    rw [bne_iff_ne]
    rintro rfl
    exact colon_not_mem hlast hc
  have hbefore : (last ++ ':' :: first).takeWhile (· != ':') = last := by
    rw [List.takeWhile_append_of_pos hcolon]
    simp
  have hbehind : (last ++ ':' :: first).dropWhile (· != ':') = ':' :: first := by
    rw [List.dropWhile_append_of_pos hcolon]
    simp
  simp only [readBitRange, htext, strip_surrounded hfront (isStripped_bracketed _) hback,
    unbracket?_bracketed, Option.map_some, hbefore, hbehind, integerIn_eq_ok hlast,
    integerIn_eq_ok hfirst]
  exact orderedBits_eq_ok_iff.mpr ⟨by omega, rfl⟩

end

/-! ## Ends -/

section

variable {e : Element}

theorem bitEnds?_of_lone (hlone : LoneEndIsRead e) (h : ¬BitForm.ends.IsIn e) :
    bitEnds? e = .ok none := by
  cases hlsb : e.child? "lsb" with
  | none => simp only [bitEnds?, integer?_eq_ok_none_iff.mpr hlsb]; rfl
  | some child =>
      have hmsb : e.child? "msb" = none := by
        rw [← Option.not_isSome_iff_eq_none]
        intro hmsb
        exact h ⟨by rw [hlsb]; rfl, hmsb⟩
      rcases hlone with hnone | hsome | ⟨n, hn⟩
      · rw [hlsb] at hnone
        cases hnone
      · rw [hmsb] at hsome
        cases hsome
      · simp only [bitEnds?, hn.integer?, integer?_eq_ok_none_iff.mpr hmsb]
        rfl

theorem writesBits_of_form {form : BitForm} {lsb msb : Nat} (hle : lsb ≤ msb)
    (h : form.Writes e lsb msb) (hfirst : ∀ other : BitForm, other.rank < form.rank → ¬other.IsIn e)
    (hlone : LoneEndIsRead e) : WritesBits e ⟨lsb, msb⟩ := by
  cases form with
  | ends => exact .ends h.1.integer? h.2.integer? (by omega)
  | span =>
      have hends := bitEnds?_of_lone hlone (hfirst .ends (by decide))
      rcases h with ⟨hoffset, hwidth | ⟨hnone, rfl⟩⟩
      · have hspan := WritesBits.span hends hoffset.integer? hwidth.integer?
          (by simp only [Option.getD_some]; omega)
        have hmsb : (lsb : Int) + ((msb - lsb + 1 : Nat) : Int) - 1 = msb := by omega
        rwa [Option.getD_some, hmsb] at hspan
      · have hspan := WritesBits.span hends hoffset.integer? (integer?_eq_ok_none_iff.mpr hnone)
          (by simp only [Option.getD_none]; omega)
        rwa [Option.getD_none, Int.add_sub_cancel] at hspan
  | brackets =>
      rcases h with ⟨child, text, hchild, htext, hbrackets⟩
      have hoffset : e.child? "bitOffset" = none :=
        Option.not_isSome_iff_eq_none.mp (hfirst .span (by decide))
      refine .brackets (bitEnds?_of_lone hlone (hfirst .ends (by decide)))
        (integer?_eq_ok_none_iff.mpr hoffset) hchild ?_
      rw [htext, Option.getD_some]
      exact readBitRange_of_brackets hbrackets hle

end

/-! ## Reading a field -/

/-- Bits that are written are in order. -/
theorem WritesBits.ordered {e : Element} {bits : BitRange} (h : WritesBits e bits) :
    bits.lsb ≤ bits.msb := by
  cases h with
  | ends _ _ hle => exact hle
  | span _ _ _ hle => exact hle
  | brackets _ _ _ hbits => exact (words_of_readBitRange hbits).2.2

theorem bitsOf_of_lacksBits {e child : Element} (h : LacksBits e)
    (hchild : e.child? Property.bitRange.word = some child) :
    bitsOf e = .ok (standInBits child) :=
  bitsOf_eq_ok_iff.mpr (.standIn h hchild)

theorem bitsOf_of_no_standIn {e : Element} (h : LacksBits e)
    (hchild : e.child? Property.bitRange.word = none) :
    bitsOf e = .error (.absent .bitRange) :=
  orStandIn_eq_absent_iff.mpr ⟨writtenBits_eq_absent_iff.mpr h, hchild, rfl⟩

/-- All bits of an element are in order exactly if those that stand in for missing ones are. -/
theorem bitsOf_ordered_iff {e : Element} :
    (∀ bits, bitsOf e = .ok bits → bits.lsb ≤ bits.msb) ↔
      (LacksBits e → ∀ child ∈ e.child? Property.bitRange.word,
        (standInBits child).lsb ≤ (standInBits child).msb) := by
  constructor
  · intro h hlacks child hchild
    exact h _ (bitsOf_of_lacksBits hlacks hchild)
  · intro h bits hbits
    cases bitsOf_eq_ok_iff.mp hbits with
    | written hwrites => exact hwrites.ordered
    | standIn hlacks hchild => exact h hlacks _ hchild

/--
In whichever form an element writes some bits, these are the bits that are read, and those
of the field that is decoded from it, as long as it has no form that comes first.  An
element with a single end is read as one without it, and one with no form at all has no
bits, unless a child stands in for them.  Bits whose ends are reversed are read only from
such a child.
-/
theorem bitsOf_forms (l : Located) :
    (∀ (form : BitForm) (lsb msb : Nat), lsb ≤ msb → form.Writes l.element lsb msb →
      (∀ other : BitForm, other.rank < form.rank → ¬other.IsIn l.element) →
      LoneEndIsRead l.element →
      bitsOf l.element = .ok ⟨lsb, msb⟩ ∧ ∀ f, decodeField l = .ok f → f.bits = ⟨lsb, msb⟩) ∧
    (¬BitForm.ends.IsIn l.element → LoneEndIsRead l.element →
      (∀ other : Element, other.child? "lsb" = none →
        (∀ tag ∈ ["bitOffset", "bitWidth", "bitRange"] ++
          Container.standInTags [.bitOffset, .bitWidth, .bitRange],
            SameContent l.element other tag) →
        bitsOf l.element = bitsOf other) ∧
      (¬BitForm.span.IsIn l.element → ¬BitForm.brackets.IsIn l.element →
        (l.element.child? "bit_range" = none → bitsOf l.element = .error (.absent .bitRange)) ∧
          ∀ child ∈ l.element.child? "bit_range",
            bitsOf l.element = .ok (standInBits child))) ∧
    ((∀ bits, bitsOf l.element = .ok bits → bits.lsb ≤ bits.msb) ↔
      (LacksBits l.element → ∀ child ∈ l.element.child? "bit_range",
        (standInBits child).lsb ≤ (standInBits child).msb)) := by
  refine ⟨?_, ?_, bitsOf_ordered_iff⟩
  · intro form lsb msb hle hwrites hfirst hlone
    have hbits := bitsOf_eq_ok_iff.mpr (.written (writesBits_of_form hle hwrites hfirst hlone))
    refine ⟨hbits, fun f hf => ?_⟩
    have hfield := (decodeField_eq_ok_iff.mp hf).bits
    rw [hbits] at hfield
    exact (Except.ok.inj hfield).symm
  · intro hends hlone
    have hnone := bitEnds?_of_lone hlone hends
    constructor
    · intro other hother hsame
      have hother : bitEnds? other = .ok none := by
        refine bitEnds?_of_lone (.inl hother) ?_
        rintro ⟨hlsb, -⟩
        rw [hother] at hlsb
        cases hlsb
      exact SameContent.bitsOf_of_ends (hnone.trans hother.symm) hsame
    · intro hspan hbrackets
      have hlacks : LacksBits l.element := .none hnone (Option.not_isSome_iff_eq_none.mp hspan)
        (Option.not_isSome_iff_eq_none.mp hbrackets)
      exact ⟨bitsOf_of_no_standIn hlacks, fun child => bitsOf_of_lacksBits hlacks⟩

/-! ### The upper half of a word -/

def halfField (nodes : List Node) : Located :=
  .root (.mk ⟨none, "field"⟩ [] 1 (textNode "name" "HALF" :: nodes))

/-- A single end does not stand in the way, and the brackets behind a span are not looked at. -/
theorem bitsOf_forms_half :
    bitsOf (halfField [textNode "lsb" "0x10", textNode "msb" "+31"]).element = .ok ⟨16, 31⟩ ∧
      bitsOf (halfField [textNode "msb" "7", textNode "bitOffset" "#1_0000",
        textNode "bitWidth" "1_6", textNode "bitRange" "[3:0]"]).element = .ok ⟨16, 31⟩ ∧
      bitsOf (halfField [textNode "lsb" "0", textNode "bitRange" " [0x1F: 16]\n"]).element =
        .ok ⟨16, 31⟩ := by
  refine ⟨?_, ?_, ?_⟩
  · refine ((bitsOf_forms _).1 .ends 16 31 (by decide) ⟨?_, ?_⟩ ?_ ?_).1
    · exact ⟨_, _, rfl, rfl, by decide +kernel⟩
    · exact ⟨_, _, rfl, rfl, by decide +kernel⟩
    · rintro (_ | _ | _) <;> decide +kernel
    · exact .inr (.inl rfl)
  · refine ((bitsOf_forms _).1 .span 16 31 (by decide) ⟨?_, .inl ?_⟩ ?_ ?_).1
    · exact ⟨_, _, rfl, rfl, by decide +kernel⟩
    · exact ⟨_, _, rfl, rfl, by decide +kernel⟩
    · rintro (_ | _ | _) <;> decide +kernel
    · exact .inl rfl
  · refine ((bitsOf_forms _).1 .brackets 16 31 (by decide) ⟨_, _, rfl, rfl, ?_⟩ ?_ ?_).1
    · exact ⟨[' '], ['\n'], [' ', '1', '6'], ['0', 'x', '1', 'F'], rfl,
        List.forall_mem_singleton.mpr (by decide), List.forall_mem_singleton.mpr (by decide),
        by decide +kernel, by decide +kernel⟩
    · rintro (_ | _ | _) <;> decide +kernel
    · exact .inr (.inr ⟨0, _, _, rfl, rfl, by decide +kernel⟩)

/-! ### Bits in the wrong order -/

def reversedHalf : Located :=
  halfField [groupNode "bit_range" [textNode "lsb" "7", textNode "msb" "3"]]

/-- A child that is named like the bits themselves gives them, and nothing puts them in order. -/
theorem bitsOf_standIn_reversed :
    bitsOf reversedHalf.element = .ok ⟨7, 3⟩ ∧
      (BitRange.mk 7 3).msb < (BitRange.mk 7 3).lsb :=
  ⟨rfl, by decide⟩

end RegisterMap.Description
