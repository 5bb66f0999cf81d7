import RegisterMap.Proofs.Description.StandIn

/-!
# Bits of a field

The three ways in which a field writes its bits, and the child that stands in for
them.  The first bit that is written is always a number in the field, and so is the
last one unless it is worked out from the first bit and a width.
-/

namespace RegisterMap.Description

open RegisterMap.Export (IsWord?)
open RegisterMap.Model RegisterMap.Number RegisterMap.Report.Outcome RegisterMap.Xml

theorem orderedBits_eq_ok_iff {lsb msb : Int} {bits : BitRange} :
    orderedBits lsb msb = .ok bits ↔ lsb ≤ msb ∧ bits = ⟨lsb, msb⟩ := by
  unfold orderedBits
  split
  · simp only [reduceCtorEq, false_iff, not_and]
    omega
  · simp only [Except.ok.injEq, eq_comm]
    constructor
    · intro h
      exact ⟨by omega, h⟩
    · exact And.right

theorem isWord_of_integerIn {text : List Char} {n : Int} (h : integerIn text = .ok n) :
    isWord n = true := by
  unfold integerIn at h
  split at h
  · rename_i m hm
    cases h
    exact isWord_of_readScaled hm
  · cases h

/-- A bit range in brackets is ordered, and both of its ends are words. -/
theorem words_of_readBitRange {text : String} {bits : BitRange}
    (h : readBitRange text = .ok bits) :
    isWord bits.lsb = true ∧ isWord bits.msb = true ∧ bits.lsb ≤ bits.msb := by
  simp only [readBitRange] at h
  split at h
  · simp only [bind_eq_ok_iff, orderedBits_eq_ok_iff] at h
    rcases h with ⟨lsb, hlsb, msb, hmsb, hle, rfl⟩
    exact ⟨isWord_of_integerIn hlsb, isWord_of_integerIn hmsb, hle⟩
  · cases h

/-- How an element writes its bits. -/
inductive WritesBits (e : Element) : BitRange → Prop
  /-- By its first and its last bit. -/
  | ends {lsb msb : Int} (hlsb : integer? e "lsb" .lsb = .ok (some lsb))
      (hmsb : integer? e "msb" .msb = .ok (some msb)) (hle : lsb ≤ msb) :
      WritesBits e ⟨lsb, msb⟩
  /-- By its first bit and a width, which is one if it is not given. -/
  | span {lsb : Int} {width : Option Int} (hends : bitEnds? e = .ok none)
      (hlsb : integer? e "bitOffset" .bitOffset = .ok (some lsb))
      (hwidth : integer? e "bitWidth" .bitWidth = .ok width)
      (hle : lsb ≤ lsb + width.getD 1 - 1) : WritesBits e ⟨lsb, lsb + width.getD 1 - 1⟩
  /-- By a text in brackets. -/
  | brackets {child : Element} {bits : BitRange} (hends : bitEnds? e = .ok none)
      (hlsb : integer? e "bitOffset" .bitOffset = .ok none)
      (hchild : e.child? "bitRange" = some child)
      (hbits : readBitRange (child.text?.getD "") = .ok bits) : WritesBits e bits

theorem bitEnds?_eq_some_iff {e : Element} {lsb msb : Int} :
    bitEnds? e = .ok (some (lsb, msb)) ↔
      integer? e "lsb" .lsb = .ok (some lsb) ∧
        integer? e "msb" .msb = .ok (some msb) := by
  simp only [bitEnds?, bind_eq_ok_iff]
  constructor
  · rintro ⟨_ | lsb', hlsb, h⟩
    · cases h
    · rcases bind_eq_ok_iff.mp h with ⟨_ | msb', hmsb, h⟩
      · cases h
      · cases h
        exact ⟨hlsb, hmsb⟩
  · rintro ⟨hlsb, hmsb⟩
    exact ⟨_, hlsb, bind_eq_ok_iff.mpr ⟨_, hmsb, rfl⟩⟩

theorem writtenBits_eq_ok_iff {e : Element} {bits : BitRange} :
    writtenBits e = .ok bits ↔ WritesBits e bits := by
  simp only [writtenBits, bind_eq_ok_iff]
  constructor
  · rintro ⟨_ | ⟨lsb, msb⟩, hends, h⟩
    · rcases bind_eq_ok_iff.mp h with ⟨_ | lsb, hlsb, h⟩
      · cases hchild : e.child? "bitRange" with
        | none =>
            rw [hchild] at h
            cases h
        | some child =>
            rw [hchild] at h
            exact .brackets hends hlsb hchild h
      · rcases bind_eq_ok_iff.mp h with ⟨width, hwidth, h⟩
        rcases orderedBits_eq_ok_iff.mp h with ⟨hle, rfl⟩
        exact .span hends hlsb hwidth hle
    · rcases orderedBits_eq_ok_iff.mp h with ⟨hle, rfl⟩
      rcases bitEnds?_eq_some_iff.mp hends with ⟨hlsb, hmsb⟩
      exact .ends hlsb hmsb hle
  · intro h
    cases h with
    | ends hlsb hmsb hle =>
        exact ⟨_, bitEnds?_eq_some_iff.mpr ⟨hlsb, hmsb⟩, orderedBits_eq_ok_iff.mpr ⟨hle, rfl⟩⟩
    | span hends hlsb hwidth hle =>
        refine ⟨_, hends, bind_eq_ok_iff.mpr ⟨_, hlsb, bind_eq_ok_iff.mpr ⟨_, hwidth, ?_⟩⟩⟩
        exact orderedBits_eq_ok_iff.mpr ⟨hle, rfl⟩
    | brackets hends hlsb hchild hbits =>
        refine ⟨_, hends, bind_eq_ok_iff.mpr ⟨_, hlsb, ?_⟩⟩
        simp only [hchild, hbits]

/-- True of an element from which no bits can be read because something is not there. -/
inductive LacksBits (e : Element) : Prop
  | lsb (h : LacksInteger e "lsb" .lsb) : LacksBits e
  | msb {lsb : Int} (hlsb : integer? e "lsb" .lsb = .ok (some lsb))
      (h : LacksInteger e "msb" .msb) : LacksBits e
  | bitOffset (hends : bitEnds? e = .ok none) (h : LacksInteger e "bitOffset" .bitOffset) :
      LacksBits e
  | bitWidth {lsb : Int} (hends : bitEnds? e = .ok none)
      (hlsb : integer? e "bitOffset" .bitOffset = .ok (some lsb))
      (h : LacksInteger e "bitWidth" .bitWidth) : LacksBits e
  /-- No way to write them is used. -/
  | none (hends : bitEnds? e = .ok none) (hspan : e.child? "bitOffset" = none)
      (hbrackets : e.child? "bitRange" = none) : LacksBits e

theorem orderedBits_ne_absent {lsb msb : Int} {missing : Property} :
    orderedBits lsb msb ≠ .error (.absent missing) := by
  unfold orderedBits
  split <;> simp

theorem integerIn_ne_absent {text : List Char} {missing : Property} :
    integerIn text ≠ .error (.absent missing) := by
  unfold integerIn
  split <;> simp

theorem readBitRange_ne_absent {text : String} {missing : Property} :
    readBitRange text ≠ .error (.absent missing) := by
  simp only [readBitRange]
  split
  · simp only [ne_eq, bind_eq_error_iff, integerIn_ne_absent, orderedBits_ne_absent, and_false,
      exists_false, or_false, not_false_iff]
  · simp

theorem bitEnds?_eq_absent_iff {e : Element} :
    (∃ missing, bitEnds? e = .error (.absent missing)) ↔ LacksInteger e "lsb" .lsb ∨
      ∃ lsb, integer? e "lsb" .lsb = .ok (some lsb) ∧ LacksInteger e "msb" .msb := by
  simp only [bitEnds?, ← integer?_eq_absent_iff, bind_eq_error_iff]
  constructor
  · rintro ⟨missing, h | ⟨_ | lsb, hlsb, h⟩⟩
    · exact .inl ⟨missing, h⟩
    · cases h
    · rcases bind_eq_error_iff.mp h with h | ⟨_ | msb, -, h⟩
      · exact .inr ⟨lsb, hlsb, missing, h⟩
      · cases h
      · cases h
  · rintro (⟨missing, h⟩ | ⟨lsb, hlsb, missing, h⟩)
    · exact ⟨missing, .inl h⟩
    · exact ⟨missing, .inr ⟨_, hlsb, bind_eq_error_iff.mpr (.inl h)⟩⟩

theorem writtenBits_eq_absent_iff {e : Element} :
    (∃ missing, writtenBits e = .error (.absent missing)) ↔ LacksBits e := by
  simp only [writtenBits, bind_eq_error_iff]
  constructor
  · rintro ⟨missing, h | ⟨_ | ⟨lsb, msb⟩, hends, h⟩⟩
    · rcases bitEnds?_eq_absent_iff.mp ⟨missing, h⟩ with h | ⟨lsb, hlsb, h⟩
      · exact .lsb h
      · exact .msb hlsb h
    · rcases bind_eq_error_iff.mp h with h | ⟨_ | lsb, hlsb, h⟩
      · exact .bitOffset hends (integer?_eq_absent_iff.mp ⟨missing, h⟩)
      · have hspan := integer?_eq_ok_none_iff.mp hlsb
        cases hchild : e.child? "bitRange" with
        | none => exact .none hends hspan hchild
        | some child =>
            rw [hchild] at h
            exact absurd h readBitRange_ne_absent
      · rcases bind_eq_error_iff.mp h with h | ⟨width, -, h⟩
        · exact .bitWidth hends hlsb (integer?_eq_absent_iff.mp ⟨missing, h⟩)
        · exact absurd h orderedBits_ne_absent
    · exact absurd h orderedBits_ne_absent
  · intro h
    cases h with
    | lsb h =>
        rcases bitEnds?_eq_absent_iff.mpr (.inl h) with ⟨missing, h⟩
        exact ⟨missing, .inl h⟩
    | msb hlsb h =>
        rcases bitEnds?_eq_absent_iff.mpr (.inr ⟨_, hlsb, h⟩) with ⟨missing, h⟩
        exact ⟨missing, .inl h⟩
    | bitOffset hends h =>
        rcases integer?_eq_absent_iff.mpr h with ⟨missing, h⟩
        exact ⟨missing, .inr ⟨_, hends, bind_eq_error_iff.mpr (.inl h)⟩⟩
    | bitWidth hends hlsb h =>
        rcases integer?_eq_absent_iff.mpr h with ⟨missing, h⟩
        exact ⟨missing, .inr ⟨_, hends, bind_eq_error_iff.mpr
          (.inr ⟨_, hlsb, bind_eq_error_iff.mpr (.inl h)⟩)⟩⟩
    | none hends hspan hbrackets =>
        refine ⟨.bitRange, .inr ⟨_, hends, bind_eq_error_iff.mpr
          (.inr ⟨_, integer?_eq_ok_none_iff.mpr hspan, ?_⟩)⟩⟩
        rw [hbrackets]
        rfl

/-- How an element gives a bit range. -/
inductive ReadsBits (e : Element) : BitRange → Prop
  | written {bits : BitRange} (h : WritesBits e bits) : ReadsBits e bits
  /-- By a child in the place of all ways to write it. -/
  | standIn {child : Element} (hlacks : LacksBits e)
      (hchild : e.child? Property.bitRange.word = some child) : ReadsBits e (standInBits child)

theorem bitsOf_eq_ok_iff {e : Element} {bits : BitRange} :
    bitsOf e = .ok bits ↔ ReadsBits e bits := by
  rw [bitsOf, orStandIn_eq_ok_iff, writtenBits_eq_ok_iff, writtenBits_eq_absent_iff]
  constructor
  · rintro (h | ⟨hlacks, child, hchild, rfl⟩)
    · exact .written h
    · exact .standIn hlacks hchild
  · rintro (h | ⟨hlacks, hchild⟩)
    · exact .inl h
    · exact .inr ⟨hlacks, _, hchild, rfl⟩

/-- Bits are written where no child can stand in for them. -/
theorem HoldsNoStandIn.writesBits {e : Element} {bits : BitRange} (h : HoldsNoStandIn e)
    (hbits : bitsOf e = .ok bits) : WritesBits e bits := by
  rw [bitsOf, orStandIn_eq_ok_iff_of_none (h.own .bitRange (by decide))] at hbits
  exact writtenBits_eq_ok_iff.mp hbits

end RegisterMap.Description
