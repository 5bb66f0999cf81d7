import Mathlib.Algebra.Ring.Int.Defs
import RegisterMap.Proofs.Description.ConstraintKind
import RegisterMap.Proofs.Description.WellFormed

/-!
# Range of decoded numbers

A number that is written in a description is a word when it is decoded.  A last
bit that is worked out from a first bit and a width need not be one, and a bound
that is left empty is no number at all.  If no child stands in for a value, the
numbers of a decoded device are all there and all words exactly if its description
gives none of these two.
-/

namespace RegisterMap.Description

open RegisterMap.Export (IsWord?)
open RegisterMap.Model RegisterMap.Number RegisterMap.Report.Outcome RegisterMap.Xml

/-! ## Last bits -/

/-- True of an element that gives its bits by the first one and a width, not by both ends. -/
structure GivesSpan (e : Element) (lsb width : Int) : Prop where
  noEnds : e.child? "lsb" = none ∨ e.child? "msb" = none
  lsb : integer? e "bitOffset" .bitOffset = .ok (some lsb)
  width : integer? e "bitWidth" .bitWidth = .ok (some width) ∨
    e.child? "bitWidth" = none ∧ width = 1

theorem noEnds_of_bitEnds? {e : Element} (h : bitEnds? e = .ok none) :
    e.child? "lsb" = none ∨ e.child? "msb" = none := by
  rcases bind_eq_ok_iff.mp h with ⟨_ | lsb, hlsb, h⟩
  · exact .inl (integer?_eq_ok_none_iff.mp hlsb)
  · rcases bind_eq_ok_iff.mp h with ⟨_ | msb, hmsb, h⟩
    · exact .inr (integer?_eq_ok_none_iff.mp hmsb)
    · cases h

/-- The last bit is a word unless a span is given that reaches too far. -/
theorem WritesBits.isWord_msb_iff {e : Element} {bits : BitRange} (h : WritesBits e bits)
    (hplain : HoldsNoStandIn e) :
    isWord bits.msb = true ↔ ∀ lsb width, GivesSpan e lsb width → lsb + width ≤ wordLimit := by
  cases h with
  | ends hlsb hmsb hle =>
      constructor
      · intro _ lsb' width hspan
        rcases hspan.noEnds with hnone | hnone
        · rw [integer?_eq_ok_none_iff.mpr hnone] at hlsb
          cases hlsb
        · rw [integer?_eq_ok_none_iff.mpr hnone] at hmsb
          cases hmsb
      · intro _
        exact hplain.isWord?_integer? (by decide) hmsb _ rfl
  | @span lsb width hends hlsb hwidth hle =>
      -- Only one span is given, for the first child with each tag counts.
      have hunique {lsb' width' : Int} (hspan : GivesSpan e lsb' width') :
          lsb' = lsb ∧ width' = width.getD 1 := by
        have hfirst := hspan.lsb
        rw [hlsb] at hfirst
        cases hfirst
        refine ⟨rfl, ?_⟩
        rcases hspan.width with hsome | ⟨hnone, rfl⟩
        · rw [hwidth] at hsome
          cases hsome
          rfl
        · rw [integer?_eq_ok_none_iff.mpr hnone] at hwidth
          cases hwidth
          rfl
      have hgiven : GivesSpan e lsb (width.getD 1) := by
        refine ⟨noEnds_of_bitEnds? hends, hlsb, ?_⟩
        cases width with
        | none => exact .inr ⟨integer?_eq_ok_none_iff.mp hwidth, rfl⟩
        | some width => exact .inl hwidth
      have hword : isWord lsb = true := hplain.isWord?_integer? (by decide) hlsb _ rfl
      simp only [isWord, Bool.and_eq_true, decide_eq_true_eq] at hword ⊢
      constructor
      · intro hmsb lsb' width' hspan
        rcases hunique hspan with ⟨rfl, rfl⟩
        omega
      · intro hreach
        have hle' := hreach _ _ hgiven
        omega
  | brackets hends hlsb hchild hbits =>
      constructor
      · intro _ lsb' width hspan
        rw [hspan.lsb] at hlsb
        cases hlsb
      · intro _
        exact (words_of_readBitRange hbits).2.1

/-! ## Bounds -/

/-- True of a write constraint and the range in it, if that is the kind that is used. -/
structure UsesRange (e range : Element) : Prop where
  writeAsRead : truthIn? e "writeAsRead" .writeAsRead = none
  useEnumeratedValues : truthIn? e "useEnumeratedValues" .useEnumeratedValues = none
  range : e.child? "range" = some range

/-- True of a range with a text in each of its bounds. -/
def FillsBounds (range : Element) : Prop :=
  ∀ tag ∈ Container.range.valueTags, ∀ child ∈ range.child? tag, child.text?.isSome

theorem isWord?_boundOf {range : Element} {bound : Property} {n? : Option Int}
    (hplain : HoldsNoStandIn range) (h : boundOf range bound = .ok n?) :
    IsWord? n? ∧ (n?.isSome ↔ ∀ child ∈ range.child? bound.word, child.text?.isSome) := by
  rcases boundOf_eq_ok_iff.mp h with ⟨hchild, hn⟩ | ⟨hchild, hnothing⟩
  · refine ⟨isWord?_some (hplain.isWord hchild hn), iff_of_true rfl ?_⟩
    intro child hmem
    cases hchild.symm.trans hmem
    cases hn with
    | text htext _ => simp [htext]
    | standIn _ hstandIn =>
        rw [hplain.inner _ (mem_elements_of_child? hchild)] at hstandIn
        cases hstandIn
  · refine ⟨nofun, iff_of_false nofun ?_⟩
    intro hfilled
    have htext := hfilled _ hchild
    rw [hnothing.text] at htext
    cases htext

theorem ReadsConstraint.bounded_iff {e : Element} {constraint : WriteConstraint}
    (h : ReadsConstraint e constraint)
    (hplain : ∀ range ∈ e.child? "range", HoldsNoStandIn range) :
    constraint.Bounded ↔ ∀ range, UsesRange e range → FillsBounds range := by
  unfold ReadsConstraint constraintIn? at h
  split at h
  · rename_i value hread
    cases h
    refine iff_of_true (.writeAsRead value) ?_
    intro range huses
    simp [huses.writeAsRead] at hread
  · rename_i value hread huse
    cases h
    refine iff_of_true (.useEnumeratedValues value) ?_
    intro range huses
    simp [huses.useEnumeratedValues] at huse
  · rename_i range hread huse hrange
    simp only [bind_eq_ok_iff, pure_eq_ok_iff] at h
    rcases h with ⟨minimum, hmin, maximum, hmax, h⟩
    cases h
    have hlow := isWord?_boundOf (hplain range hrange) hmin
    have hhigh := isWord?_boundOf (hplain range hrange) hmax
    rw [WriteConstraint.bounded_range_iff hlow.1 hhigh.1, hlow.2, hhigh.2]
    have hfills : FillsBounds range ↔
        (∀ child ∈ range.child? Property.minimum.word, child.text?.isSome) ∧
          ∀ child ∈ range.child? Property.maximum.word, child.text?.isSome := by
      simp only [FillsBounds, Property.word, Container.valueTags, List.forall_mem_cons,
        List.not_mem_nil, false_imp_iff, implies_true, and_true]
    rw [← hfills]
    constructor
    · intro hfilled range' huses
      rw [← Option.some.inj (hrange.symm.trans huses.range)]
      exact hfilled
    · intro hfilled
      exact hfilled range ⟨hread, huse, hrange⟩
  · cases h

/-! ## Devices -/

/-- True of a visited element in which no child can stand in for a number. -/
@[mk_iff]
structure Visit.HoldsNoStandIn (v : Visit) : Prop where
  element : Description.HoldsNoStandIn v.place.element
  range : ∀ constraint ∈ v.place.element.child? "writeConstraint",
    ∀ range ∈ constraint.child? "range", Description.HoldsNoStandIn range

instance : DecidablePred Visit.HoldsNoStandIn :=
  fun v => decidable_of_iff' _ (Visit.holdsNoStandIn_iff v)

/--
True of a visited element that gives no bits of a field past the last that can be
numbered, and leaves no bound of a constraint empty.
-/
structure Visit.GivesNumbers (v : Visit) : Prop where
  reach : v.shape = .field →
    ∀ lsb width, GivesSpan v.place.element lsb width → lsb + width ≤ wordLimit
  bounds : v.shape = .register ∨ v.shape = .field →
    ∀ constraint ∈ v.place.element.child? "writeConstraint",
      ∀ range, UsesRange constraint range → FillsBounds range

theorem bounded_iff_of_rel {e : Option Element} {constraint : Option WriteConstraint}
    (h : Option.Rel ReadsConstraint e constraint)
    (hplain : ∀ child ∈ e, ∀ range ∈ child.child? "range", HoldsNoStandIn range) :
    (∀ c ∈ constraint, c.Bounded) ↔
      ∀ child ∈ e, ∀ range, UsesRange child range → FillsBounds range := by
  cases h with
  | none => simp
  | some h => simpa using h.bounded_iff (hplain _ rfl)

theorem ReadsItem.numbersFit_iff {v : Visit} {i : Item} (h : ReadsItem v i)
    (hplain : v.HoldsNoStandIn) : i.NumbersFit ↔ v.GivesNumbers := by
  rw [(h.wellFormed hplain.element).numbersFit_iff]
  cases h with
  | device | peripheral | cluster => exact iff_of_true ⟨nofun, nofun⟩ ⟨nofun, nofun⟩
  | register h =>
      have hbounds := bounded_iff_of_rel h.writeConstraint hplain.range
      constructor
      · rintro ⟨-, hbounded⟩
        exact ⟨nofun, fun _ => hbounds.mp hbounded⟩
      · intro hgives
        exact ⟨nofun, hbounds.mpr (hgives.bounds (.inl rfl))⟩
  | @field l f h =>
      have hbounds := bounded_iff_of_rel h.writeConstraint hplain.range
      have hbits := (hplain.element.writesBits h.bits).isWord_msb_iff hplain.element
      constructor
      · rintro ⟨hmsb, hbounded⟩
        exact ⟨fun _ => hbits.mp (hmsb _ rfl), fun _ => hbounds.mp hbounded⟩
      · intro hgives
        refine ⟨?_, hbounds.mpr (hgives.bounds (.inr rfl))⟩
        rintro _ ⟨⟩
        exact hbits.mpr (hgives.reach rfl)

/--
All numbers of a device that is decoded without stand-ins are there and are words exactly
if its description gives no bits that reach too far and leaves no bound empty.
-/
theorem decodeDevice_numbersFit_iff {root : Element} {device : Device}
    (h : decodeDevice root = .ok device) (hplain : ∀ v ∈ visits root, v.HoldsNoStandIn) :
    device.NumbersFit ↔ ∀ v ∈ visits root, v.GivesNumbers := by
  have hitems := (decodeDevice_eq_ok_iff.mp h).items
  constructor
  · intro hfit v hv
    rcases exists_mem_right hitems hv with ⟨i, hi, hread⟩
    exact (hread.numbersFit_iff (hplain v hv)).mp (hfit i hi)
  · intro hgives i hi
    rcases exists_mem_left hitems hi with ⟨v, hv, hread⟩
    exact (hread.numbersFit_iff (hplain v hv)).mpr (hgives v hv)

/-! ### A span at the end of the numbers -/

/-- A chip with one register, which holds one field with a first bit and a width. -/
def spanDocument (lsb width : String) : Element :=
  deviceDocument "Chip"
    [groupNode "peripheral" [textNode "name" "PORT", textNode "baseAddress" "0",
      groupNode "registers" [groupNode "register" [textNode "name" "OUT",
        textNode "addressOffset" "0", groupNode "fields" [groupNode "field"
          [textNode "name" "PIN", textNode "bitOffset" lsb, textNode "bitWidth" width]]]]]]

def spanDevice (bits : BitRange) : Device where
  name := "Chip"
  peripherals := [{
    name := "PORT"
    registers := some [{ name := "OUT", addressOffset := 0, fields := some [⟨"PIN", bits, none,
      none, none, none⟩] }]
    clusters := some [] }]

/-- The last bit that 64 bits can number is reached, so the numbers of the chip fit. -/
theorem decodeDevice_numbersFit_iff_span :
    decodeDevice (spanDocument "0xfffffffffffffffe" "2") =
        .ok (spanDevice ⟨2 ^ 64 - 2, 2 ^ 64 - 1⟩) ∧
      (∀ v ∈ visits (spanDocument "0xfffffffffffffffe" "2"), v.HoldsNoStandIn) ∧
      (spanDevice ⟨2 ^ 64 - 2, 2 ^ 64 - 1⟩).NumbersFit ∧
        ∀ v ∈ visits (spanDocument "0xfffffffffffffffe" "2"), v.GivesNumbers := by
  have hdecode : decodeDevice (spanDocument "0xfffffffffffffffe" "2") =
      .ok (spanDevice ⟨2 ^ 64 - 2, 2 ^ 64 - 1⟩) := rfl
  have hfit : (spanDevice ⟨2 ^ 64 - 2, 2 ^ 64 - 1⟩).NumbersFit := by decide
  have hplain : ∀ v ∈ visits (spanDocument "0xfffffffffffffffe" "2"), v.HoldsNoStandIn := by
    decide
  exact ⟨hdecode, hplain, hfit, (decodeDevice_numbersFit_iff hdecode hplain).mp hfit⟩

/-- One bit later the last bit is decoded all the same, but 64 bits do not hold its number. -/
theorem decodeDevice_lastBit_overflows :
    decodeDevice (spanDocument "0xffffffffffffffff" "2") =
        .ok (spanDevice ⟨2 ^ 64 - 1, 2 ^ 64⟩) ∧
      ¬(spanDevice ⟨2 ^ 64 - 1, 2 ^ 64⟩).NumbersFit :=
  ⟨rfl, by decide⟩

end RegisterMap.Description
