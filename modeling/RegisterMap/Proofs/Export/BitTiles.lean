import Mathlib.Data.List.Chain
import RegisterMap.Proofs.Export.ArrayElements
import RegisterMap.Proofs.Export.FieldMember
import RegisterMap.Proofs.Text.Delimited

/-!
# Replicas of a field side by side

A field with replicas and no distance of its own has them as far apart as it is wide.
So its replicas fill the bits from its first one on without a gap, and they run over
the end exactly if the bit behind the last of them does not fit in 64 bits.
-/

namespace RegisterMap.Export

open RegisterMap.Model RegisterMap.Number RegisterMap.Report RegisterMap.Swift RegisterMap.Text

/-! ## Spans of bits -/

/-- The bits from a lower one up to, and without, an upper one. -/
structure BitSpan where
  lower : Int
  upper : Int
  deriving DecidableEq, Repr

namespace BitSpan

def Holds (s : BitSpan) (bit : Int) : Prop :=
  s.lower ≤ bit ∧ bit < s.upper

def width (s : BitSpan) : Int := s.upper - s.lower

/-- The span at a place in a row of spans of one width. -/
def tile (first width : Int) (i : Nat) : BitSpan :=
  ⟨first + i * width, first + i * width + width⟩

end BitSpan

/-- Spans of one width in a row from a first bit on, with nothing between them. -/
structure Tiles (first width count : Int) (spans : List BitSpan) : Prop where
  length_eq : (spans.length : Int) = count
  width_eq : ∀ s ∈ spans, s.width = width
  starts : ∀ s ∈ spans.head?, s.lower = first
  joined : spans.IsChain fun s t => t.lower = s.upper
  apart : spans.Pairwise fun s t => ∀ bit, ¬(s.Holds bit ∧ t.Holds bit)
  covered : ∀ bit, (∃ s ∈ spans, s.Holds bit) ↔ first ≤ bit ∧ bit < first + count * width

section

variable {first width : Int}

theorem tile_succ_lower (first width : Int) (i : Nat) :
    (BitSpan.tile first width (i + 1)).lower = (BitSpan.tile first width i).upper := by
  simp only [BitSpan.tile, Int.natCast_succ, Int.add_mul, Int.one_mul, Int.add_assoc]

theorem tile_upper_le (first : Int) (hwidth : 0 ≤ width) {i j : Nat} (h : i < j) :
    (BitSpan.tile first width i).upper ≤ (BitSpan.tile first width j).lower := by
  rw [← tile_succ_lower]
  have hindex : ((i + 1 : Nat) : Int) ≤ j := by omega
  have hmul := Int.mul_le_mul_of_nonneg_right hindex hwidth
  simp only [BitSpan.tile]
  omega

/-- By induction on the number of spans: the last one continues the bits of those before it. -/
theorem exists_tile_holds_iff (hwidth : 0 ≤ width) (count : Nat) (bit : Int) :
    (∃ s ∈ (List.range count).map (BitSpan.tile first width), s.Holds bit) ↔
      first ≤ bit ∧ bit < first + count * width := by
  induction count with
  | zero => simp
  | succ count ih =>
      have hlast : (BitSpan.tile first width count).Holds bit ↔
          first + count * width ≤ bit ∧ bit < first + count * width + width := Iff.rfl
      have hnonneg : 0 ≤ (count : Int) * width := Int.mul_nonneg (Int.natCast_nonneg _) hwidth
      have hsucc : ((count + 1 : Nat) : Int) * width = count * width + width := by
        rw [Int.natCast_succ, Int.add_mul, Int.one_mul]
      rw [List.range_succ, List.map_append, hsucc]
      simp only [List.mem_append, or_and_right, exists_or, ih, List.map_cons, List.map_nil,
        List.mem_singleton, exists_eq_left, hlast]
      omega

theorem tiles_range (first : Int) (hwidth : 0 ≤ width) (count : Nat) :
    Tiles first width count ((List.range count).map (BitSpan.tile first width)) where
  length_eq := by rw [List.length_map, List.length_range]
  width_eq := by
    simp only [List.forall_mem_map]
    intro i _
    simp only [BitSpan.width, BitSpan.tile]
    omega
  starts := by
    cases count with
    | zero => simp
    | succ count => simp [List.range_succ_eq_map, BitSpan.tile]
  joined := by
    rw [List.isChain_map]
    cases count with
    | zero => exact .nil
    | succ count =>
        rw [List.isChain_range_succ]
        exact fun i _ => tile_succ_lower first width i
  apart := by
    rw [List.pairwise_map]
    refine List.pairwise_lt_range.imp fun hlt bit hboth => ?_
    have hle := tile_upper_le first hwidth hlt
    have hbelow := hboth.1.2
    have habove := hboth.2.1
    omega
  covered := exists_tile_holds_iff hwidth count

end

/-! ## Spans in declarations -/

/-- The attribute of a field with some access and the span of its bits. -/
def bitsAttribute (access : Option Access) (s : BitSpan) : String :=
  "@" ++ accessAttribute access ++ "(bits: " ++ toString s.lower ++ "..<" ++ toString s.upper ++ ")"

/-- True of the declaration of a field with some access that has the bits of a span. -/
def ShowsBits (access : Option Access) (text : String) (s : BitSpan) : Prop :=
  attributeLine? text = some (bitsAttribute access s).toList

theorem eq_of_toString_int_eq {m n : Int} (h : toString m = toString n) : m = n := by
  have hsign : ∀ a b : Nat, toString a ≠ "-" ++ toString b := by
    intro a b heq
    have hname : IsName ("-" ++ toString b) := heq ▸ isName_toString a
    exact absurd (isName_append.mp hname).1 (by decide)
  cases m with
  | ofNat m =>
      cases n with
      | ofNat n => exact congrArg Int.ofNat (eq_of_toString_eq h)
      | negSucc n => exact absurd h (hsign m (n + 1))
  | negSucc m =>
      cases n with
      | ofNat n => exact absurd h.symm (hsign n (m + 1))
      | negSucc n =>
          have hdigits := eq_of_toString_eq ((String.append_right_inj "-").mp h)
          obtain rfl := Nat.succ.inj hdigits
          rfl

theorem ne_dot_of_mem_toString {n : Int} {c : Char} (hc : c ∈ (toString n).toList) :
    (c != '.') = true := by
  have hname : ∀ {name : String}, IsName name → ∀ c ∈ name.toList, (c != '.') = true := by
    intro name hname c hc
    rw [bne_iff_ne]
    rintro rfl
    exact absurd (List.all_eq_true.mp hname _ hc) (by decide)
  cases n with
  | ofNat n => exact hname (isName_toString n) c hc
  | negSucc n =>
      have hdigits : (toString (Int.negSucc n)).toList = '-' :: (toString (n + 1)).toList :=
        String.toList_append
      rw [hdigits] at hc
      rcases List.mem_cons.mp hc with rfl | hc
      · decide
      · exact hname (isName_toString (n + 1)) c hc

theorem bitsAttribute_injective (access : Option Access) :
    Function.Injective (bitsAttribute access) := by
  rintro ⟨lower, upper⟩ ⟨lower', upper'⟩ h
  have hmark : "..<".toList = '.' :: ".<".toList := by decide
  simp only [bitsAttribute, String.append_assoc, String.append_right_inj] at h
  have hends := congrArg String.toList h
  simp only [String.toList_append, hmark, List.cons_append] at hends
  obtain ⟨hlower, -, hrest⟩ := append_cons_inj (fun _ => ne_dot_of_mem_toString)
    (fun _ => ne_dot_of_mem_toString) (by decide) (by decide) hends
  rw [List.append_cancel_left_eq, List.append_cancel_right_eq] at hrest
  rw [eq_of_toString_int_eq (String.toList_inj.mp hlower),
    eq_of_toString_int_eq (String.toList_inj.mp hrest)]

theorem isCode_bitsAttribute (access : Option Access) (s : BitSpan) :
    IsCode (bitsAttribute access s) := by
  unfold bitsAttribute
  repeat rw [isCode_append]
  exact ⟨⟨⟨⟨⟨⟨by decide, isCode_accessAttribute access⟩, by decide⟩, isCode_toString _⟩, by decide⟩,
    isCode_toString _⟩, by decide⟩

theorem showsBits_documented_iff (access : Option Access) (subject : Subject) (member : String)
    {s t : BitSpan} :
    ShowsBits access (subject.documented [bitsAttribute access s, member]) t ↔ t = s := by
  have hat : (bitsAttribute access s).toList.head? = some '@' := by
    simp [bitsAttribute]
  rw [ShowsBits, attributeLine?_documented (isCode_bitsAttribute access s) hat, Option.some_inj,
    String.toList_inj]
  exact ⟨fun h => (bitsAttribute_injective access h).symm, fun h => by rw [h]⟩

/-! ## Replicas of a field -/

/-- The bits of a replica. -/
def replicaSpan (bits : BitRange) (r : Replica) : BitSpan :=
  ⟨bits.lsb + r.offset, bits.msb + 1 + r.offset⟩

theorem fieldAccessors_eq_ok_iff {subject : Subject} {access : Option Access} {bits : BitRange}
    {x : Expansion} {texts : List String} :
    subject.fieldAccessors bits (accessAttribute access) x = .ok texts ↔
      (∀ r ∈ x.replicas, isWord r.offset = true ∧ isWord (bits.msb + 1 + r.offset) = true) ∧
        texts = x.replicas.map fun r =>
          let typeName := subject.typeName ++ r.suffix
          subject.documented [bitsAttribute access (replicaSpan bits r),
            subject.modifiers ++ "var " ++ identifier (instanceName typeName) ++ ": " ++
              identifier typeName] := by
  have hupper : ∀ r : Replica, [(bits.shifted r.offset).msb, 1].foldr (· + ·) 0 =
      bits.msb + 1 + r.offset := by
    intro r
    simp only [BitRange.shifted, List.foldr_cons, List.foldr_nil]
    omega
  unfold Subject.fieldAccessors
  rw [Expansion.mapReplicas_checkedSum_eq_ok_iff]
  simp only [hupper]
  rfl

section

variable (subject : Subject) (access : Option Access) {bits : BitRange} {count : Int}

/-- Replicas as far apart as a field is wide fit exactly if the bit behind the last does. -/
theorem fieldAccessors_error_iff (hlsb : 0 ≤ bits.lsb) (hmsb : bits.lsb ≤ bits.msb)
    (hcount : 1 ≤ count) :
    (∃ overflow, subject.fieldAccessors bits (accessAttribute access)
        ⟨some count, bits.width⟩ = .error overflow) ↔
      2 ^ 64 ≤ bits.lsb + count * bits.width := by
  have hwidth : 0 ≤ bits.width := by
    unfold BitRange.width
    omega
  have hreplica : Expansion.replicas ⟨some count, bits.width⟩ ≠ [] :=
    hasReplica_iff.mpr fun n hn => by
      cases hn
      omega
  have hlast : bits.msb + 1 + Expansion.lastOffset ⟨some count, bits.width⟩ =
      bits.lsb + count * bits.width := by
    have hwhole : bits.msb + 1 = bits.lsb + bits.width := by
      unfold BitRange.width
      omega
    simp only [Expansion.lastOffset, Int.sub_mul, Int.one_mul]
    omega
  have hlimit : (wordLimit : Int) = 2 ^ 64 := by decide
  have hend : 0 ≤ bits.msb + 1 := by omega
  have hfits := Expansion.forall_isWord_iff (e := ⟨some count, bits.width⟩) hwidth hend
  simp only [Outcome.exists_error_iff, ne_eq, fieldAccessors_eq_ok_iff, hfits, hlast, hlimit]
  simp [hreplica]

/-- Each member shows the bits of its replica, and these lie side by side. -/
theorem showsBits_of_fieldAccessors {members : List String}
    (h : subject.fieldAccessors bits (accessAttribute access) ⟨some count, bits.width⟩ =
      .ok members) :
    List.Forall₂ (fun member s => ∀ t, ShowsBits access member t ↔ t = s) members
      ((List.range count.toNat).map (BitSpan.tile bits.lsb bits.width)) := by
  have htexts := (fieldAccessors_eq_ok_iff.mp h).2
  have hreplicas : Expansion.replicas ⟨some count, bits.width⟩ =
      (List.range count.toNat).map (Expansion.replica ⟨some count, bits.width⟩) := rfl
  rw [htexts, hreplicas, List.map_map, List.forall₂_map_left_iff, List.forall₂_map_right_iff,
    List.forall₂_same]
  intro i _ t
  have hspan : replicaSpan bits (Expansion.replica ⟨some count, bits.width⟩ i) =
      .tile bits.lsb bits.width i := by
    simp only [replicaSpan, Expansion.replica, BitSpan.tile, BitRange.width, BitSpan.mk.injEq,
      true_and]
    omega
  rw [Function.comp_apply, hspan]
  exact showsBits_documented_iff access subject _

end

/--
The replicas of a field without a distance of its own overflow exactly if the bit behind
the last of them does not fit in 64 bits.  Otherwise the members show, in their order,
spans as wide as the field that fill the bits from its first one on.
-/
theorem fieldReplicas_tile (f : Field) (subject : Subject) (access : Option Access) {count : Int}
    (hlsb : 0 ≤ f.bits.lsb) (hmsb : f.bits.lsb ≤ f.bits.msb) (hcount : 1 ≤ count)
    (hdimension : f.dimension = some ⟨some count, none⟩) :
    ∃ x, fieldExpansion? f = some x ∧
      ((∃ overflow,
          subject.fieldAccessors f.bits (accessAttribute access) x = .error overflow) ↔
        2 ^ 64 ≤ f.bits.lsb + count * (f.bits.msb - f.bits.lsb + 1)) ∧
      ∀ members, subject.fieldAccessors f.bits (accessAttribute access) x = .ok members →
        ∃ spans, List.Forall₂ (fun member s => ∀ t, ShowsBits access member t ↔ t = s)
            members spans ∧
          Tiles f.bits.lsb (f.bits.msb - f.bits.lsb + 1) count spans := by
  have hx : fieldExpansion? f = some ⟨some count, f.bits.width⟩ := by
    have hne : count ≠ 0 := by omega
    simp [fieldExpansion?, hdimension, Dimension.expansion?, hne]
  refine ⟨_, hx, fieldAccessors_error_iff subject access hlsb hmsb hcount, ?_⟩
  intro members hmembers
  have hwidth : 0 ≤ f.bits.width := by
    unfold BitRange.width
    omega
  have htiles := tiles_range f.bits.lsb hwidth count.toNat
  rw [Int.toNat_of_nonneg (by omega)] at htiles
  exact ⟨_, showsBits_of_fieldAccessors subject access hmembers, htiles⟩

/-! ### Three pins at the end of the bits -/

def pinField (lsb : Int) : Field where
  name := "PIN[%s]"
  bits := ⟨lsb, lsb + 2⟩
  dimension := some ⟨some 3, none⟩

def pinSubject : Subject := ⟨some "Pins", "PIN", "public "⟩

def pinMembers : List String :=
  ["/// Pins\n@ReadOnly(bits: 18446744073709551606..<18446744073709551609)\n" ++
      "public var pin0: PIN0",
    "/// Pins\n@ReadOnly(bits: 18446744073709551609..<18446744073709551612)\n" ++
      "public var pin1: PIN1",
    "/// Pins\n@ReadOnly(bits: 18446744073709551612..<18446744073709551615)\n" ++
      "public var pin2: PIN2"]

/-- Three pins end at the last bit that has a number behind it, and one bit further they do not. -/
theorem fieldReplicas_tile_atEnd :
    fieldExpansion? (pinField (2 ^ 64 - 10)) = some ⟨some 3, 3⟩ ∧
      pinSubject.fieldAccessors (pinField (2 ^ 64 - 10)).bits "ReadOnly" ⟨some 3, 3⟩ =
        .ok pinMembers ∧
      (∃ spans, Tiles (2 ^ 64 - 10) 3 3 spans ∧
        List.Forall₂ (fun member s => ∀ t, ShowsBits (some .readOnly) member t ↔ t = s)
          pinMembers spans) ∧
      ∃ overflow, pinSubject.fieldAccessors (pinField (2 ^ 64 - 9)).bits "ReadOnly" ⟨some 3, 3⟩ =
        .error overflow := by
  have hmembers : pinSubject.fieldAccessors (pinField (2 ^ 64 - 10)).bits "ReadOnly" ⟨some 3, 3⟩ =
      .ok pinMembers := by decide +kernel
  have hfits := fieldReplicas_tile (pinField (2 ^ 64 - 10)) pinSubject (some .readOnly)
    (by decide) (by decide) (by decide) rfl
  have hfails := fieldReplicas_tile (pinField (2 ^ 64 - 9)) pinSubject (some .readOnly)
    (by decide) (by decide) (by decide) rfl
  obtain ⟨x, hx, -, htiles⟩ := hfits
  obtain ⟨y, hy, hoverflow, -⟩ := hfails
  cases hx
  cases hy
  obtain ⟨spans, hshown, hspans⟩ := htiles pinMembers hmembers
  exact ⟨rfl, hmembers, ⟨spans, hspans, hshown⟩, hoverflow.mpr (by decide)⟩

end RegisterMap.Export
