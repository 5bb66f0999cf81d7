import RegisterMap.Proofs.Export.Overflow
import RegisterMap.Proofs.Number.HexLiteral
import RegisterMap.Proofs.Swift.CommentFree
import RegisterMap.Proofs.Text.Delimited

/-!
# Elements of register arrays

A register with replicas is declared once, as an array, and only its last element is
checked.  A cluster with the same replicas is declared once for each, and each of them is
checked.  One fails exactly if the other does, and otherwise the members of the cluster
stand where the array has its elements.
-/

namespace RegisterMap.Export

open RegisterMap.Model RegisterMap.Number RegisterMap.Report RegisterMap.Swift RegisterMap.Text

/-! ## Attributes -/

/-- The first line of a declaration that is no comment. -/
def attributeLine? (text : String) : Option (List Char) :=
  (Code.codeLinesAt "" 0 [.lines text]).head?.map withoutEnd

def memberAttribute (offset : Nat) : String :=
  "@RegisterBlock(offset: " ++ hexLiteral offset ++ ")"

def arrayAttribute (offset stride count : Nat) : String :=
  "@RegisterBlock(offset: " ++ hexLiteral offset ++ ", stride: " ++ hexLiteral stride ++
    ", count: " ++ toString count ++ ")"

/-- True of the declaration of a member at an offset. -/
def IsMemberAt (text : String) (offset : Nat) : Prop :=
  attributeLine? text = some (memberAttribute offset).toList

/-- True of the declaration of elements at a fixed distance, the first of them at an offset. -/
def IsArrayOf (text : String) (offset stride count : Nat) : Prop :=
  attributeLine? text = some (arrayAttribute offset stride count).toList

theorem attributeLine?_documented {line : String} (hcode : IsCode line)
    (hat : line.toList.head? = some '@') (subject : Subject) (member : String) :
    attributeLine? (subject.documented [line, member]) = some line.toList := by
  have hvisible : StartsVisible line := by
    rw [StartsVisible, hat]
    decide
  have hne : [line, member] ≠ [] := List.cons_ne_nil _ _
  rw [attributeLine?, Subject.documented, Code.codeLinesAt_documented (by decide) _ hne,
    Code.codeLinesAt_joinLines hne, List.flatMap_cons, Code.codeLinesAt_line hcode hvisible]
  exact congrArg some (Code.withoutEnd_line hcode.isPlain.single)

/-! ## Numbers in attributes -/

theorem comma_not_mem_hexLiteral (n : Nat) : ',' ∉ (hexLiteral n).toList := by
  rcases exists_separated_hexLiteral n with ⟨cs, digits, htext, hdigits, -⟩
  have hcomma : ¬Radix.hexadecimal.IsNumeralChar ',' := by decide
  rw [htext, List.mem_cons, List.mem_cons]
  rintro (heq | heq | hmem)
  · exact absurd heq (by decide)
  · exact absurd heq (by decide)
  · exact hcomma (hdigits.isNumeralChar _ hmem)

theorem ne_comma_of_mem_hexLiteral (n : Nat) :
    ∀ c ∈ (hexLiteral n).toList, (c != ',') = true := by
  intro c hc
  rw [bne_iff_ne]
  rintro rfl
  exact comma_not_mem_hexLiteral n hc

/-- A literal in front of a comma is told from the text, and so is what follows. -/
theorem hexLiteral_comma_inj {m n : Nat} {s t : String}
    (h : hexLiteral m ++ ("," ++ s) = hexLiteral n ++ ("," ++ t)) : m = n ∧ s = t := by
  have hcomma : ",".toList = [','] := by decide
  have hchars := congrArg String.toList h
  simp only [String.toList_append, hcomma, List.singleton_append] at hchars
  obtain ⟨hfront, -, hrest⟩ := append_cons_inj (ne_comma_of_mem_hexLiteral m)
    (ne_comma_of_mem_hexLiteral n) (by decide) (by decide) hchars
  exact ⟨eq_of_hexLiteral_eq (String.toList_inj.mp hfront), String.toList_inj.mp hrest⟩

theorem memberAttribute_injective : Function.Injective memberAttribute := by
  intro m n h
  unfold memberAttribute at h
  rw [String.append_left_inj, String.append_right_inj] at h
  exact eq_of_hexLiteral_eq h

theorem arrayAttribute_eq (offset stride count : Nat) : arrayAttribute offset stride count =
    "@RegisterBlock(offset: " ++ (hexLiteral offset ++ ("," ++ (" stride: " ++
      (hexLiteral stride ++ ("," ++ (" count: " ++ (toString count ++ ")"))))))) := by
  have hstride : ", stride: " = "," ++ " stride: " := by decide
  have hcount : ", count: " = "," ++ " count: " := by decide
  unfold arrayAttribute
  rw [hstride, hcount]
  simp only [String.append_assoc]

theorem arrayAttribute_inj {offset offset' stride stride' count count' : Nat}
    (h : arrayAttribute offset stride count = arrayAttribute offset' stride' count') :
    offset = offset' ∧ stride = stride' ∧ count = count' := by
  rw [arrayAttribute_eq, arrayAttribute_eq, String.append_right_inj] at h
  obtain ⟨hoffset, h⟩ := hexLiteral_comma_inj h
  rw [String.append_right_inj] at h
  obtain ⟨hstride, h⟩ := hexLiteral_comma_inj h
  rw [String.append_right_inj, String.append_left_inj] at h
  exact ⟨hoffset, hstride, eq_of_toString_eq h⟩

theorem isCode_memberAttribute (offset : Nat) : IsCode (memberAttribute offset) := by
  unfold memberAttribute
  rw [isCode_append, isCode_append]
  exact ⟨⟨by decide, isCode_hexLiteral _⟩, by decide⟩

theorem isCode_arrayAttribute (offset stride count : Nat) :
    IsCode (arrayAttribute offset stride count) := by
  unfold arrayAttribute
  repeat rw [isCode_append]
  exact ⟨⟨⟨⟨⟨⟨by decide, isCode_hexLiteral _⟩, by decide⟩, isCode_hexLiteral _⟩, by decide⟩,
    isCode_toString count⟩, by decide⟩

/-! ## Declarations -/

/-- A declaration behind the attribute of a member shows the offset of the member and no other. -/
theorem isMemberAt_documented_iff (subject : Subject) (member : String) {offset n : Nat} :
    IsMemberAt (subject.documented [memberAttribute offset, member]) n ↔ n = offset := by
  have hat : (memberAttribute offset).toList.head? = some '@' := by
    unfold memberAttribute
    simp
  rw [IsMemberAt, attributeLine?_documented (isCode_memberAttribute offset) hat,
    Option.some_inj, String.toList_inj]
  exact ⟨fun h => (memberAttribute_injective h).symm, fun h => by rw [h]⟩

theorem isArrayOf_documented_iff (subject : Subject) (member : String)
    {offset stride count o s n : Nat} :
    IsArrayOf (subject.documented [arrayAttribute offset stride count, member]) o s n ↔
      o = offset ∧ s = stride ∧ n = count := by
  have hat : (arrayAttribute offset stride count).toList.head? = some '@' := by
    rw [arrayAttribute_eq]
    simp
  rw [IsArrayOf, attributeLine?_documented (isCode_arrayAttribute _ _ _) hat, Option.some_inj,
    String.toList_inj]
  constructor
  · intro h
    obtain ⟨hoffset, hstride, hcount⟩ := arrayAttribute_inj h
    exact ⟨hoffset.symm, hstride.symm, hcount.symm⟩
  · intro h
    rw [h.1, h.2.1, h.2.2]

theorem clusterLines_eq (subject : Subject) (offset stride i : Nat) {count : Option Int} :
    ∃ member, clusterLines subject offset (Expansion.replica ⟨count, stride⟩ i) =
      [memberAttribute (offset + i * stride), member] := by
  have hsum : (offset : Int) + (i : Int) * (stride : Int) = (offset + i * stride : Nat) := by
    push_cast
    rfl
  exact ⟨_, by unfold clusterLines Expansion.replica memberAttribute; rw [hsum]⟩

theorem registerLines_eq (subject : Subject) (offset stride count : Nat) :
    ∃ member, registerLines subject offset ⟨some (count : Int), stride⟩ =
      [arrayAttribute offset stride count, member] :=
  ⟨_, rfl⟩

/-! ## One array and many members -/

section

variable (register cluster : Subject) {offset stride count : Nat}

/-- Replicas that go upwards from an offset fit exactly if the last one does. -/
theorem fits_iff (hcount : 1 ≤ count) :
    (ArrayFits offset ⟨some (count : Int), stride⟩ ↔
      offset + (count - 1) * stride < wordLimit) ∧
    (ReplicasFit offset ⟨some (count : Int), stride⟩ ↔
      offset + (count - 1) * stride < wordLimit) := by
  have hreplica : HasReplica ⟨some (count : Int), stride⟩ := by
    rw [hasReplica_iff]
    rintro n ⟨⟩
    omega
  have hlast : (offset : Int) + Expansion.lastOffset ⟨some (count : Int), stride⟩ =
      (offset + (count - 1) * stride : Nat) := by
    rw [Expansion.lastOffset]
    push_cast [hcount]
    rfl
  rw [arrayFits_iff (Int.natCast_nonneg _) (Int.natCast_nonneg _) hreplica,
    replicasFit_iff (Int.natCast_nonneg _) (Int.natCast_nonneg _) hreplica, hlast, Int.ofNat_lt]
  exact ⟨⟨fun h => h _ rfl, fun h _ _ => h⟩, Iff.rfl⟩

theorem registerAccessors_error_iff (hcount : 1 ≤ count) :
    (∃ e, register.registerAccessors offset ⟨some (count : Int), stride⟩ = .error e) ↔
      wordLimit ≤ offset + (count - 1) * stride := by
  simp only [Outcome.exists_error_iff, ne_eq, registerAccessors_eq_ok_iff, (fits_iff hcount).1]
  simp

theorem clusterAccessors_error_iff (hcount : 1 ≤ count) :
    (∃ e, cluster.clusterAccessors offset ⟨some (count : Int), stride⟩ = .error e) ↔
      wordLimit ≤ offset + (count - 1) * stride := by
  simp only [Outcome.exists_error_iff, ne_eq, clusterAccessors_eq_ok_iff, (fits_iff hcount).2]
  simp

theorem exists_array_of_registerAccessors (hcount : 1 ≤ count) {arrays : List String}
    (h : register.registerAccessors offset ⟨some (count : Int), stride⟩ = .ok arrays) :
    ∃ array, arrays = [array] ∧
      ∀ o s n, IsArrayOf array o s n ↔ o = offset ∧ s = stride ∧ n = count := by
  have htexts := (registerAccessors_eq_ok_iff.mp h).2
  have hne : (some (count : Int)) ≠ some 0 := by
    rw [ne_eq, Option.some_inj]
    omega
  rw [registerTexts, if_neg hne] at htexts
  obtain ⟨member, hlines⟩ := registerLines_eq register offset stride count
  rw [hlines] at htexts
  exact ⟨_, htexts, fun _ _ _ => isArrayOf_documented_iff register member⟩

theorem isMemberAt_of_clusterAccessors {members : List String}
    (h : cluster.clusterAccessors offset ⟨some (count : Int), stride⟩ = .ok members) :
    List.Forall₂ (fun member place => ∀ n, IsMemberAt member n ↔ n = place) members
      ((List.range count).map fun i => offset + i * stride) := by
  have htexts := (clusterAccessors_eq_ok_iff.mp h).2
  have hreplicas : Expansion.replicas ⟨some (count : Int), stride⟩ =
      (List.range count).map (Expansion.replica ⟨some count, stride⟩) := rfl
  rw [htexts, hreplicas, List.map_map, List.forall₂_map_left_iff, List.forall₂_map_right_iff,
    List.forall₂_same]
  intro i _ n
  obtain ⟨member, hlines⟩ := clusterLines_eq cluster offset stride i
  rw [Function.comp_apply, hlines]
  exact isMemberAt_documented_iff cluster member

/--
A register array overflows exactly if the members of a cluster with the same offset and
replicas do, which is if the last of them does not fit.  Otherwise one array is declared,
and the members show the offsets of its elements, one by one and in their order.
-/
theorem registerArray_matches_members (hcount : 1 ≤ count) :
    ((∃ e, register.registerAccessors offset ⟨some (count : Int), stride⟩ = .error e) ↔
        ∃ e, cluster.clusterAccessors offset ⟨some (count : Int), stride⟩ = .error e) ∧
      ((∃ e, cluster.clusterAccessors offset ⟨some (count : Int), stride⟩ = .error e) ↔
        wordLimit ≤ offset + (count - 1) * stride) ∧
      ∀ arrays members,
        register.registerAccessors offset ⟨some (count : Int), stride⟩ = .ok arrays →
        cluster.clusterAccessors offset ⟨some (count : Int), stride⟩ = .ok members →
        ∃ array, arrays = [array] ∧
          (∀ o s n, IsArrayOf array o s n ↔ o = offset ∧ s = stride ∧ n = count) ∧
          List.Forall₂ (fun member place => ∀ n, IsMemberAt member n ↔ n = place) members
            ((List.range count).map fun i => offset + i * stride) := by
  have hregister := @registerAccessors_error_iff register offset stride count hcount
  have hcluster := @clusterAccessors_error_iff cluster offset stride count hcount
  refine ⟨hregister.trans hcluster.symm, hcluster, ?_⟩
  intro arrays members harrays hmembers
  obtain ⟨array, heq, harray⟩ := exists_array_of_registerAccessors register hcount harrays
  exact ⟨array, heq, harray, isMemberAt_of_clusterAccessors cluster hmembers⟩

end

/-! ### Two words at the end of the addresses -/

def dataSubject : Subject := ⟨some "Samples", "DATA", "public "⟩

def dataOffset : Nat := wordLimit - 8

def dataArray : String :=
  "/// Samples\n@RegisterBlock(offset: 0xffff_ffff_ffff_fff8, stride: 0x0004, count: 2)\n" ++
    "public var data: RegisterArray<DATA>"

def dataMembers : List String :=
  ["/// Samples\n@RegisterBlock(offset: 0xffff_ffff_ffff_fff8)\npublic var data0: DATA",
    "/// Samples\n@RegisterBlock(offset: 0xffff_ffff_ffff_fffc)\npublic var data1: DATA"]

/-- Two samples fit behind the offset, and a third one has no address any more. -/
theorem registerArray_matches_members_atEnd :
    1 ≤ 2 ∧ dataSubject.registerAccessors dataOffset ⟨some (2 : Nat), (4 : Nat)⟩ = .ok [dataArray] ∧
      dataSubject.clusterAccessors dataOffset ⟨some (2 : Nat), (4 : Nat)⟩ = .ok dataMembers ∧
      IsArrayOf dataArray dataOffset 4 2 ∧
      1 ≤ 3 ∧ (∃ e, dataSubject.registerAccessors dataOffset ⟨some (3 : Nat), (4 : Nat)⟩ = .error e) ∧
      ∃ e, dataSubject.clusterAccessors dataOffset ⟨some (3 : Nat), (4 : Nat)⟩ = .error e := by
  have hregister : dataSubject.registerAccessors dataOffset ⟨some (2 : Nat), (4 : Nat)⟩ =
      .ok [dataArray] :=
    registerAccessors_eq_ok_iff.mpr ⟨(fits_iff (by decide)).1.mpr (by decide), by decide +kernel⟩
  have hcluster : dataSubject.clusterAccessors dataOffset ⟨some (2 : Nat), (4 : Nat)⟩ =
      .ok dataMembers :=
    clusterAccessors_eq_ok_iff.mpr ⟨(fits_iff (by decide)).2.mpr (by decide), by decide +kernel⟩
  have htwo := @registerArray_matches_members dataSubject dataSubject dataOffset 4 2 (by decide)
  have hthree := @registerArray_matches_members dataSubject dataSubject dataOffset 4 3 (by decide)
  have hfails := hthree.2.1.mpr (by decide)
  obtain ⟨array, heq, harray, -⟩ := htwo.2.2 _ _ hregister hcluster
  obtain rfl := (List.cons.inj heq).1
  exact ⟨by decide, hregister, hcluster, (harray _ _ _).mpr ⟨rfl, rfl, rfl⟩, by decide,
    hthree.1.mpr hfails, hfails⟩

end RegisterMap.Export
