import RegisterMap.Proofs.Export.Accessors
import RegisterMap.Proofs.Swift.FieldNames

/-!
# Members of a register

A register declares one member for each field, or for each replica of a field.  The
members are told here without the checks: those fail exactly if a bit position of
some replica does not fit in 64 bits.
-/

namespace RegisterMap.Export

open RegisterMap.Model RegisterMap.Number RegisterMap.Report RegisterMap.Swift

/-! ## Replicas of fields -/

theorem exists_fieldExpansion (f : Field) : ∃ x, fieldExpansion? f = some x := by
  unfold fieldExpansion? Dimension.expansion?
  split
  · exact ⟨_, rfl⟩
  · simp only
    split
    · exact ⟨_, rfl⟩
    · cases f.dimension.bind Dimension.stride with
      | none => exact ⟨_, rfl⟩
      | some stride => exact ⟨_, rfl⟩

/-- True of a field whose replicas have bit positions that fit in 64 bits. -/
def FieldFits (f : Field) : Prop :=
  ∀ x, fieldExpansion? f = some x → ∀ r ∈ x.replicas,
    isWord r.offset = true ∧ isWord (f.bits.msb + r.offset + 1) = true

/-! ## Declared members -/

/-- A member of a register, which stands for a field or for one of its replicas. -/
structure FieldMember where
  field : Field
  /-- Type name of the field, behind which the index of the replica stands. -/
  typeName : String
  bits : BitRange

namespace FieldMember

def property (m : FieldMember) : String :=
  identifier (instanceName m.typeName)

def type (m : FieldMember) : String :=
  identifier m.typeName

/-- The name of the attribute that tells how a member can be accessed. -/
def accessName (access : Option Access) (m : FieldMember) : String :=
  accessAttribute (m.field.access.or access)

/-- The declaration of a member in a register with some access. -/
def text (options : Options) (access : Option Access) (m : FieldMember) : String :=
  joinLines (docComment m.field.description ++
    ["@" ++ m.accessName access ++ "(bits: " ++ toString m.bits.lsb ++ "..<" ++
        toString (m.bits.msb + 1) ++ ")",
      options.modifiers ++ "var " ++ m.property ++ ": " ++ m.type])

/-- The member for a replica of a field that was given a type name. -/
def ofReplica (f : Field) (typeName : String) (r : Replica) : FieldMember :=
  ⟨f, typeName ++ r.suffix, f.bits.shifted r.offset⟩

end FieldMember

/-- The members for some fields, whose names are given out in order. -/
def fieldMembers (names : FieldNames) : List Field → List FieldMember
  | [] => []
  | f :: fields =>
      match fieldExpansion? f with
      | none => fieldMembers names fields
      | some x =>
          let (typeName, names) := names.reserve f.name x.indices?
          x.replicas.map (.ofReplica f typeName) ++ fieldMembers names fields

/-- What is recorded about fields that nothing is known about. -/
def reservedFields (access : Option Access) (names : FieldNames) : List Field → List Event
  | [] => []
  | f :: fields =>
      match fieldExpansion? f with
      | none => reservedFields access names fields
      | some x =>
          let (typeName, names) := names.reserve f.name x.indices?
          (if accessAttribute (f.access.or access) = reservedAttribute
            then [.reservedField typeName] else []) ++ reservedFields access names fields

theorem subject_fieldAccessors_eq_ok_iff (options : Options) (access : Option Access) (f : Field)
    (typeName : String) (x : Expansion) (texts : List String) :
    (Subject.mk f.description typeName options.modifiers).fieldAccessors f.bits
        (accessAttribute (f.access.or access)) x = .ok texts ↔
      (∀ r ∈ x.replicas, isWord r.offset = true ∧ isWord (f.bits.msb + r.offset + 1) = true) ∧
        texts = (x.replicas.map (.ofReplica f typeName)).map
          (FieldMember.text options access) := by
  unfold Subject.fieldAccessors
  rw [Expansion.mapReplicas_checkedSum_eq_ok_iff, List.map_map]
  simp only [List.foldr_cons, List.foldr_nil, Int.add_zero]
  rfl

theorem fieldAccessors_settled (options : Options) (access : Option Access) (names : FieldNames)
    (fields : List Field) :
    Trace.Settled IsOverflow (fieldAccessors options access names fields)
      (∀ f ∈ fields, FieldFits f)
      ((fieldMembers names fields).map (FieldMember.text options access))
      (reservedFields access names fields) := by
  induction fields generalizing names with
  | nil => exact (Trace.Settled.pure []).of_iff (by simp)
  | cons f fields ih =>
      rcases exists_fieldExpansion f with ⟨x, hx⟩
      have hown := ofAccessors_settled fun texts => subject_fieldAccessors_eq_ok_iff options access
        f (names.reserve f.name x.indices?).1 x texts
      have hfits : (∀ r ∈ x.replicas, isWord r.offset = true ∧
          isWord (f.bits.msb + r.offset + 1) = true) ↔ FieldFits f := by simp [FieldFits, hx]
      rw [List.forall_mem_cons, ← hfits]
      simp only [fieldAccessors, fieldMembers, reservedFields, hx, List.map_append]
      refine hown.bind fun _ => ?_
      have hothers := (ih (names.reserve f.name x.indices?).2).map
        ((x.replicas.map (.ofReplica f (names.reserve f.name x.indices?).1)).map
          (FieldMember.text options access) ++ ·)
      by_cases hreserved : accessAttribute (f.access.or access) = reservedAttribute
      · rw [if_pos hreserved, if_pos hreserved]
        have hrecord : Trace.Settled IsOverflow
            (Trace.record (.reservedField (names.reserve f.name x.indices?).1) : Exporting Unit)
            True () _ := .record _
        exact (hrecord.bind fun _ => hothers).of_iff (and_iff_right trivial)
      · rw [if_neg hreserved, if_neg hreserved]
        exact hothers

end RegisterMap.Export
