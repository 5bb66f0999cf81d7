import RegisterMap.Proofs.Export.FieldMember
import RegisterMap.Proofs.Export.TypeCode

/-!
# Names in the body of a register

The body of a register declares the members of its fields in order.  Their names
are given out by one table of names, so no two properties and no two types of a
body have the same name.
-/

namespace RegisterMap.Export

open RegisterMap.Model RegisterMap.Report RegisterMap.Swift

/-! ## Names of members -/

/-- What a field asks of the table of names. -/
def fieldRequest (f : Field) : FieldNames.Request :=
  ⟨f.name, ((fieldExpansion? f).bind Expansion.count).map Int.toNat⟩

theorem indices?_fieldRequest {f : Field} {x : Expansion} (hx : fieldExpansion? f = some x) :
    (fieldRequest f).indices? = x.indices? := by
  simp only [fieldRequest, FieldNames.Request.indices?, hx, Option.bind_some, Option.map_map]
  rfl

theorem suffixes_indices? (x : Expansion) :
    FieldNames.suffixes x.indices? = x.replicas.map Replica.suffix := by
  rcases x with ⟨count?, stride⟩
  cases count? with
  | none => rfl
  | some count =>
      simp only [Expansion.indices?, Expansion.replicas, Option.map_some, FieldNames.suffixes,
        List.map_map]
      rfl

theorem typeNames_fieldMembers (names : FieldNames) (fields : List Field) :
    (fieldMembers names fields).map FieldMember.typeName =
      names.given (fields.map fieldRequest) := by
  induction fields generalizing names with
  | nil => rfl
  | cons f fields ih =>
      rcases exists_fieldExpansion f with ⟨x, hx⟩
      have hindices := indices?_fieldRequest hx
      simp only [fieldMembers, hx, List.map_cons, FieldNames.given, List.map_append, List.map_map,
        FieldNames.Request.suffixes, hindices, suffixes_indices?, ih]
      rfl

theorem isName_typeName_of_mem {names : FieldNames} {fields : List Field} {m : FieldMember}
    (hm : m ∈ fieldMembers names fields) : IsName m.typeName := by
  have hgiven : m.typeName ∈ names.given (fields.map fieldRequest) := by
    rw [← typeNames_fieldMembers]
    exact List.mem_map_of_mem hm
  exact FieldNames.isName_of_mem_given hgiven

theorem nodup_typeNames (names : FieldNames) (fields : List Field) :
    ((fieldMembers names fields).map fun m => m.typeName.toLower).Nodup := by
  have hgiven := names.nodup_given (fields.map fieldRequest)
  rwa [← typeNames_fieldMembers, List.map_map] at hgiven

/-- Names that differ are still different as identifiers of source text. -/
theorem nodup_map_identifier {names : List String} (h : names.Nodup)
    (hnames : ∀ name ∈ names, IsName name) : (names.map identifier).Nodup :=
  h.map_on fun _ ha _ hb heq => eq_of_identifier_eq (hnames _ ha) (hnames _ hb) heq

theorem nodup_properties (names : FieldNames) (fields : List Field) :
    ((fieldMembers names fields).map FieldMember.property).Nodup := by
  have hlower : ∀ name ∈ (fieldMembers names fields).map (fun m => m.typeName.toLower),
      IsName name := by
    intro name hname
    rcases List.mem_map.mp hname with ⟨m, hm, rfl⟩
    exact (isName_typeName_of_mem hm).toLower
  have hnodup := nodup_map_identifier (nodup_typeNames names fields) hlower
  rwa [List.map_map] at hnodup

theorem nodup_types (names : FieldNames) (fields : List Field) :
    ((fieldMembers names fields).map FieldMember.type).Nodup := by
  have hnames : ∀ name ∈ (fieldMembers names fields).map FieldMember.typeName, IsName name := by
    intro name hname
    rcases List.mem_map.mp hname with ⟨m, hm, rfl⟩
    exact isName_typeName_of_mem hm
  have hlower := nodup_typeNames names fields
  rw [← Function.comp_def, ← List.map_map] at hlower
  have hnodup := nodup_map_identifier hlower.of_map hnames
  rwa [List.map_map] at hnodup

/-! ## Bodies -/

/-- The members that a register declares. -/
def registerMembers (r : Register) : List FieldMember :=
  fieldMembers { registerType := swiftName r.name } (r.fields.getD [])

theorem registerCode_eq_ok {options : Options} {inherited : RegisterProperties} {address : Int}
    {r : Register} {code : Code}
    (h : (typeCode options inherited address (.member (.register r))).outcome = .ok code) :
    let effective := r.properties.inheriting inherited
    code = .block
      ((Subject.mk r.description (swiftName r.name) options.modifiers).registerHeading
        (effective.size.getD 0))
      (Code.declarations
        ((registerMembers r).map (FieldMember.text options effective.access))) := by
  intro effective
  rcases typeCode_eq_ok h with ⟨-, htype⟩
  cases htype with
  | derived halias => cases halias
  | block _ hblock _ => exact absurd rfl (hblock r)
  | register hfields =>
      have hsettled := fieldAccessors_settled options effective.access
        { registerType := swiftName r.name } (r.fields.getD [])
      obtain ⟨-, rfl⟩ := hsettled.outcome_iff.mp hfields
      rfl

/--
Whatever names are asked for, those given by a table of names differ from each other
without regard to case, replica indices included.  So in the body of a register no two
properties and no two types have the same name.
-/
theorem registerMembers_stay_apart :
    (∀ (registerType : String) (requests : List FieldNames.Request),
      ((FieldNames.given { registerType } requests).map String.toLower).Nodup) ∧
    ∀ (options : Options) (inherited : RegisterProperties) (address : Int) (r : Register)
      (code : Code),
      (typeCode options inherited address (.member (.register r))).outcome = .ok code →
      (∃ heading access, code = .block heading
        (Code.declarations ((registerMembers r).map (FieldMember.text options access)))) ∧
      ((registerMembers r).map FieldMember.property).Nodup ∧
      ((registerMembers r).map FieldMember.type).Nodup := by
  constructor
  · intro registerType requests
    exact FieldNames.nodup_given _ requests
  · intro options inherited address r code h
    refine ⟨⟨_, _, registerCode_eq_ok h⟩, ?_, ?_⟩
    · exact nodup_properties _ _
    · exact nodup_types _ _

/-! ### Fields that imitate replicas of each other -/

def pinRegister : Register where
  name := "CTRL"
  addressOffset := 0
  fields := some [
    { name := "PIN1", bits := ⟨0, 0⟩ },
    { name := "PIN%s", bits := ⟨1, 2⟩, dimension := some ⟨some 2, none⟩ },
    { name := "PIN_20", bits := ⟨5, 5⟩ },
    { name := "ctrl", bits := ⟨6, 6⟩ },
    { name := "CTRL", bits := ⟨7, 7⟩ }]

theorem registerMembers_stay_apart_pins :
    (∃ code, (typeCode {} { size := some 32 } 0 (.member (.register pinRegister))).outcome =
      .ok code) ∧
      (registerMembers pinRegister).map FieldMember.type =
        ["PIN1", "PIN_20", "PIN_21", "PIN_20_2", "CTRL", "CTRL_FIELD"] ∧
      ((registerMembers pinRegister).map FieldMember.property).Nodup := by
  have hok : (typeCode {} { size := some 32 } 0 (.member (.register pinRegister))).outcome =
    .ok _ := rfl
  have hapart := registerMembers_stay_apart.2 _ _ _ _ _ hok
  exact ⟨⟨_, hok⟩, by decide +kernel, hapart.2.1⟩

end RegisterMap.Export
