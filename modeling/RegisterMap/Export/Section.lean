import RegisterMap.Derivation.Reference
import RegisterMap.Export.Element
import RegisterMap.Export.Event
import RegisterMap.Export.Options
import RegisterMap.Export.Selection
import RegisterMap.Swift.Declaration
import RegisterMap.Swift.FieldNames

/-!
# Sections of a peripheral unit

A section declares the types of some sibling elements inside an extension of the
type around them.  The members that the types of a section declare are the
elements of later sections, one for each type with members.  A unit holds its
sections level by level, from the peripheral inwards.
-/

namespace RegisterMap.Export

open RegisterMap.Derivation RegisterMap.Model RegisterMap.Number RegisterMap.Report
open RegisterMap.Swift

inductive ExportError where
  | derivation (e : DerivationError)
  | selection (e : UnknownPeripheral)
  | overflow (e : AddressOverflow)
  | layout (e : LayoutError)
  deriving DecidableEq, Repr

namespace ExportError

def message : ExportError → String
  | derivation e => e.message
  | selection e => e.message
  | overflow e => e.message
  | layout e => e.message

end ExportError

/-- A part of an export, with the events that it records. -/
abbrev Exporting := Trace ExportError Event

/-- A sum of addresses, offsets or bit positions that must fit in 64 bits. -/
def addressSum (terms : List Int) : Exporting Int :=
  Trace.ofExcept .overflow (checkedSum terms)

def ofAccessors (accessors : Except AddressOverflow (List String)) : Exporting (List String) :=
  Trace.ofExcept .overflow accessors

/-! ## Accessors -/

/-- The instances of a peripheral.  There are none if it is left out. -/
def peripheralAccessors (options : Options) (inherited : RegisterProperties) (p : Peripheral) :
    Exporting (List String) := do
  match peripheralExpansion? p (p.properties.inheriting inherited) with
  | none =>
      Trace.record (.unknownStride p.name)
      return []
  | some expansion =>
      let subject : Subject := ⟨p.description, swiftName p.name, options.instanceModifiers⟩
      ofAccessors (subject.peripheralAccessors p.baseAddress expansion)

def registerAccessors (options : Options) (inherited : RegisterProperties) (r : Register) :
    Exporting (List String) := do
  let effective := r.properties.inheriting inherited
  let typeName := swiftName r.name
  match effective.size with
  | none =>
      Trace.record (.unknownSize typeName)
      return []
  | some _ =>
      match registerExpansion? r effective with
      | none =>
          Trace.record (.unknownStride r.name)
          return []
      | some expansion =>
          let subject : Subject := ⟨r.description, typeName, options.modifiers⟩
          ofAccessors (subject.registerAccessors r.addressOffset expansion)

def clusterAccessors (options : Options) (inherited : RegisterProperties) (c : Cluster) :
    Exporting (List String) := do
  match clusterExpansion? c (c.properties.inheriting inherited) with
  | none =>
      Trace.record (.unknownStride c.name)
      return []
  | some expansion =>
      let subject : Subject := ⟨c.description, swiftName c.name, options.modifiers⟩
      ofAccessors (subject.clusterAccessors c.addressOffset expansion)

def memberAccessors (options : Options) (inherited : RegisterProperties) :
    Member → Exporting (List String)
  | .register r => registerAccessors options inherited r
  | .cluster c => clusterAccessors options inherited c

/-- The members for the fields of a register, whose names are given out in order. -/
def fieldAccessors (options : Options) (access : Option Access) :
    FieldNames → List Field → Exporting (List String)
  | _, [] => return []
  | names, f :: fields => do
      match fieldExpansion? f with
      | none =>
          Trace.record (.unknownStride f.name)
          fieldAccessors options access names fields
      | some expansion =>
          let (typeName, names) := names.reserve f.name expansion.indices?
          let label := accessAttribute (f.access.or access)
          let subject : Subject := ⟨f.description, typeName, options.modifiers⟩
          let own ← ofAccessors (subject.fieldAccessors f.bits label expansion)
          if label = reservedAttribute then Trace.record (.reservedField typeName)
          let others ← fieldAccessors options access names fields
          return own ++ others

/-! ## Types -/

def aliasCode (options : Options) (e : Element) (base : String) : Code :=
  .lines (typeAlias options.modifiers e.typeName (aliasTarget base))

def blockCode (options : Options) (description : Option String) (e : Element)
    (effective : RegisterProperties) : Exporting Code := do
  let accessors ← e.members.mapM (memberAccessors options effective)
  let subject : Subject := ⟨description, e.typeName, options.modifiers⟩
  return .block subject.blockHeading (Code.declarations accessors.flatten)

def registerCode (options : Options) (r : Register) (effective : RegisterProperties)
    (size : Int) : Exporting Code := do
  let typeName := swiftName r.name
  let accessors ← fieldAccessors options effective.access { registerType := typeName }
    (r.fields.getD [])
  let subject : Subject := ⟨r.description, typeName, options.modifiers⟩
  return .block (subject.registerHeading size) (Code.declarations accessors)

def typeCode (options : Options) (inherited : RegisterProperties) (address : Int)
    (e : Element) : Exporting Code := do
  let effective := e.properties.inheriting inherited
  let address ← addressSum [address, e.offset]
  match e with
  | .peripheral p =>
      match p.derivedFrom with
      | some base => return aliasCode options e base
      | none => blockCode options p.description e effective
  | .member (.cluster c) =>
      match c.derivedFrom with
      | some base => return aliasCode options e base
      | none => blockCode options c.description e effective
  | .member (.register r) =>
      Trace.record (.register e.typeName address)
      registerCode options r effective (effective.size.getD 0)

/-! ## Sections -/

/-- Sibling elements whose types are declared together. -/
structure Section where
  elements : List Element
  /-- Names of the types around the elements, outermost first. -/
  enclosing : List String
  inherited : RegisterProperties
  /-- Address that the offsets of the elements count from. -/
  address : Int

namespace Section

/-- The section for the members of an element, if it declares any. -/
def below? (s : Section) (e : Element) : Option Section :=
  let effective := e.properties.inheriting s.inherited
  match exportedMembers effective e.members with
  | [] => none
  | members =>
      some {
        elements := members.map .member
        enclosing := s.enclosing ++ [e.typeName]
        inherited := effective
        address := s.address + e.offset }

def below (s : Section) : List Section :=
  s.elements.filterMap s.below?

def code (options : Options) (s : Section) : Exporting (List Code) := do
  let types ← s.elements.mapM (typeCode options s.inherited s.address)
  let body := Code.spaced (types.map ([·]))
  return if s.enclosing.isEmpty then body else [.block (extensionHeading s.enclosing) body]

/-- The number of types that a section and all sections below it can declare, and one. -/
def weight (s : Section) : Nat :=
  1 + totalWeight elementWeight s.elements

theorem weight_below?_le (s t : Section) (e : Element) (h : s.below? e = some t) :
    t.weight ≤ elementWeight e := by
  have hlt := membersWeight_members_lt e
  have hle := totalWeight_filter_le memberWeight
    (isExportedMember (e.properties.inheriting s.inherited)) e.members
  unfold below? at h
  simp only [exportedMembers] at h
  split at h
  · cases h
  · cases h
    rw [weight, totalWeight_map]
    change 1 + totalWeight memberWeight _ ≤ _
    unfold membersWeight at hlt
    omega

theorem weight_filterMap_below?_le (s : Section) (es : List Element) :
    totalWeight weight (es.filterMap s.below?) ≤ totalWeight elementWeight es := by
  induction es with
  | nil => exact Nat.le_refl _
  | cons e es ih =>
      cases h : s.below? e with
      | none =>
          simp only [List.filterMap_cons, h, totalWeight]
          omega
      | some t =>
          have := weight_below?_le s t e h
          simp only [List.filterMap_cons, h, totalWeight]
          omega

theorem weight_below_lt (s : Section) : totalWeight weight s.below < s.weight := by
  have := weight_filterMap_below?_le s s.elements
  simp only [below, weight] at this ⊢
  omega

end Section

/--
The source text of queued sections and of all sections below them.  The sections
below the front of the queue go to its end.
-/
def sectionsCode (options : Options) : List Section → Exporting (List (List Code))
  | [] => return []
  | s :: queue => do
      let code ← s.code options
      let others ← sectionsCode options (queue ++ s.below)
      return code :: others
termination_by queue => totalWeight Section.weight queue
decreasing_by
  have := Section.weight_below_lt s
  simp only [totalWeight_append, totalWeight]
  omega

end RegisterMap.Export
