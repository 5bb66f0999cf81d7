import RegisterMap.Proofs.Export.PeripheralUnit
import RegisterMap.Proofs.Export.RegisterBody

/-!
# Declared types

The types, sections and units of a peripheral as they are if all addresses fit,
told from the sites alone.  An address that does not fit is the only way in which
the unit of a peripheral can fail.
-/

namespace RegisterMap.Export

open RegisterMap.Model RegisterMap.Number RegisterMap.Report RegisterMap.Swift

/-! ## Types -/

def Element.description : Element → Option String
  | .peripheral p => p.description
  | .member (.register r) => r.description
  | .member (.cluster c) => c.description

def Element.fields : Element → List Field
  | .member (.register r) => r.fields.getD []
  | _ => []

theorem Element.mem_fields_iff {e : Element} {f : Field} :
    f ∈ e.fields ↔ ∃ r, e = .member (.register r) ∧ f ∈ r.fields.getD [] := by
  match e with
  | .peripheral _ => simp [fields]
  | .member (.register _) => simp [fields]
  | .member (.cluster _) => simp [fields]

namespace Site

/-- True of an element whose type can be declared: all that it needs to add up fits in 64 bits. -/
structure Fits (t : Site) : Prop where
  address : isWord (t.address + t.element.offset) = true
  members : ∀ m ∈ t.element.members, isExportedMember t.effective m = true →
    MemberFits t.effective m
  fields : ∀ f ∈ t.element.fields, FieldFits f

def blockType (options : Options) (t : Site) : Code :=
  .block (Subject.mk t.element.description t.element.typeName options.modifiers).blockHeading
    (Code.declarations (t.element.members.flatMap (memberTexts options t.effective)))

def registerType (options : Options) (t : Site) (r : Register) : Code :=
  .block ((Subject.mk r.description (swiftName r.name) options.modifiers).registerHeading
      (t.effective.size.getD 0))
    (Code.declarations ((registerMembers r).map (FieldMember.text options t.effective.access)))

/-- A peripheral or a cluster is declared by an alias or by its members. -/
def aliasOrBlock (options : Options) (t : Site) : Code :=
  match t.element.derivedFrom with
  | some base => aliasCode options t.element base
  | none => t.blockType options

/-- The declaration of the type of an element. -/
def type (options : Options) (t : Site) : Code :=
  match t.element with
  | .member (.register r) => t.registerType options r
  | _ => t.aliasOrBlock options

/-- What is recorded while the type of an element is declared. -/
def events (t : Site) : List Event :=
  match t.element with
  | .member (.register r) =>
      .register t.element.typeName (t.address + t.element.offset) ::
        reservedFields t.effective.access { registerType := swiftName r.name } (r.fields.getD [])
  | _ => t.element.members.flatMap (memberEvents t.effective)

theorem blockCode_settled (options : Options) (t : Site) :
    Trace.Settled IsOverflow
      (blockCode options t.element.description t.element t.effective)
      (∀ m ∈ t.element.members, isExportedMember t.effective m = true → MemberFits t.effective m)
      (t.blockType options) (t.element.members.flatMap (memberEvents t.effective)) := by
  have hmembers := Trace.Settled.mapM fun m (_ : m ∈ t.element.members) =>
    memberAccessors_settled options t.effective m
  have hblock := hmembers.map fun accessors => Code.block
    (Subject.mk t.element.description t.element.typeName options.modifiers).blockHeading
    (Code.declarations accessors.flatten)
  exact hblock

theorem registerCode_settled (options : Options) (t : Site) (r : Register) :
    Trace.Settled IsOverflow
      (registerCode options r t.effective (t.effective.size.getD 0))
      (∀ f ∈ r.fields.getD [], FieldFits f) (t.registerType options r)
      (reservedFields t.effective.access { registerType := swiftName r.name }
        (r.fields.getD [])) := by
  have hfields := fieldAccessors_settled options t.effective.access
    { registerType := swiftName r.name } (r.fields.getD [])
  have hblock := hfields.map fun accessors => Code.block
    ((Subject.mk r.description (swiftName r.name) options.modifiers).registerHeading
      (t.effective.size.getD 0)) (Code.declarations accessors)
  exact hblock

theorem addressSum_settled (address offset : Int) :
    Trace.Settled IsOverflow (addressSum [address, offset]) (isWord (address + offset) = true)
      (address + offset) [] := by
  refine Trace.Settled.ofExcept (fun overflow => ⟨overflow, rfl⟩) fun total => ?_
  rw [checkedSum_eq_ok_iff, List.foldr_cons, List.foldr_cons, List.foldr_nil, Int.add_zero]
  constructor
  · rintro ⟨rfl, hword⟩
    exact ⟨hword, rfl⟩
  · rintro ⟨hword, rfl⟩
    exact ⟨rfl, hword⟩

theorem aliasOrBlock_settled (options : Options) (t : Site) :
    Trace.Settled IsOverflow
      (match t.element.derivedFrom with
        | some base => pure (aliasCode options t.element base)
        | none => blockCode options t.element.description t.element t.effective)
      (∀ m ∈ t.element.members, isExportedMember t.effective m = true → MemberFits t.effective m)
      (t.aliasOrBlock options) (t.element.members.flatMap (memberEvents t.effective)) := by
  rw [aliasOrBlock]
  cases halias : t.element.derivedFrom with
  | some base =>
      have hmembers := Element.members_of_alias (e := t.element) (by simp [halias])
      rw [hmembers]
      exact (Trace.Settled.pure _).of_iff (by simp)
  | none => exact t.blockCode_settled options

theorem typeCode_settled (options : Options) (t : Site) :
    Trace.Settled IsOverflow (typeCode options t.inherited t.address t.element) t.Fits
      (t.type options) t.events := by
  have haddress := addressSum_settled t.address t.element.offset
  have hfits : t.Fits ↔ isWord (t.address + t.element.offset) = true ∧
      (∀ m ∈ t.element.members, isExportedMember t.effective m = true →
        MemberFits t.effective m) ∧ ∀ f ∈ t.element.fields, FieldFits f :=
    ⟨fun h => ⟨h.address, h.members, h.fields⟩, fun h => ⟨h.1, h.2.1, h.2.2⟩⟩
  refine Trace.Settled.of_iff (haddress.bind fun _ => ?_) hfits.symm
  have hblock := t.aliasOrBlock_settled options
  rcases t with ⟨e, enclosing, inherited, address⟩
  cases e with
  | peripheral p =>
      exact hblock.of_iff (by simp [Element.fields])
  | member m =>
      cases m with
      | cluster c =>
          exact hblock.of_iff (by simp [Element.fields])
      | register r =>
          have hrecord : Trace.Settled IsOverflow
              (Trace.record (.register (swiftName r.name) (address + r.addressOffset)) :
                Exporting Unit) True () _ := .record _
          have hregister := registerCode_settled options
            ⟨.member (.register r), enclosing, inherited, address⟩ r
          refine (hrecord.bind fun _ => hregister).of_iff ?_
          simp [Element.members, Element.fields]

end Site

/-! ## Sections -/

namespace Section

/-- An element of a section with what the section gives it. -/
def site (s : Section) (e : Element) : Site where
  element := e
  enclosing := s.enclosing
  inherited := s.inherited
  address := s.address

def sites (s : Section) : List Site :=
  s.elements.map s.site

/-- The code of a section: the types of its elements in order, inside an extension if any. -/
def types (options : Options) (s : Section) : List Code :=
  let body := Code.spaced (s.sites.map fun t => [t.type options])
  if s.enclosing.isEmpty then body else [.block (extensionHeading s.enclosing) body]

theorem code_settled (options : Options) (s : Section) :
    Trace.Settled IsOverflow (s.code options) (∀ t ∈ s.sites, t.Fits) (s.types options)
      (s.sites.flatMap Site.events) := by
  have htypes := Trace.Settled.mapM fun e (_ : e ∈ s.elements) =>
    (s.site e).typeCode_settled options
  have hbody := htypes.map fun types =>
    if s.enclosing.isEmpty then Code.spaced (types.map ([·]))
    else [Code.block (extensionHeading s.enclosing) (Code.spaced (types.map ([·])))]
  have hfits : (∀ t ∈ s.sites, t.Fits) ↔ ∀ e ∈ s.elements, (s.site e).Fits := by simp [sites]
  rw [List.map_map] at hbody
  rw [hfits, types, sites, List.flatMap_map, List.map_map]
  exact hbody

end Section

namespace Site

theorem sites_own (s : Site) : s.own.sites = [s] := rfl

theorem sites_inner (s : Site) : s.inner.sites = s.children.map Prod.snd := by
  rw [Section.sites, inner, List.map_map]
  refine List.map_congr_left fun child hmem => ?_
  rcases child with ⟨i, t⟩
  rcases member?_eq_some_iff.mp (mem_children.mp hmem) with ⟨-, m, -, -, rfl⟩
  rfl

/-- The sections of a tree declare its elements in level order, each at its site. -/
theorem sites_sections (s : Site) :
    s.sections.flatMap Section.sites = (s.declarations s.levelOrder).map Prod.snd := by
  rw [sections, declarations, List.flatMap_cons, sites_own, List.map_cons, List.map_flatMap,
    List.flatMap_map, List.singleton_append]
  congr 2
  funext declared
  rcases declared with ⟨place, t⟩
  rw [sites_inner, List.map_map]
  rfl

theorem mem_sites_sections {s t : Site} :
    t ∈ s.sections.flatMap Section.sites ↔ ∃ place, s.at? place = some t := by
  simp [sites_sections, mem_declarations_levelOrder]

end Site

/-! ## Units -/

def peripheralUnit (options : Options) (device : Device) (p : Peripheral) : SourceUnit :=
  ⟨unitName p, Code.text options.indentation (fileHeader ::
    Code.spaced ((peripheralSite options device p).sections.map (Section.types options)))⟩

/-- What is recorded while the types of a tree are declared, in level order. -/
def Site.allEvents (s : Site) : List Event :=
  (s.declarations s.levelOrder).flatMap fun (_, t) => t.events

/-- The sections of a unit are made if all sites of its types fit. -/
theorem sectionsCode_settled (options : Options) (device : Device) (p : Peripheral) :
    let root := peripheralSite options device p
    Trace.Settled IsOverflow (sectionsCode options [peripheralSection options device p])
      (∀ place t, root.at? place = some t → t.Fits) (root.sections.map (Section.types options))
      root.allEvents := by
  intro root
  have hcode := Site.sectionsCode_own options root
  change sectionsCode options [peripheralSection options device p] = _ at hcode
  have hsections := Trace.Settled.mapM fun s (_ : s ∈ root.sections) => s.code_settled options
  have hfits : (∀ s ∈ root.sections, ∀ t ∈ s.sites, t.Fits) ↔
      ∀ place t, root.at? place = some t → t.Fits := by
    constructor
    · intro h place t hat
      rcases List.mem_flatMap.mp (Site.mem_sites_sections.mpr ⟨place, hat⟩) with ⟨s, hs, ht⟩
      exact h s hs t ht
    · intro h s hs t ht
      rcases Site.mem_sites_sections.mp (List.mem_flatMap.mpr ⟨s, hs, ht⟩) with ⟨place, hat⟩
      exact h place t hat
  have hevents : root.sections.flatMap (fun s => s.sites.flatMap Site.events) =
      root.allEvents := by
    rw [← List.flatMap_assoc, Site.sites_sections, List.flatMap_map, Site.allEvents]
  rw [hcode, ← hevents]
  exact hsections.of_iff hfits

theorem writePeripheralUnit_settled (options : Options) (device : Device) (p : Peripheral) :
    let root := peripheralSite options device p
    Trace.Settled IsOverflow (writePeripheralUnit options device p)
      (∀ place t, root.at? place = some t → t.Fits) ()
      (root.allEvents ++ [.wrote (peripheralUnit options device p)]) := by
  intro root
  have hwrote : Trace.Settled IsOverflow
      (finishUnit options (unitName p) (Code.spaced (root.sections.map (Section.types options))))
      True () [.wrote (peripheralUnit options device p)] := by
    rw [finishUnit_eq]
    exact .record _
  rw [writePeripheralUnit]
  exact ((sectionsCode_settled options device p).bind fun _ => hwrote).of_iff
    (and_iff_left trivial)

theorem writtenUnits_writePeripheralUnit {options : Options} {device : Device} {p : Peripheral}
    (h : (writePeripheralUnit options device p).outcome = .ok ()) :
    writtenUnits (writePeripheralUnit options device p).events =
      [peripheralUnit options device p] := by
  rcases writePeripheralUnit_eq_ok h with ⟨codes, hcodes, hunits⟩
  have hsections := Trace.Settled.mapM
    fun s (_ : s ∈ (peripheralSite options device p).sections) => s.code_settled options
  rw [hunits, (hsections.outcome_iff.mp hcodes).2]
  rfl

end RegisterMap.Export
