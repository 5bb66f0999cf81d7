import RegisterMap.Export.Run
import RegisterMap.Proofs.Report.Trace
import RegisterMap.Proofs.Swift.PlainText

/-!
# Code of types and sections

What the code of a type or of a section can be when it is made at all: an alias,
or a block with the declarations of the members or fields, each behind the lines
that open it.
-/

namespace RegisterMap.Export

open RegisterMap.Model RegisterMap.Number RegisterMap.Report RegisterMap.Swift

/-! ## Types -/

/-- The line that declares the type of an element: its alias, or the head of its block. -/
def declarationLine (options : Options) (e : Element) : String :=
  match e.derivedFrom with
  | some base => typeAlias options.modifiers e.typeName (aliasTarget base)
  | none => (Subject.mk none e.typeName options.modifiers).structLine

/-- The code that can be made for the type of an element with some effective properties. -/
inductive IsTypeCode (options : Options) (effective : RegisterProperties) : Element → Code → Prop
  | derived {e : Element} {base : String} :
      e.derivedFrom = some base → IsTypeCode options effective e (aliasCode options e base)
  | block {e : Element} {description : Option String} {accessors : List (List String)} :
      e.derivedFrom = none → (∀ r, e ≠ .member (.register r)) →
      (e.members.mapM (memberAccessors options effective)).outcome = .ok accessors →
      IsTypeCode options effective e
        (.block (Subject.mk description e.typeName options.modifiers).blockHeading
          (Code.declarations accessors.flatten))
  | register {r : Register} {accessors : List String} :
      (fieldAccessors options effective.access { registerType := swiftName r.name }
        (r.fields.getD [])).outcome = .ok accessors →
      IsTypeCode options effective (.member (.register r))
        (.block ((Subject.mk r.description (swiftName r.name) options.modifiers).registerHeading
          (effective.size.getD 0)) (Code.declarations accessors))

theorem blockCode_eq_ok {options : Options} {description : Option String} {e : Element}
    {effective : RegisterProperties} {code : Code} (halias : e.derivedFrom = none)
    (hblock : ∀ r, e ≠ .member (.register r))
    (h : (blockCode options description e effective).outcome = .ok code) :
    IsTypeCode options effective e code := by
  rw [blockCode] at h
  rcases Trace.outcome_bind_eq_ok_iff.mp h with ⟨accessors, haccessors, hcode⟩
  obtain rfl := Except.ok.inj hcode
  exact .block halias hblock haccessors

theorem typeCode_eq_ok {options : Options} {inherited : RegisterProperties} {address : Int}
    {e : Element} {code : Code}
    (h : (typeCode options inherited address e).outcome = .ok code) :
    isWord (address + e.offset) = true ∧
      IsTypeCode options (e.properties.inheriting inherited) e code := by
  rw [typeCode] at h
  rcases Trace.outcome_bind_eq_ok_iff.mp h with ⟨total, htotal, hcode⟩
  rcases checkedSum_eq_ok_iff.mp (Trace.outcome_ofExcept_eq_ok_iff.mp htotal) with ⟨hsum, hword⟩
  have hfits : isWord (address + e.offset) = true := by simpa [← hsum] using hword
  refine ⟨hfits, ?_⟩
  cases e with
  | peripheral p =>
      cases halias : p.derivedFrom with
      | some base =>
          simp only [halias] at hcode
          obtain rfl := Except.ok.inj hcode
          exact .derived halias
      | none =>
          simp only [halias] at hcode
          exact blockCode_eq_ok halias (fun _ => by simp) hcode
  | member m =>
      cases m with
      | register r =>
          rcases Trace.outcome_bind_eq_ok_iff.mp hcode with ⟨⟨⟩, -, hregister⟩
          rw [registerCode] at hregister
          rcases Trace.outcome_bind_eq_ok_iff.mp hregister with ⟨accessors, haccessors, hblock⟩
          obtain rfl := Except.ok.inj hblock
          exact .register haccessors
      | cluster c =>
          cases halias : c.derivedFrom with
          | some base =>
              simp only [halias] at hcode
              obtain rfl := Except.ok.inj hcode
              exact .derived halias
          | none =>
              simp only [halias] at hcode
              exact blockCode_eq_ok halias (fun _ => by simp) hcode

/-- Code that declares a type: its alias, or a block headed by the line that opens the type. -/
inductive Declares (line : String) : Code → Prop
  | derived : Declares line (.lines line)
  | block (front : List String) (body : List Code) :
      Declares line (.block (joinLines (front ++ [line])) body)

theorem Declares.shows {line : String} {code : Code} (h : Declares line code) :
    code.Shows line := by
  cases h with
  | derived =>
      have hline : joinLines ([] ++ [line]) = line := String.intercalate_singleton
      exact hline ▸ Code.Shows.lines []
  | block front body => exact .heading front body

theorem IsTypeCode.declares {options : Options} {effective : RegisterProperties} {e : Element}
    {code : Code} (h : IsTypeCode options effective e code) :
    Declares (declarationLine options e) code := by
  cases h with
  | derived halias =>
      rw [declarationLine, halias]
      exact .derived
  | @block _ description _ halias _ _ =>
      have hlines (line : String) : docComment description ++ ["@RegisterBlock", line] =
          docComment description ++ ["@RegisterBlock"] ++ [line] := by simp
      rw [declarationLine, halias, Subject.blockHeading, Subject.documented, hlines]
      exact .block _ _
  | @register r _ _ =>
      have hlines (width line : String) : docComment r.description ++ [width, line] =
          docComment r.description ++ [width] ++ [line] := by simp
      rw [declarationLine, Subject.registerHeading, Subject.documented, hlines]
      exact .block _ _

/-! ## Sections -/

/-- The code of a section: the types of its elements in order, inside an extension if any. -/
def IsSectionCode (options : Options) (s : Section) (code : List Code) : Prop :=
  ∃ types : List Code,
    List.Forall₂ (fun e type =>
      IsTypeCode options (e.properties.inheriting s.inherited) e type ∧
        Declares (declarationLine options e) type) s.elements types ∧
    code =
      if s.enclosing.isEmpty then Code.spaced (types.map ([·]))
      else [.block (extensionHeading s.enclosing) (Code.spaced (types.map ([·])))]

theorem sectionCode_eq_ok {options : Options} {s : Section} {code : List Code}
    (h : (s.code options).outcome = .ok code) :
    (∀ e ∈ s.elements, isWord (s.address + e.offset) = true) ∧ IsSectionCode options s code := by
  rw [Section.code] at h
  rcases Trace.outcome_bind_eq_ok_iff.mp h with ⟨types, htypes, hcode⟩
  have heach := Trace.outcome_mapM_eq_ok_iff.mp htypes
  constructor
  · intro e he
    rcases Outcome.exists_mem_right heach he with ⟨type, -, htype⟩
    exact (typeCode_eq_ok htype).1
  · refine ⟨types, heach.imp ?_, (Except.ok.inj hcode).symm⟩
    intro e type htype
    exact ⟨(typeCode_eq_ok htype).2, (typeCode_eq_ok htype).2.declares⟩

/-! ## Lines of sections -/

theorem isLine_declarationLine (options : Options) (e : Element) :
    IsLine (declarationLine options e) := by
  have hmodifiers := isPlain_modifiers options
  have hname := (isPlain_swiftName e.name).identifier
  unfold declarationLine
  cases e.derivedFrom with
  | some base =>
      have hplain : IsPlain (typeAlias options.modifiers e.typeName (aliasTarget base)) := by
        simp only [typeAlias, isPlain_append]
        exact ⟨⟨⟨⟨hmodifiers, by decide⟩, hname⟩, by decide⟩, isPlain_aliasTarget base⟩
      exact hplain.isLine (by simp [typeAlias, String.toList_append] : 't' ∈ _) (by decide)
  | none =>
      have hplain : IsPlain (Subject.mk none e.typeName options.modifiers).structLine := by
        simp only [Subject.structLine, isPlain_append]
        exact ⟨⟨⟨hmodifiers, by decide⟩, hname⟩, by decide⟩
      exact hplain.isLine (by simp [Subject.structLine, String.toList_append] : 't' ∈ _) (by decide)

/-- True of a text with a line for the heading of a section and one for each of its types. -/
structure ShowsSection (options : Options) (s : Section) (text : String) : Prop where
  types : ∀ e ∈ s.elements, HasLine options.indentation (declarationLine options e) text
  /-- A name that is given to the device may take several lines, and then a heading does. -/
  heading : s.enclosing ≠ [] → IsLine (extensionHeading s.enclosing) →
    HasLine options.indentation (extensionHeading s.enclosing) text

theorem IsSectionCode.showsSection {options : Options} {s : Section} {code codes : List Code}
    (h : IsSectionCode options s code) (hmem : ∀ piece ∈ code, piece ∈ codes) :
    ShowsSection options s (Code.text options.indentation codes) := by
  rcases h with ⟨types, htypes, rfl⟩
  constructor
  case types =>
    intro e he
    rcases Outcome.exists_mem_right htypes he with ⟨type, htype, -, hdeclares⟩
    have hbody := Code.mem_spaced (List.mem_map_of_mem (f := fun type => [type]) htype)
      (List.mem_singleton_self _)
    have hline := isLine_declarationLine options e
    split at hmem
    · exact Code.hasLine_text _ hline (hmem _ hbody) hdeclares.shows
    · exact Code.hasLine_text _ hline (hmem _ (List.mem_singleton_self _))
        (.inside _ hbody hdeclares.shows)
  case heading =>
    intro hne hline
    rw [List.isEmpty_eq_false_iff.mpr hne, if_neg Bool.false_ne_true] at hmem
    have hsingle : joinLines ([] ++ [extensionHeading s.enclosing]) =
        extensionHeading s.enclosing := String.intercalate_singleton
    have hshows : Code.Shows (extensionHeading s.enclosing)
        (.block (joinLines ([] ++ [extensionHeading s.enclosing]))
          (Code.spaced (types.map ([·])))) := .heading [] _
    rw [hsingle] at hshows
    exact Code.hasLine_text _ hline (hmem _ (List.mem_singleton_self _)) hshows

end RegisterMap.Export
