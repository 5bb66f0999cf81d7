import RegisterMap.Proofs.Export.Accessors
import RegisterMap.Proofs.Export.LevelOrder
import RegisterMap.Proofs.Export.TypeCode

/-!
# The unit of a peripheral

A peripheral unit holds the section of the peripheral and then one section for
each of its blocks, level by level, in which everything that is declared is
declared once.
-/

namespace RegisterMap.Export

open RegisterMap.Model RegisterMap.Report RegisterMap.Swift

def peripheralSite (options : Options) (device : Device) (p : Peripheral) : Site where
  element := .peripheral p
  enclosing := if options.namespaceUnderDevice then [deviceTypeName options device] else []
  inherited := device.properties
  address := 0

namespace Site

def sections (s : Site) : List Section :=
  s.own :: s.levelOrder.map fun (_, t) => t.inner

theorem sectionsCode_own (options : Options) (s : Site) :
    sectionsCode options [s.own] = s.sections.mapM (Section.code options) := by
  rw [sectionsCode_eq_mapM, queueOrder_own, sections]

theorem inner_elements {s : Site} (h : s.element.derivedFrom = none) :
    s.inner.elements =
      (s.element.registers.filter (isExportedRegister · s.effective)).map
          (fun r => .member (.register r)) ++
        (s.element.clusters.filter (isExportedCluster · s.effective)).map
          (fun c => .member (.cluster c)) := by
  rw [← map_member_exportedMembers, Element.members_of_definition h, Element.allMembers_eq,
    exportedMembers, List.filter_append, List.map_append, List.filter_map, List.filter_map,
    List.map_map, List.map_map]
  rfl

theorem elements_sections (s : Site) :
    s.sections.flatMap Section.elements =
      (s.declarations s.levelOrder).map fun (_, t) => t.element := by
  rw [sections, declarations, List.flatMap_cons, List.map_cons, List.map_flatMap,
    List.flatMap_map]
  simp only [List.map_map]
  rfl

theorem derivedFrom_of_children {s : Site} (h : s.children ≠ []) :
    s.element.derivedFrom = none := by
  rcases List.exists_mem_of_ne_nil _ h with ⟨⟨i, t⟩, hmem⟩
  exact (member?_eq_some_iff.mp (mem_children.mp hmem)).1

/-- In a unit that is written, the type of every element with a site is made. -/
theorem exists_typeCode {options : Options} {s t : Site} {codes : List (List Code)}
    (h : (s.sections.mapM (Section.code options)).outcome = .ok codes) {place : Place}
    (hat : s.at? place = some t) :
    ∃ code, (typeCode options t.inherited t.address t.element).outcome = .ok code := by
  have hsections := Trace.outcome_mapM_eq_ok_iff.mp h
  have htypes {r : Section} (hr : r ∈ s.sections) {e : Element} (he : e ∈ r.elements) :
      ∃ code, (typeCode options r.inherited r.address e).outcome = .ok code := by
    rcases Outcome.exists_mem_right hsections hr with ⟨code, -, hcode⟩
    rcases Trace.outcome_bind_eq_ok_iff.mp hcode with ⟨types, heach, -⟩
    obtain ⟨type, -, htype⟩ :=
      Outcome.exists_mem_right (Trace.outcome_mapM_eq_ok_iff.mp heach) he
    exact ⟨type, htype⟩
  obtain rfl | ⟨outer, i, rfl⟩ := List.eq_nil_or_concat' place
  · obtain rfl := Option.some.inj hat
    exact htypes (r := s.own) List.mem_cons_self List.mem_cons_self
  · rw [at?_concat] at hat
    rcases Option.bind_eq_some_iff.mp hat with ⟨u, hu, hi⟩
    have hchild := mem_children.mpr hi
    have hblock := mem_levelOrder.mpr ⟨hu, List.ne_nil_of_mem hchild⟩
    have hinner : u.inner ∈ s.sections :=
      List.mem_cons_of_mem _ (List.mem_map.mpr ⟨_, hblock, rfl⟩)
    rcases member?_eq_some_iff.mp hi with ⟨-, m, -, -, rfl⟩
    exact htypes hinner (List.mem_map.mpr ⟨_, hchild, rfl⟩)

end Site

theorem sectionsCode_finishesNone (options : Options) (queue : List Section) :
    FinishesNone (sectionsCode options queue) := by
  rw [sectionsCode_eq_mapM]
  exact .mapM fun s _ => sectionCode_finishesNone options s

theorem writePeripheralUnit_eq_ok {options : Options} {device : Device} {p : Peripheral}
    (h : (writePeripheralUnit options device p).outcome = .ok ()) :
    ∃ codes, ((peripheralSite options device p).sections.mapM
        (Section.code options)).outcome = .ok codes ∧
      writtenUnits (writePeripheralUnit options device p).events =
        [⟨unitName p, Code.text options.indentation (fileHeader :: Code.spaced codes)⟩] := by
  have hcode := Site.sectionsCode_own options (peripheralSite options device p)
  change sectionsCode options [peripheralSection options device p] = _ at hcode
  have hnone := sectionsCode_finishesNone options [peripheralSection options device p]
  rw [writePeripheralUnit] at h ⊢
  rcases Trace.outcome_bind_eq_ok_iff.mp h with ⟨codes, hcodes, -⟩
  refine ⟨codes, hcode ▸ hcodes, ?_⟩
  rw [Trace.events_bind_of_ok hcodes, writtenUnits_append, hnone, finishUnit_eq]
  rfl

theorem writePeripheralUnit_of_ok {options : Options} {device : Device} {p : Peripheral}
    {codes : List (List Code)}
    (h : ((peripheralSite options device p).sections.mapM (Section.code options)).outcome =
      .ok codes) : (writePeripheralUnit options device p).outcome = .ok () := by
  have hcode := Site.sectionsCode_own options (peripheralSite options device p)
  change sectionsCode options [peripheralSection options device p] = _ at hcode
  rw [writePeripheralUnit, hcode, Trace.outcome_bind_eq_ok_iff]
  exact ⟨codes, h, by rw [finishUnit_eq]; rfl⟩

/-! ## What a unit declares -/

/-- What is declared by a unit with one section for each block, level by level. -/
structure Site.DeclaresLevels (options : Options) (root : Site) : Prop where
  /-- The blocks that get a section, and the order of the sections. -/
  levels : root.IsLevelOrder root.levelOrder
  /-- The sections declare the elements that the blocks declare, in this order. -/
  elements : root.sections.flatMap Section.elements =
    (root.declarations root.levelOrder).map fun (_, t) => t.element
  /-- A section extends the type of its block, under the names of all blocks around it. -/
  enclosing : ∀ place t, (place, t) ∈ root.levelOrder →
    t.inner.enclosing = root.enclosing ++ (root.chain place).map fun u => u.element.typeName
  /-- A section declares the exported registers and then the exported clusters, in order. -/
  inside : ∀ place t, (place, t) ∈ root.levelOrder →
    t.element.derivedFrom = none ∧
      t.inner.elements =
        (t.element.registers.filter (isExportedRegister · t.effective)).map
            (fun r => .member (.register r)) ++
          (t.element.clusters.filter (isExportedCluster · t.effective)).map
            (fun c => .member (.cluster c))
  /-- A member of a declared block is exported exactly if the block has a line for it. -/
  exported : ∀ place t, (place, t) ∈ root.declarations root.levelOrder →
    ∀ m ∈ t.element.members, ∃ texts,
      (memberAccessors options t.effective m).outcome = .ok texts ∧
        (texts ≠ [] ↔ isExportedMember t.effective m = true)
  /-- Nothing below an alias is declared. -/
  below_alias : ∀ place t inner u, root.at? place = some t →
    t.element.derivedFrom.isSome = true → inner ≠ [] →
    (place ++ inner, u) ∉ root.declarations root.levelOrder
  /-- No member that is left out is declared, and nothing below it. -/
  below_left_out : ∀ place t i m inner u, root.at? place = some t →
    t.element.allMembers[i]? = some m → isExportedMember t.effective m = false →
    (place ++ i :: inner, u) ∉ root.declarations root.levelOrder

theorem exists_memberAccessors {options : Options} {inherited : RegisterProperties}
    {address : Int} {e : Element} {code : Code}
    (h : (typeCode options inherited address e).outcome = .ok code) {m : Member}
    (hm : m ∈ e.members) :
    ∃ texts,
      (memberAccessors options (e.properties.inheriting inherited) m).outcome = .ok texts := by
  rcases typeCode_eq_ok h with ⟨-, htype⟩
  cases htype with
  | derived halias =>
      rw [Element.members_of_alias (by simp [halias])] at hm
      cases hm
  | block _ _ haccessors =>
      obtain ⟨texts, -, htexts⟩ :=
        Outcome.exists_mem_right (Trace.outcome_mapM_eq_ok_iff.mp haccessors) hm
      exact ⟨texts, htexts⟩
  | register _ => cases hm

theorem Site.declaresLevels {options : Options} {root : Site} {codes : List (List Code)}
    (h : (root.sections.mapM (Section.code options)).outcome = .ok codes) :
    root.DeclaresLevels options where
  levels := root.isLevelOrder_levelOrder
  elements := root.elements_sections
  enclosing place t hblock := path_of_at? (mem_levelOrder.mp hblock).1
  inside place t hblock := by
    have halias := derivedFrom_of_children (mem_levelOrder.mp hblock).2
    exact ⟨halias, inner_elements halias⟩
  exported place t hdeclared m hm := by
    rcases exists_typeCode h (mem_declarations_levelOrder.mp hdeclared) with ⟨code, hcode⟩
    rcases exists_memberAccessors hcode hm with ⟨texts, htexts⟩
    exact ⟨texts, htexts, (memberAccessors_eq_ok htexts).1⟩
  below_alias place t inner u hat halias hinner := by
    rw [mem_declarations_levelOrder, at?_below_alias hat halias hinner]
    simp
  below_left_out place t i m inner u hat hm hout := by
    rw [mem_declarations_levelOrder, at?_below_left_out hat hm hout]
    simp

/-- A unit that is written has the lines of every section of its peripheral. -/
theorem showsSection_of_mem {options : Options} {root : Site} {codes : List (List Code)}
    (h : (root.sections.mapM (Section.code options)).outcome = .ok codes) {s : Section}
    (hs : s ∈ root.sections) :
    ShowsSection options s
      (Code.text options.indentation (fileHeader :: Code.spaced codes)) := by
  rcases Outcome.exists_mem_right (Trace.outcome_mapM_eq_ok_iff.mp h) hs with
    ⟨code, hmem, hcode⟩
  exact (sectionCode_eq_ok hcode).2.showsSection fun piece hpiece =>
    List.mem_cons_of_mem _ (Code.mem_spaced hmem hpiece)

/--
The queue of a peripheral comes to its sections in level order, and a unit that is
written holds the code of these sections and nothing else.  Each section has its
heading and the declarations of its types among the lines of the unit.
-/
theorem writePeripheralUnit_levelOrder {options : Options} {device : Device} {p : Peripheral}
    (h : (writePeripheralUnit options device p).outcome = .ok ()) :
    let root := peripheralSite options device p
    sectionsCode options [peripheralSection options device p] =
        (root.own :: root.levelOrder.map fun (_, t) => t.inner).mapM (Section.code options) ∧
      root.DeclaresLevels options ∧
      ∃ codes, (root.sections.mapM (Section.code options)).outcome = .ok codes ∧
        List.Forall₂ (IsSectionCode options) root.sections codes ∧
        writtenUnits (writePeripheralUnit options device p).events =
          [⟨unitName p, Code.text options.indentation (fileHeader :: Code.spaced codes)⟩] ∧
        ∀ s ∈ root.sections, ShowsSection options s
          (Code.text options.indentation (fileHeader :: Code.spaced codes)) := by
  intro root
  rcases writePeripheralUnit_eq_ok h with ⟨codes, hcodes, hunits⟩
  refine ⟨Site.sectionsCode_own options root, Site.declaresLevels hcodes, codes, hcodes, ?_, hunits,
    fun s hs => showsSection_of_mem hcodes hs⟩
  exact (Trace.outcome_mapM_eq_ok_iff.mp hcodes).imp fun _ _ hcode => (sectionCode_eq_ok hcode).2

/-! ### Nested blocks with an alias and an empty cluster -/

def nestedPeripheral : Peripheral where
  name := "TIMER"
  baseAddress := 0x40000000
  registers := some [{ name := "CR", addressOffset := 0 }]
  clusters := some [
    { name := "CH[%s]"
      addressOffset := 0x10
      dimension := some ⟨some 2, some 0x20⟩
      registers := some [{ name := "SR", addressOffset := 0 }]
      clusters := some [
        { name := "FIFO"
          addressOffset := 4
          registers := some [{ name := "DR", addressOffset := 0 }] }] },
    { name := "ALT"
      addressOffset := 0x50
      derivedFrom := some "CH[%s]"
      registers := some [{ name := "SR", addressOffset := 0 }] },
    { name := "OFF"
      addressOffset := 0x60
      dimension := some ⟨some 0, none⟩
      registers := some [{ name := "SR", addressOffset := 0 }] }]

def nestedDevice : Device where
  name := "MCU"
  properties := { size := some 32 }
  peripherals := [nestedPeripheral]

def underDevice : Options where
  namespaceUnderDevice := true

theorem writePeripheralUnit_levelOrder_nested :
    (writePeripheralUnit underDevice nestedDevice nestedPeripheral).outcome = .ok () ∧
      let root := peripheralSite underDevice nestedDevice nestedPeripheral
      root.DeclaresLevels underDevice ∧
        root.levelOrder.map Prod.fst = [[], [1], [1, 1]] ∧
        (root.declarations root.levelOrder).map (fun (_, t) => t.element.name) =
          ["TIMER", "CR", "CH[%s]", "ALT", "SR", "FIFO", "DR"] := by
  have hcode := Site.sectionsCode_own underDevice
    (peripheralSite underDevice nestedDevice nestedPeripheral)
  change sectionsCode underDevice [peripheralSection underDevice nestedDevice nestedPeripheral] =
    _ at hcode
  have hok : (writePeripheralUnit underDevice nestedDevice nestedPeripheral).outcome = .ok () := by
    rw [writePeripheralUnit, hcode, Trace.outcome_bind_eq_ok_iff]
    refine ⟨_, rfl, ?_⟩
    rw [finishUnit_eq]
    rfl
  exact ⟨hok, (writePeripheralUnit_levelOrder hok).2.1, rfl, rfl⟩

end RegisterMap.Export
