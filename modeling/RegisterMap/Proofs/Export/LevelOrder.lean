import Mathlib.Data.List.Flatten
import Mathlib.Data.List.Shortlex
import RegisterMap.Proofs.Export.Site
import RegisterMap.Proofs.Export.Written

/-!
# Level order

The queue of sections comes to the blocks of a peripheral level by level.  The
order is told here from the tree of sites alone, and the queue is shown to follow
it: the unit of a peripheral is the section of the peripheral followed by the
sections of its blocks in level order.
-/

namespace RegisterMap.Export

open RegisterMap.Model RegisterMap.Report RegisterMap.Swift

/-! ## The queue -/

/-- The sections of a queue and all below them, in the order in which the queue comes to them. -/
def queueOrder : List Section → List Section
  | [] => []
  | s :: queue => s :: queueOrder (queue ++ s.below)
termination_by queue => totalWeight Section.weight queue
decreasing_by
  have := Section.weight_below_lt s
  simp only [totalWeight_append, totalWeight]
  omega

theorem sectionsCode_eq_mapM (options : Options) (queue : List Section) :
    sectionsCode options queue = (queueOrder queue).mapM (Section.code options) := by
  fun_induction queueOrder queue with
  | case1 => rw [sectionsCode, List.mapM_nil]
  | case2 s queue ih => rw [sectionsCode, List.mapM_cons, ih]

theorem queueOrder_append (queue later : List Section) :
    queueOrder (queue ++ later) = queue ++ queueOrder (later ++ queue.flatMap Section.below) := by
  induction queue generalizing later with
  | nil => simp
  | cons s queue ih =>
      rw [List.cons_append, queueOrder, List.append_assoc, ih, List.flatMap_cons,
        List.cons_append, List.append_assoc]

/-- The queue comes to a whole level before it comes to what is below it. -/
theorem queueOrder_eq (queue : List Section) :
    queueOrder queue = queue ++ queueOrder (queue.flatMap Section.below) := by
  simpa using queueOrder_append queue []

namespace Site

/-! ## Sections of a site -/

/-- The section that declares an element alone. -/
def own (s : Site) : Section where
  elements := [s.element]
  enclosing := s.enclosing
  inherited := s.inherited
  address := s.address

def inner (s : Site) : Section where
  elements := s.children.map fun (_, t) => t.element
  enclosing := s.path
  inherited := s.effective
  address := s.address + s.element.offset

theorem map_member_exportedMembers (s : Site) :
    (exportedMembers s.effective s.element.members).map Element.member = s.inner.elements := by
  have h := congrArg (List.map Site.element) s.children_map_snd
  rw [List.map_map, List.map_map] at h
  exact h.symm

theorem below?_eq {r : Section} {s : Site} (henclosing : r.enclosing = s.enclosing)
    (hinherited : r.inherited = s.inherited) (haddress : r.address = s.address) :
    r.below? s.element = if s.children.isEmpty then none else some s.inner := by
  have hmembers := s.map_member_exportedMembers
  have heffective : s.element.properties.inheriting s.inherited = s.effective := rfl
  unfold Section.below?
  simp only [henclosing, hinherited, haddress, heffective]
  cases hm : exportedMembers s.effective s.element.members with
  | nil =>
      rw [hm] at hmembers
      have hempty : s.children = [] := by simpa [inner] using hmembers.symm
      simp [hempty]
  | cons m ms =>
      have hne : s.children ≠ [] := by
        intro hempty
        simp [hm, inner, hempty] at hmembers
      rw [if_neg (by simpa using hne)]
      simp only [inner, Option.some.injEq, Section.mk.injEq, and_true, ← hm]
      exact ⟨hmembers, rfl⟩

theorem inner_below (s : Site) :
    s.inner.below = (s.children.filter fun (_, t) => !t.children.isEmpty).map
      fun (_, t) => t.inner := by
  change (s.children.map fun (_, t) => t.element).filterMap s.inner.below? = _
  rw [List.filterMap_map, ← filterMap_if]
  refine List.filterMap_congr ?_
  intro ⟨i, t⟩ hmem
  rcases member?_eq_some_iff.mp (mem_children.mp hmem) with ⟨-, m, -, -, rfl⟩
  have hbelow := below?_eq (r := s.inner) (s := s.inside m) rfl rfl rfl
  change s.inner.below? (s.inside m).element = _
  rw [hbelow]
  by_cases hempty : (s.inside m).children.isEmpty = true <;> simp [hempty]

/-! ## Weight of a site -/

theorem elementWeight_pos (e : Element) : 0 < elementWeight e := by
  have h := membersWeight_members_lt e
  omega

theorem le_totalWeight_of_mem {α : Type} {weight : α → Nat} {x : α} {xs : List α}
    (h : x ∈ xs) : weight x ≤ totalWeight weight xs := by
  induction xs with
  | nil => cases h
  | cons y ys ih =>
      simp only [totalWeight]
      rcases List.mem_cons.mp h with rfl | h
      · omega
      · have hle := ih h
        omega

theorem weight_lt_of_member? {s t : Site} {i : Nat} (h : s.member? i = some t) :
    elementWeight t.element < elementWeight s.element := by
  rcases member?_eq_some_iff.mp h with ⟨halias, m, hm, -, rfl⟩
  have hmem : m ∈ s.element.members := by
    rw [Element.members_of_definition halias]
    exact List.mem_of_getElem? hm
  have hle : memberWeight m ≤ membersWeight s.element.members := le_totalWeight_of_mem hmem
  have hlt := membersWeight_members_lt s.element
  change memberWeight m < _
  omega

/-- No place lies deeper in a tree than there are types in it. -/
theorem weight_at? {s t : Site} {place : Place} (h : s.at? place = some t) :
    elementWeight t.element + place.length ≤ elementWeight s.element := by
  induction place generalizing s with
  | nil =>
      obtain rfl := Option.some.inj h
      exact Nat.le_refl _
  | cons i place ih =>
      rcases Option.bind_eq_some_iff.mp h with ⟨u, hu, ht⟩
      have hle := ih ht
      have hlt := weight_lt_of_member? hu
      rw [List.length_cons]
      omega

/-! ## Blocks level by level -/

/-- The elements at a depth that have declared members, with their places. -/
def blocks (s : Site) (depth : Nat) : List (Place × Site) :=
  (s.level depth).filter fun (_, t) => !t.children.isEmpty

def levelOrder (s : Site) : List (Place × Site) :=
  (List.range (elementWeight s.element)).flatMap s.blocks

theorem mem_blocks {s t : Site} {depth : Nat} {place : Place} :
    (place, t) ∈ s.blocks depth ↔
      place.length = depth ∧ s.at? place = some t ∧ t.children ≠ [] := by
  simp [blocks, mem_level, and_assoc]

theorem blocks_eq_nil {s : Site} {depth : Nat} (h : elementWeight s.element ≤ depth) :
    s.blocks depth = [] := by
  rw [List.eq_nil_iff_forall_not_mem]
  intro ⟨place, t⟩ hmem
  rcases mem_blocks.mp hmem with ⟨hlength, hat, -⟩
  have hweight := weight_at? hat
  have hpos := elementWeight_pos t.element
  omega

theorem mem_levelOrder {s t : Site} {place : Place} :
    (place, t) ∈ s.levelOrder ↔ s.at? place = some t ∧ t.children ≠ [] := by
  simp only [levelOrder, List.mem_flatMap, List.mem_range, mem_blocks]
  constructor
  · intro ⟨_, _, _, hat, hne⟩
    exact ⟨hat, hne⟩
  · intro ⟨hat, hne⟩
    have hweight := weight_at? hat
    have hpos := elementWeight_pos t.element
    exact ⟨place.length, by omega, rfl, hat, hne⟩

/-- What is below the sections of one level are the sections of the next. -/
theorem flatMap_below_blocks (s : Site) (depth : Nat) :
    ((s.blocks depth).map fun (_, t) => t.inner).flatMap Section.below =
      (s.blocks (depth + 1)).map fun (_, t) => t.inner := by
  have hnil : ∀ t : Site, t.children.isEmpty = true → t.inner.below = [] := by
    intro t ht
    rw [inner_below, List.isEmpty_iff.mp ht]
    rfl
  rw [List.flatMap_map, blocks, blocks, level, List.filter_flatMap, List.map_flatMap]
  induction s.level depth with
  | nil => rfl
  | cons b bs ih =>
      rcases b with ⟨place, t⟩
      have hbelow := t.inner_below
      rw [List.flatMap_cons, ← ih]
      cases ht : t.children.isEmpty with
      | true =>
          rw [List.isEmpty_iff] at ht
          simp [ht]
      | false =>
          simp [ht, hbelow, List.filter_map, Function.comp_def]

/-- The queue that starts with an element follows the level order of the sites below it. -/
theorem queueOrder_own (s : Site) :
    queueOrder [s.own] = s.own :: s.levelOrder.map fun (_, t) => t.inner := by
  have hfirst : [s.own].flatMap Section.below = (s.blocks 0).map fun (_, t) => t.inner := by
    have hbelow := below?_eq (r := s.own) (s := s) rfl rfl rfl
    simp only [own] at hbelow
    rw [List.flatMap_singleton, Section.below, own, List.filterMap_cons, hbelow, blocks, level]
    cases h : s.children.isEmpty <;> simp [h]
  have hlevels : ∀ depth, queueOrder ((s.blocks 0).map fun (_, t) => t.inner) =
      ((List.range depth).flatMap s.blocks).map (fun (_, t) => t.inner) ++
        queueOrder ((s.blocks depth).map fun (_, t) => t.inner) := by
    intro depth
    induction depth with
    | zero => simp
    | succ depth ih =>
        rw [ih, queueOrder_eq ((s.blocks depth).map _), flatMap_below_blocks, List.range_succ,
          List.flatMap_append, List.map_append, List.flatMap_singleton, List.append_assoc]
  rw [queueOrder_eq, hfirst, hlevels (elementWeight s.element), blocks_eq_nil (Nat.le_refl _)]
  rw [List.map_nil, queueOrder, List.append_nil, List.singleton_append, levelOrder]

/-! ## Declarations -/

/-- The elements that a tree declares with the sections of some blocks, and their places. -/
def declarations (s : Site) (blocks : List (Place × Site)) : List (Place × Site) :=
  ([], s) :: blocks.flatMap fun (place, t) => t.children.map fun (i, u) => (place ++ [i], u)

theorem flatMap_blocks (s : Site) (depth : Nat) :
    ((s.blocks depth).flatMap fun (place, t) => t.children.map fun (i, u) => (place ++ [i], u)) =
      s.level (depth + 1) := by
  rw [blocks, level]
  induction s.level depth with
  | nil => rfl
  | cons b bs ih =>
      rcases b with ⟨place, t⟩
      rw [List.flatMap_cons, ← ih]
      cases ht : t.children.isEmpty with
      | true =>
          rw [List.isEmpty_iff] at ht
          simp [ht]
      | false => simp [ht]

theorem declarations_levelOrder (s : Site) :
    s.declarations s.levelOrder =
      (List.range (elementWeight s.element + 1)).flatMap s.level := by
  rw [declarations, levelOrder, List.flatMap_assoc, List.range_succ_eq_map, List.flatMap_cons,
    List.flatMap_map, level, List.singleton_append]
  congr 2
  funext depth
  exact s.flatMap_blocks depth

theorem mem_declarations_levelOrder {s t : Site} {place : Place} :
    (place, t) ∈ s.declarations s.levelOrder ↔ s.at? place = some t := by
  simp only [declarations_levelOrder, List.mem_flatMap, List.mem_range, mem_level]
  constructor
  · intro ⟨_, _, _, hat⟩
    exact hat
  · intro hat
    have hweight := weight_at? hat
    exact ⟨place.length, by omega, rfl, hat⟩

theorem declarations_sorted (s : Site) :
    ((s.declarations s.levelOrder).map Prod.fst).Pairwise (List.Shortlex (· < ·)) := by
  rw [declarations_levelOrder, List.pairwise_map, List.pairwise_flatMap]
  have hlength (depth : Nat) : ∀ b ∈ s.level depth, b.1.length = depth :=
    fun b hb => (mem_level.mp hb).1
  constructor
  · intro depth _
    refine (List.pairwise_map.mp (s.level_sorted depth)).imp_of_mem ?_
    intro a b ha hb hlex
    exact .of_lex (by rw [hlength depth a ha, hlength depth b hb]) hlex
  · refine List.pairwise_lt_range.imp ?_
    intro d d' hlt a ha b hb
    exact .of_length_lt (by rw [hlength d a ha, hlength d' b hb]; exact hlt)

/-! ## What level order is -/

/-- The blocks whose sections make up a tree, in level order. -/
structure IsLevelOrder (s : Site) (blocks : List (Place × Site)) : Prop where
  /-- There is a section for each element with declared members, and for no other. -/
  mem_iff : ∀ place t, (place, t) ∈ blocks ↔ s.at? place = some t ∧ t.children ≠ []
  /-- Outer blocks come first, blocks of one depth in the order of their places. -/
  sorted : (blocks.map Prod.fst).Pairwise (List.Shortlex (· < ·))
  /-- Blocks come in the order in which they are declared themselves. -/
  order : (blocks.map Prod.fst).Sublist ((s.declarations blocks).map Prod.fst)
  /-- What is declared are the elements with a site. -/
  declared_iff : ∀ place t, (place, t) ∈ s.declarations blocks ↔ s.at? place = some t
  /-- Nothing is declared twice. -/
  declared_once : ((s.declarations blocks).map Prod.fst).Nodup
  /-- A block is declared before the section that extends it. -/
  declared_before : ∀ before place t after, blocks = before ++ (place, t) :: after →
    (place, t) ∈ s.declarations before

theorem declared_before_of_sorted {s t : Site} {blocks before after : List (Place × Site)}
    {place : Place}
    (hmem : ∀ place t, (place, t) ∈ blocks ↔ s.at? place = some t ∧ t.children ≠ [])
    (hsorted : (blocks.map Prod.fst).Pairwise (List.Shortlex (· < ·)))
    (hsplit : blocks = before ++ (place, t) :: after) : (place, t) ∈ s.declarations before := by
  rcases (hmem place t).mp (by simp [hsplit]) with ⟨hat, -⟩
  obtain rfl | ⟨outer, i, rfl⟩ := List.eq_nil_or_concat' place
  · obtain rfl := Option.some.inj hat
    exact List.mem_cons_self
  rw [at?_concat] at hat
  rcases Option.bind_eq_some_iff.mp hat with ⟨u, hu, hi⟩
  have hchild := mem_children.mpr hi
  -- The block around this one has a shorter place, so it comes earlier.
  have houter : (outer, u) ∈ blocks := (hmem outer u).mpr ⟨hu, List.ne_nil_of_mem hchild⟩
  rw [hsplit, List.map_append, List.map_cons, List.pairwise_append, List.pairwise_cons] at hsorted
  have hbefore : (outer, u) ∈ before := by
    rw [hsplit, List.mem_append, List.mem_cons] at houter
    rcases houter with hbefore | heq | hafter
    · exact hbefore
    · simp at heq
    · have hlex := hsorted.2.1.1 outer (List.mem_map_of_mem hafter)
      rw [List.shortlex_def, List.length_append, List.length_singleton] at hlex
      omega
  refine List.mem_cons_of_mem _ (List.mem_flatMap.mpr ⟨(outer, u), hbefore, ?_⟩)
  exact List.mem_map_of_mem (f := fun (i, u) => (outer ++ [i], u)) hchild

theorem isLevelOrder_levelOrder (s : Site) : s.IsLevelOrder s.levelOrder := by
  have horder : (s.levelOrder.map Prod.fst).Sublist
      ((s.declarations s.levelOrder).map Prod.fst) := by
    rw [declarations_levelOrder, List.range_succ, List.flatMap_append]
    have hlevels := List.Sublist.flatMap_right (List.range (elementWeight s.element))
      (f := s.blocks) (g := s.level) fun depth _ => List.filter_sublist
    exact (hlevels.trans (List.sublist_append_left _ _)).map Prod.fst
  have hsorted := s.declarations_sorted.sublist horder
  refine ⟨fun _ _ => mem_levelOrder, hsorted, horder,
    fun _ _ => mem_declarations_levelOrder, ?_, ?_⟩
  · refine s.declarations_sorted.imp ?_
    rintro a b hlex rfl
    exact Std.Irrefl.irrefl a hlex
  · intro before place t after hsplit
    exact declared_before_of_sorted (fun _ _ => mem_levelOrder) hsorted hsplit

end Site

end RegisterMap.Export
