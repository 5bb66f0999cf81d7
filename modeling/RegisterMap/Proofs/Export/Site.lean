import Mathlib.Algebra.Ring.Int.Defs
import Mathlib.Data.List.Lex
import RegisterMap.Export.Section

/-!
# Sites of a peripheral

A place says which member to take at each step from a peripheral inwards.  The
site at a place is the element there with what the elements around it give it:
names, register properties and an address.  A place has a site only if its
element is declared, that is, if every element on the way to it has its members
shown and no member on the way is left out.
-/

namespace RegisterMap.Export

open RegisterMap.Model RegisterMap.Swift

/-- The members to take from an element inwards, each by its position among the members. -/
abbrev Place := List Nat

/-- The members of an element in document order, registers first, whether shown or not. -/
def Element.allMembers : Element → List Member
  | .peripheral p => membersOf p.registers p.clusters
  | .member (.register _) => []
  | .member (.cluster c) => membersOf c.registers c.clusters

def Element.registers : Element → List Register
  | .peripheral p => p.registers.getD []
  | .member (.register _) => []
  | .member (.cluster c) => c.registers.getD []

def Element.clusters : Element → List Cluster
  | .peripheral p => p.clusters.getD []
  | .member (.register _) => []
  | .member (.cluster c) => c.clusters.getD []

theorem Element.allMembers_eq (e : Element) :
    e.allMembers = e.registers.map .register ++ e.clusters.map .cluster := by
  match e with
  | .peripheral _ => rfl
  | .member (.register _) => rfl
  | .member (.cluster _) => rfl

theorem Element.members_of_alias {e : Element} (h : e.derivedFrom.isSome) : e.members = [] := by
  match e with
  | .peripheral _ => exact if_pos h
  | .member (.register _) => rfl
  | .member (.cluster _) => exact if_pos h

theorem Element.members_of_definition {e : Element} (h : e.derivedFrom = none) :
    e.members = e.allMembers := by
  match e with
  | .peripheral p => simp_all [members, allMembers, derivedFrom]
  | .member (.register _) => rfl
  | .member (.cluster c) => simp_all [members, allMembers, derivedFrom]

def Element.dimension : Element → Option Dimension
  | .peripheral p => p.dimension
  | .member (.register r) => r.dimension
  | .member (.cluster c) => c.dimension

/-- Elements with a property that all elements below them have as well. -/
inductive Element.Throughout (P : Element → Prop) : Element → Prop
  | intro {e : Element} :
      P e → (∀ m ∈ e.allMembers, Throughout P (.member m)) → Throughout P e

namespace Element.Throughout

variable {P Q : Element → Prop}

theorem own {e : Element} (h : e.Throughout P) : P e := by
  cases h with
  | intro hown _ => exact hown

theorem member {e : Element} (h : e.Throughout P) {m : Member} (hm : m ∈ e.allMembers) :
    (Element.member m).Throughout P := by
  cases h with
  | intro _ hmembers => exact hmembers m hm

theorem mono (hPQ : ∀ e, P e → Q e) {e : Element} (h : e.Throughout P) : e.Throughout Q := by
  induction h with
  | intro hown _ ih => exact .intro (hPQ _ hown) ih

end Element.Throughout

/-- An element with what the elements around it give it. -/
structure Site where
  element : Element
  /-- Names of the types around the element, outermost first. -/
  enclosing : List String
  inherited : RegisterProperties
  /-- Address that the offset of the element counts from. -/
  address : Int

namespace Site

def effective (s : Site) : RegisterProperties :=
  s.element.properties.inheriting s.inherited

def path (s : Site) : List String :=
  s.enclosing ++ [s.element.typeName]

def inside (s : Site) (m : Member) : Site where
  element := .member m
  enclosing := s.path
  inherited := s.effective
  address := s.address + s.element.offset

/-- The member at a position, unless the element is an alias or the member is left out. -/
def member? (s : Site) (i : Nat) : Option Site :=
  if s.element.derivedFrom.isSome then none
  else s.element.allMembers[i]?.bind fun m =>
    if isExportedMember s.effective m then some (s.inside m) else none

/-- The site at a place, if the element there is declared. -/
def at? (s : Site) : Place → Option Site
  | [] => some s
  | i :: place => (s.member? i).bind (·.at? place)

@[simp] theorem at?_nil (s : Site) : s.at? [] = some s := rfl

@[simp] theorem at?_cons (s : Site) (i : Nat) (place : Place) :
    s.at? (i :: place) = (s.member? i).bind (·.at? place) := rfl

theorem at?_append (s : Site) (place inner : Place) :
    s.at? (place ++ inner) = (s.at? place).bind (·.at? inner) := by
  induction place generalizing s with
  | nil => rfl
  | cons i place ih =>
      rw [List.cons_append, at?_cons, at?_cons]
      cases s.member? i with
      | none => rfl
      | some t => exact ih t

theorem at?_concat (s : Site) (place : Place) (i : Nat) :
    s.at? (place ++ [i]) = (s.at? place).bind (·.member? i) := by
  rw [at?_append]
  congr 1
  funext t
  cases h : t.member? i <;> simp [h]

theorem member?_eq_some_iff {s t : Site} {i : Nat} :
    s.member? i = some t ↔
      s.element.derivedFrom = none ∧ ∃ m, s.element.allMembers[i]? = some m ∧
        isExportedMember s.effective m = true ∧ t = s.inside m := by
  unfold member?
  split
  · rename_i h
    simp [Option.isSome_iff_ne_none.mp h]
  · rename_i h
    rw [Option.not_isSome_iff_eq_none] at h
    simp only [Option.bind_eq_some_iff, h, true_and, Option.ite_none_right_eq_some,
      Option.some.injEq, eq_comm (a := t)]

theorem throughout_at? {P : Element → Prop} {s t : Site} {place : Place}
    (h : s.element.Throughout P) (hat : s.at? place = some t) : t.element.Throughout P := by
  induction place generalizing s with
  | nil =>
      obtain rfl := Option.some.inj hat
      exact h
  | cons i place ih =>
      rcases Option.bind_eq_some_iff.mp hat with ⟨u, hu, ht⟩
      rcases member?_eq_some_iff.mp hu with ⟨-, m, hm, -, rfl⟩
      exact ih (h.member (List.mem_of_getElem? hm)) ht

/-! ## What has no site -/

theorem at?_below_alias {s t : Site} {place inner : Place} (hat : s.at? place = some t)
    (halias : t.element.derivedFrom.isSome = true) (hinner : inner ≠ []) :
    s.at? (place ++ inner) = none := by
  cases inner with
  | nil => exact absurd rfl hinner
  | cons i inner => simp [at?_append, hat, member?, halias]

theorem at?_below_left_out {s t : Site} {place inner : Place} {i : Nat} {m : Member}
    (hat : s.at? place = some t) (hm : t.element.allMembers[i]? = some m)
    (hout : isExportedMember t.effective m = false) : s.at? (place ++ i :: inner) = none := by
  have hnone : t.member? i = none := by
    rw [member?, hm]
    split <;> simp [hout]
  simp [at?_append, hat, hnone]

/-! ## The way to a site -/

/-- The sites on the way to a place, the outermost first. -/
def chain (s : Site) : Place → List Site
  | [] => [s]
  | i :: place => s :: (s.member? i).elim [] (·.chain place)

theorem path_of_at? {s t : Site} {place : Place} (h : s.at? place = some t) :
    t.path = s.enclosing ++ (s.chain place).map fun u => u.element.typeName := by
  induction place generalizing s with
  | nil =>
      obtain rfl := Option.some.inj h
      rfl
  | cons i place ih =>
      rcases Option.bind_eq_some_iff.mp h with ⟨u, hu, ht⟩
      rcases member?_eq_some_iff.mp hu with ⟨-, m, -, -, rfl⟩
      rw [ih ht, chain, hu, Option.elim_some, List.map_cons]
      exact List.append_assoc s.enclosing [s.element.typeName] _

/-- The address of a site is the sum of the offsets on the way to it. -/
theorem address_of_at? {s t : Site} {place : Place} (h : s.at? place = some t) :
    t.address + t.element.offset =
      s.address + ((s.chain place).map fun u => u.element.offset).sum := by
  induction place generalizing s with
  | nil =>
      obtain rfl := Option.some.inj h
      simp [chain]
  | cons i place ih =>
      rcases Option.bind_eq_some_iff.mp h with ⟨u, hu, ht⟩
      rcases member?_eq_some_iff.mp hu with ⟨-, m, -, -, rfl⟩
      rw [ih ht, chain, hu, Option.elim_some, List.map_cons, List.sum_cons]
      exact Int.add_assoc s.address s.element.offset _

/-! ## Declared members -/

def children (s : Site) : List (Nat × Site) :=
  (List.range s.element.allMembers.length).filterMap fun i => (s.member? i).map (i, ·)

theorem mem_children {s t : Site} {i : Nat} : (i, t) ∈ s.children ↔ s.member? i = some t := by
  simp only [children, List.mem_filterMap, List.mem_range, Option.map_eq_some_iff, Prod.mk.injEq]
  constructor
  · intro h
    rcases h with ⟨j, -, u, hu, rfl, rfl⟩
    exact hu
  · intro h
    rcases member?_eq_some_iff.mp h with ⟨-, m, hm, -, -⟩
    exact ⟨i, (List.getElem?_eq_some_iff.mp hm).1, t, h, rfl, rfl⟩

theorem children_sorted (s : Site) : (s.children.map Prod.fst).Pairwise (· < ·) := by
  rw [List.pairwise_map, children, List.pairwise_filterMap]
  refine List.pairwise_lt_range.imp ?_
  intro i j hij a ha b hb
  rcases Option.map_eq_some_iff.mp ha with ⟨t, -, rfl⟩
  rcases Option.map_eq_some_iff.mp hb with ⟨u, -, rfl⟩
  exact hij

theorem filterMap_if {α β : Type} (test : α → Bool) (f : α → β) (xs : List α) :
    xs.filterMap (fun x => if test x then some (f x) else none) = (xs.filter test).map f := by
  induction xs with
  | nil => rfl
  | cons x xs ih => by_cases hx : test x <;> simp [hx, ih]

private theorem filterMap_range_getElem? {α β : Type} (f : α → Option β) (xs : List α) :
    (List.range xs.length).filterMap (fun i => xs[i]?.bind f) = xs.filterMap f := by
  induction xs with
  | nil => rfl
  | cons x xs ih =>
      rw [List.length_cons, List.range_succ_eq_map, List.filterMap_cons, List.filterMap_map,
        List.filterMap_cons, ← ih]
      rfl

theorem children_map_snd (s : Site) :
    s.children.map Prod.snd = (exportedMembers s.effective s.element.members).map s.inside := by
  have hsnd : s.children.map Prod.snd =
      (List.range s.element.allMembers.length).filterMap s.member? := by
    rw [children, List.map_filterMap]
    congr 1
    funext i
    cases s.member? i <;> rfl
  rw [hsnd]
  cases h : s.element.derivedFrom with
  | some base =>
      have hnone : s.member? = fun _ => none := by
        funext i
        simp [member?, h]
      rw [hnone, Element.members_of_alias (by simp [h])]
      simp [exportedMembers]
  | none =>
      have hmember : s.member? = fun i => s.element.allMembers[i]?.bind fun m =>
          if isExportedMember s.effective m then some (s.inside m) else none := by
        funext i
        simp [member?, h]
      rw [hmember, filterMap_range_getElem?, filterMap_if, Element.members_of_definition h,
        exportedMembers]

/-! ## Levels -/

/-- The declared elements at a depth with their places, in the order of their blocks. -/
def level (s : Site) : Nat → List (Place × Site)
  | 0 => [([], s)]
  | depth + 1 => (s.level depth).flatMap fun (place, t) =>
      t.children.map fun (i, u) => (place ++ [i], u)

theorem mem_level {s t : Site} {depth : Nat} {place : Place} :
    (place, t) ∈ s.level depth ↔ place.length = depth ∧ s.at? place = some t := by
  induction depth generalizing place t with
  | zero =>
      simp only [level, List.mem_singleton, Prod.mk.injEq, List.length_eq_zero_iff]
      constructor
      · intro h
        rcases h with ⟨rfl, rfl⟩
        exact ⟨rfl, rfl⟩
      · intro h
        rcases h with ⟨rfl, h⟩
        exact ⟨rfl, (Option.some.inj h).symm⟩
  | succ depth ih =>
      simp only [level, List.mem_flatMap, List.mem_map, Prod.exists, Prod.mk.injEq, ih]
      constructor
      · intro h
        rcases h with ⟨outer, u, ⟨hlength, hu⟩, i, v, hv, rfl, rfl⟩
        refine ⟨by simp [hlength], ?_⟩
        rw [at?_concat, hu]
        exact mem_children.mp hv
      · intro h
        rcases h with ⟨hlength, h⟩
        obtain rfl | ⟨outer, i, rfl⟩ := List.eq_nil_or_concat' place
        · cases hlength
        rw [at?_concat] at h
        rcases Option.bind_eq_some_iff.mp h with ⟨u, hu, hi⟩
        exact ⟨outer, u, ⟨by simpa using hlength, hu⟩, i, t, mem_children.mpr hi, rfl, rfl⟩

private theorem lex_append {s t : Place} (h : List.Lex (· < ·) s t)
    (hlength : s.length = t.length) (a b : Place) : List.Lex (· < ·) (s ++ a) (t ++ b) := by
  induction h with
  | nil => cases hlength
  | cons _ ih => exact .cons (ih (by simpa using hlength))
  | rel hlt => exact .rel hlt

theorem level_sorted (s : Site) (depth : Nat) :
    ((s.level depth).map Prod.fst).Pairwise (List.Lex (· < ·)) := by
  induction depth with
  | zero => simp [level]
  | succ depth ih =>
      have hlength : ∀ b ∈ s.level depth, b.1.length = depth := fun b hb => (mem_level.mp hb).1
      rw [List.pairwise_map] at ih ⊢
      rw [level, List.pairwise_flatMap]
      constructor
      · -- The members of one element, in the order of their positions.
        rintro ⟨place, t⟩ -
        rw [List.pairwise_map]
        refine (List.pairwise_map.mp t.children_sorted).imp ?_
        rintro ⟨i, u⟩ ⟨j, v⟩ hij
        exact List.Lex.append_left _ (.rel hij) place
      · -- The members of different elements, in the order of the elements.
        refine ih.imp_of_mem ?_
        rintro ⟨place, t⟩ ⟨place', t'⟩ hb hb' hlex a ha a' ha'
        rcases List.mem_map.mp ha with ⟨⟨i, u⟩, -, rfl⟩
        rcases List.mem_map.mp ha' with ⟨⟨j, v⟩, -, rfl⟩
        exact lex_append hlex (by rw [hlength _ hb, hlength _ hb']) [i] [j]

end Site

end RegisterMap.Export
