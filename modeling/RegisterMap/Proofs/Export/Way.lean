import RegisterMap.Proofs.Export.Accessors
import RegisterMap.Proofs.Export.PeripheralUnit

/-!
# Ways to declared elements

The way to an element holds the element and all elements around it, the innermost
first.  It tells on its own which properties are in effect at the element and
whether the element is declared, without the walk that declares it.
-/

namespace RegisterMap.Export

open RegisterMap.Model RegisterMap.Swift

/-! ## Nearest properties -/

/-- The value that the nearest element on a way defines for a property, or else the device. -/
def nearest {α : Type} (device : Device) (way : List Element)
    (property : RegisterProperties → Option α) : Option α :=
  (way.map Element.properties ++ [device.properties]).findSome? property

def nearestProperties (device : Device) (way : List Element) : RegisterProperties where
  size := nearest device way (·.size)
  access := nearest device way (·.access)
  protection := nearest device way (·.protection)
  resetValue := nearest device way (·.resetValue)
  resetMask := nearest device way (·.resetMask)

theorem nearest_nil {α : Type} (device : Device) (property : RegisterProperties → Option α) :
    nearest device [] property = property device.properties := by
  simp [nearest]

theorem nearest_cons {α : Type} (device : Device) (e : Element) (way : List Element)
    (property : RegisterProperties → Option α) :
    nearest device (e :: way) property =
      (property e.properties).or (nearest device way property) := by
  simp only [nearest, List.map_cons, List.cons_append, List.findSome?_cons]
  cases property e.properties <;> rfl

theorem nearestProperties_nil (device : Device) :
    nearestProperties device [] = device.properties := by
  simp only [nearestProperties, nearest_nil]

theorem nearestProperties_cons (device : Device) (e : Element) (way : List Element) :
    nearestProperties device (e :: way) =
      e.properties.inheriting (nearestProperties device way) := by
  simp only [nearestProperties, nearest_cons, RegisterProperties.inheriting]

/-! ## Ways of sites -/

namespace Site

/-- The element at a place and all elements around it, the innermost first. -/
def way (s : Site) (place : Place) : List Element :=
  ((s.chain place).map Site.element).reverse

@[simp] theorem way_nil (s : Site) : s.way [] = [s.element] := rfl

theorem chain_concat {s t u : Site} {place : Place} {i : Nat} (hat : s.at? place = some t)
    (hi : t.member? i = some u) : s.chain (place ++ [i]) = s.chain place ++ [u] := by
  induction place generalizing s with
  | nil =>
      obtain rfl := Option.some.inj hat
      simp [chain, hi]
  | cons j place ih =>
      rcases Option.bind_eq_some_iff.mp hat with ⟨v, hv, ht⟩
      rw [List.cons_append, chain, chain, hv, Option.elim_some, Option.elim_some, ih ht,
        List.cons_append]

theorem way_concat {s t u : Site} {place : Place} {i : Nat} (hat : s.at? place = some t)
    (hi : t.member? i = some u) : s.way (place ++ [i]) = u.element :: s.way place := by
  simp only [way, chain_concat hat hi, List.map_append, List.map_cons, List.map_nil,
    List.reverse_append, List.reverse_singleton, List.singleton_append]

/-- The way to a site starts with its element; behind it comes the way to what is around it. -/
theorem exists_outer {s t : Site} {place : Place} (hat : s.at? place = some t) :
    ∃ outer, s.way place = t.element :: outer := by
  obtain rfl | ⟨place, i, rfl⟩ := List.eq_nil_or_concat' place
  · obtain rfl := Option.some.inj hat
    exact ⟨[], rfl⟩
  · rw [at?_concat] at hat
    rcases Option.bind_eq_some_iff.mp hat with ⟨u, hu, hi⟩
    exact ⟨_, way_concat hu hi⟩

theorem sum_offset_way {s t : Site} {place : Place} (hat : s.at? place = some t) :
    s.address + ((s.way place).map Element.offset).sum = t.address + t.element.offset := by
  rw [address_of_at? hat, way, List.map_reverse, List.sum_reverse, List.map_map]
  rfl

/-- What is in effect at a site is what the nearest elements on the way to it define. -/
theorem effective_eq_nearest {device : Device} {s t : Site} {place : Place}
    (hroot : s.inherited = device.properties) (hat : s.at? place = some t) :
    t.effective = nearestProperties device (s.way place) := by
  induction place using List.reverseRecOn generalizing t with
  | nil =>
      obtain rfl := Option.some.inj hat
      rw [way_nil, nearestProperties_cons, nearestProperties_nil, effective, hroot]
  | append_singleton place i ih =>
      rw [at?_concat] at hat
      rcases Option.bind_eq_some_iff.mp hat with ⟨u, hu, hi⟩
      have houter := ih hu
      rw [way_concat hu hi, nearestProperties_cons, ← houter]
      rcases member?_eq_some_iff.mp hi with ⟨-, m, -, -, rfl⟩
      rfl

end Site

/-- A member is declared with the block around it. -/
theorem exists_around {options : Options} {device : Device} {p : Peripheral} {place : Place} {t : Site} {m : Member}
    (hat : (peripheralSite options device p).at? place = some t) (hm : t.element = .member m) :
    ∃ outer i u, (peripheralSite options device p).at? outer = some u ∧ u.member? i = some t := by
  obtain rfl | ⟨outer, i, rfl⟩ := List.eq_nil_or_concat' place
  · obtain rfl := Option.some.inj hat
    cases hm
  · rw [Site.at?_concat] at hat
    rcases Option.bind_eq_some_iff.mp hat with ⟨u, hu, hi⟩
    exact ⟨outer, i, u, hu, hi⟩

/-! ## Declared ways -/

def Element.IsRegister (e : Element) : Prop :=
  ∃ r, e = .member (.register r)

/-- An element is repeated, but has no replicas or none at a known distance. -/
def NoReplica (dimension : Option Dimension) (size : Option Int) : Prop :=
  ∃ d ∈ dimension, ∃ count ∈ d.count, count ≤ 0 ∨ (d.stride = none ∧ size = none)

/--
Nothing is declared of an element, for the size that is in effect at it: it is a
register of unknown size, or there is no replica of it.
-/
def Element.LeftOut (size : Option Int) (e : Element) : Prop :=
  (e.IsRegister ∧ size = none) ∨ NoReplica e.dimension size

/-- The way to an element that is declared with a peripheral: all members on it are shown. -/
inductive DeclaredWay (device : Device) (p : Peripheral) : List Element → Prop
  | peripheral : DeclaredWay device p [.peripheral p]
  | member {e : Element} {outer : List Element} {m : Member} :
      DeclaredWay device p (e :: outer) → e.derivedFrom = none → m ∈ e.allMembers →
      ¬(Element.member m).LeftOut (nearest device (.member m :: e :: outer) (·.size)) →
      DeclaredWay device p (.member m :: e :: outer)

theorem exists_expansion?_iff {dimension : Option Dimension} {size : Option Int} :
    (∃ x, Dimension.expansion? dimension size = some x ∧ HasReplica x) ↔
      ¬NoReplica dimension size := by
  have hnone : NoReplica dimension size ↔ ∃ count ∈ dimension.bind Dimension.count,
      count ≤ 0 ∨ Dimension.stride? dimension size = none := by
    cases dimension <;> simp [NoReplica, Dimension.stride?]
  rw [hnone]
  simp only [Dimension.expansion?_eq_some_iff]
  cases dimension.bind Dimension.count with
  | none => simp [hasReplica_iff, Expansion.scalar]
  | some count =>
      simp only [Option.mem_def, Option.some.injEq, exists_eq_left', hasReplica_iff]
      constructor
      · rintro ⟨x, ⟨rfl, hstride⟩, hpos⟩ (hcount | hnone)
        · have hlt := hpos count rfl
          omega
        · have hlt := hpos count rfl
          exact hstride (by omega) hnone
      · intro h
        rw [not_or] at h
        refine ⟨_, ⟨rfl, fun _ => h.2⟩, ?_⟩
        rintro n ⟨⟩
        have hcount := h.1
        omega

theorem isExportedPeripheral_iff_not_leftOut {inherited : RegisterProperties} {p : Peripheral} :
    isExportedPeripheral inherited p = true ↔
      ¬(Element.peripheral p).LeftOut (p.properties.inheriting inherited).size := by
  rw [isExportedPeripheral_iff, peripheralExpansion?, exists_expansion?_iff, Element.LeftOut,
    Element.dimension]
  simp [Element.IsRegister]

theorem isExportedMember_of_not_leftOut {inherited : RegisterProperties} {m : Member}
    (h : ¬(Element.member m).LeftOut ((Element.member m).properties.inheriting inherited).size) :
    isExportedMember inherited m = true := by
  rw [Element.LeftOut, not_or, ← exists_expansion?_iff] at h
  rcases h with ⟨hsize, x, hx, hreplica⟩
  cases m with
  | cluster c => exact isExportedCluster_iff.mpr ⟨x, hx, hreplica⟩
  | register r =>
      have hne : (r.properties.inheriting inherited).size ≠ none := fun hnone =>
        hsize ⟨⟨r, rfl⟩, hnone⟩
      rcases Option.ne_none_iff_exists'.mp hne with ⟨size, hsize⟩
      refine isExportedRegister_iff.mpr ⟨size, x, hsize, hx, ?_⟩
      intro hzero
      have hpos := hasReplica_iff.mp hreplica 0 hzero
      omega

/-- A register that is shown has replicas unless its count is negative. -/
theorem not_leftOut_of_isExportedMember {inherited : RegisterProperties} {m : Member}
    (h : isExportedMember inherited m = true)
    (hcount : ∀ r, m = .register r → ∀ d ∈ r.dimension, ∀ count ∈ d.count, 0 ≤ count) :
    ¬(Element.member m).LeftOut ((Element.member m).properties.inheriting inherited).size := by
  rw [Element.LeftOut, not_or, ← exists_expansion?_iff]
  cases m with
  | cluster c => exact ⟨by simp [Element.IsRegister], isExportedCluster_iff.mp h⟩
  | register r =>
      rcases isExportedRegister_iff.mp h with ⟨size, x, hsize, hx, hne⟩
      refine ⟨?_, x, hx, hasReplica_iff.mpr ?_⟩
      · rintro ⟨-, hnone⟩
        have hsome : ((Element.member (.register r)).properties.inheriting inherited).size =
          some size := hsize
        simp [hsome] at hnone
      · intro count hx'
        have hdimension := Dimension.count_of_expansion? hx
        rw [hx', eq_comm, Option.bind_eq_some_iff] at hdimension
        rcases hdimension with ⟨d, hd, hdcount⟩
        have hle := hcount r rfl d hd count hdcount
        have hzero : count ≠ 0 := by
          rintro rfl
          exact hne hx'
        omega

/-! ## Declared ways and sites -/

theorem DeclaredWay.exists_site (options : Options) {device : Device} {p : Peripheral}
    {way : List Element} (h : DeclaredWay device p way) :
    ∃ place t, (peripheralSite options device p).at? place = some t ∧
      (peripheralSite options device p).way place = way := by
  induction h with
  | peripheral => exact ⟨[], _, rfl, rfl⟩
  | @member e outer m _ halias hm hshown ih =>
      rcases ih with ⟨place, t, hat, hway⟩
      rcases Site.exists_outer hat with ⟨outer', houter⟩
      have helement : t.element = e := by
        rw [hway] at houter
        exact (List.cons.inj houter).1.symm
      have heffective : t.effective = nearestProperties device (e :: outer) := by
        rw [Site.effective_eq_nearest rfl hat, hway]
      rcases List.getElem?_of_mem hm with ⟨i, hi⟩
      have hexported : isExportedMember t.effective m = true := by
        apply isExportedMember_of_not_leftOut
        rw [heffective, ← nearestProperties_cons]
        exact hshown
      have hmember : t.member? i = some (t.inside m) := by
        rw [Site.member?_eq_some_iff, helement]
        exact ⟨halias, m, hi, hexported, rfl⟩
      refine ⟨place ++ [i], t.inside m, ?_, ?_⟩
      · rw [Site.at?_concat, hat]
        exact hmember
      · rw [Site.way_concat hat hmember, hway]
        rfl

/-- Only registers with a negative count have a site and no declared way. -/
theorem declaredWay_of_at? {options : Options} {device : Device} {p : Peripheral}
    {place : Place} {t : Site} (hat : (peripheralSite options device p).at? place = some t)
    (hcount : ∀ r, t.element = .member (.register r) →
      ∀ d ∈ r.dimension, ∀ count ∈ d.count, 0 ≤ count) :
    DeclaredWay device p ((peripheralSite options device p).way place) := by
  induction place using List.reverseRecOn generalizing t with
  | nil => exact .peripheral
  | append_singleton place i ih =>
      rw [Site.at?_concat] at hat
      rcases Option.bind_eq_some_iff.mp hat with ⟨u, hu, hi⟩
      rcases Site.member?_eq_some_iff.mp hi with ⟨halias, m, hm, hexported, rfl⟩
      have hmember : m ∈ u.element.allMembers := List.mem_of_getElem? hm
      have houter := ih hu fun r hr => by
        -- A register has no members, so it is not the element around one.
        rw [hr] at hmember
        cases hmember
      have heffective := Site.effective_eq_nearest rfl hu
      rcases Site.exists_outer hu with ⟨outer, hway⟩
      rw [Site.way_concat hu hi, hway]
      rw [hway] at houter heffective
      refine .member houter halias hmember ?_
      have hshown := not_leftOut_of_isExportedMember hexported fun r hr => hcount r (by rw [← hr]; rfl)
      rw [heffective, ← nearestProperties_cons] at hshown
      exact hshown

end RegisterMap.Export
