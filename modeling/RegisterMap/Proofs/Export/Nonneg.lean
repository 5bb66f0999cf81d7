import RegisterMap.Proofs.Export.Accessors
import RegisterMap.Proofs.Export.Site
import RegisterMap.Proofs.Model.WellFormed

/-!
# Elements without negative numbers

If no offset, count, distance or size of an element is negative, its replicas go
upwards from its own offset.  The elements of a well-formed device are of this kind.
-/

namespace RegisterMap.Export

open RegisterMap.Model RegisterMap.Number

/-- True of a number that is not negative if there is one. -/
def IsNonneg? (n? : Option Int) : Prop :=
  ∀ n ∈ n?, 0 ≤ n

structure Element.OwnNonneg (e : Element) : Prop where
  offset : 0 ≤ e.offset
  count : ∀ d ∈ e.dimension, IsNonneg? d.count
  stride : ∀ d ∈ e.dimension, IsNonneg? d.stride
  size : IsNonneg? e.properties.size

theorem isWord_nonneg {n : Int} (h : isWord n = true) : 0 ≤ n := by
  simp only [isWord, Bool.and_eq_true, decide_eq_true_eq] at h
  exact h.1

theorem IsWord?.nonneg {n? : Option Int} (h : IsWord? n?) : IsNonneg? n? :=
  fun n hn => isWord_nonneg (h n hn)

/-- True of a device in which no offset, count, distance or size is negative. -/
structure ElementsNonneg (device : Device) : Prop where
  size : IsNonneg? device.properties.size
  elements : ∀ p ∈ device.peripherals, (Element.peripheral p).Throughout Element.OwnNonneg

/-! ## Well-formed devices -/

def Element.item : Element → Item
  | .peripheral p => .peripheral p
  | .member (.register r) => .register r
  | .member (.cluster c) => .cluster c

theorem ownNonneg_of_wellFormed {e : Element} (h : e.item.WellFormed) : e.OwnNonneg := by
  have hdimension : e.item.dimension = e.dimension := by
    match e with
    | .peripheral _ | .member (.register _) | .member (.cluster _) => rfl
  have haddress : e.item.address? = some e.offset := by
    match e with
    | .peripheral _ | .member (.register _) | .member (.cluster _) => rfl
  have hproperties : e.item.properties = e.properties := by
    match e with
    | .peripheral _ | .member (.register _) | .member (.cluster _) => rfl
  exact {
    offset := isWord_nonneg (h.address _ haddress)
    count := fun d hd => (h.dimension d (hdimension ▸ hd)).count.nonneg
    stride := fun d hd => (h.dimension d (hdimension ▸ hd)).stride.nonneg
    size := (hproperties ▸ h.properties.size).nonneg }

section

variable {P : Item → Prop}

theorem throughout_register {r : Register} (h : ∀ i ∈ r.items, P i) :
    (Element.member (.register r)).Throughout fun e => P e.item := by
  refine .intro (Register.forall_items_iff.mp h).2 ?_
  intro m hm
  cases hm

theorem throughout_members {registers : Option (List Register)} {clusters : Option (List Cluster)}
    (hregisters : ∀ r ∈ registers.getD [], ∀ i ∈ r.items, P i)
    (hclusters : ∀ c ∈ clusters.getD [],
      (Element.member (.cluster c)).Throughout fun e => P e.item) :
    ∀ m ∈ membersOf registers clusters, (Element.member m).Throughout fun e => P e.item := by
  intro m hm
  rcases List.mem_append.mp hm with hm | hm
  · rcases List.mem_map.mp hm with ⟨r, hr, rfl⟩
    exact throughout_register (hregisters r hr)
  · rcases List.mem_map.mp hm with ⟨c, hc, rfl⟩
    exact hclusters c hc

theorem throughout_cluster {c : Cluster} (h : ∀ i ∈ c.items, P i) :
    (Element.member (.cluster c)).Throughout fun e => P e.item := by
  rcases Cluster.forall_items_iff.mp h with ⟨⟨hregisters, hclusters⟩, hown⟩
  refine .intro hown (throughout_members hregisters ?_)
  intro d hd
  have hlt := Cluster.sizeOf_lt_of_mem hd
  exact throughout_cluster (hclusters d hd)
termination_by sizeOf c

/-- What holds of all items of a peripheral holds of it and of all elements in it. -/
theorem throughout_peripheral {p : Peripheral} (h : ∀ i ∈ p.items, P i) :
    (Element.peripheral p).Throughout fun e => P e.item := by
  rcases Peripheral.forall_items_iff.mp h with ⟨⟨hregisters, hclusters⟩, hown⟩
  exact .intro hown
    (throughout_members hregisters fun c hc => throughout_cluster (hclusters c hc))

end

theorem elementsNonneg_of_wellFormed {device : Device} (h : device.WellFormed) :
    ElementsNonneg device := by
  rcases Device.forall_items_iff.mp h with ⟨hdevice, hperipherals⟩
  refine ⟨hdevice.properties.size.nonneg, ?_⟩
  intro p hp
  exact (throughout_peripheral (hperipherals p hp)).mono fun _ => ownNonneg_of_wellFormed

namespace Site

def expansion? (s : Site) : Option Expansion :=
  Dimension.expansion? s.element.dimension s.effective.size

/-- True of an element without negative numbers: in itself, below it or around it. -/
structure Nonneg (s : Site) : Prop where
  element : s.element.Throughout Element.OwnNonneg
  inherited : IsNonneg? s.inherited.size
  address : 0 ≤ s.address

theorem Nonneg.effective {s : Site} (h : s.Nonneg) : IsNonneg? s.effective.size := by
  intro n hn
  rw [Site.effective, RegisterProperties.inheriting, Option.mem_def, Option.or_eq_some_iff] at hn
  rcases hn with hn | ⟨-, hn⟩
  · exact h.element.own.size n hn
  · exact h.inherited n hn

theorem Nonneg.member? {s t : Site} {i : Nat} (h : s.Nonneg) (ht : s.member? i = some t) :
    t.Nonneg := by
  rcases member?_eq_some_iff.mp ht with ⟨-, m, hm, -, rfl⟩
  have haddress := Int.add_nonneg h.address h.element.own.offset
  exact ⟨h.element.member (List.mem_of_getElem? hm), h.effective, haddress⟩

theorem Nonneg.at? {s t : Site} {place : Place} (h : s.Nonneg) (hat : s.at? place = some t) :
    t.Nonneg := by
  induction place generalizing s with
  | nil =>
      obtain rfl := Option.some.inj hat
      exact h
  | cons i place ih =>
      rcases Option.bind_eq_some_iff.mp hat with ⟨u, hu, ht⟩
      exact ih (h.member? hu) ht

theorem Nonneg.stride {s : Site} (h : s.Nonneg) {x : Expansion} (hx : s.expansion? = some x) :
    0 ≤ x.stride := by
  refine Dimension.stride_of_expansion?_nonneg hx fun n hn => ?_
  rcases Option.or_eq_some_iff.mp hn with hn | ⟨-, hn⟩
  · rcases Option.bind_eq_some_iff.mp hn with ⟨d, hd, hn⟩
    exact h.element.own.stride d hd n hn
  · exact h.effective n hn

theorem Nonneg.count {s : Site} (h : s.Nonneg) {x : Expansion} (hx : s.expansion? = some x) :
    IsNonneg? x.count := by
  intro n hn
  rw [Dimension.count_of_expansion? hx] at hn
  rcases Option.bind_eq_some_iff.mp hn with ⟨d, hd, hn⟩
  exact h.element.own.count d hd n hn

/-- A member that is shown has replicas, and their distance is known. -/
theorem Nonneg.exists_expansion {s t : Site} {i : Nat} (hs : s.Nonneg)
    (ht : s.member? i = some t) : ∃ x, t.expansion? = some x ∧ HasReplica x := by
  have hnonneg := hs.member? ht
  rcases member?_eq_some_iff.mp ht with ⟨-, m, -, hexported, rfl⟩
  cases m with
  | cluster c => exact isExportedCluster_iff.mp hexported
  | register r =>
      rcases isExportedRegister_iff.mp hexported with ⟨_, x, -, hx, hne⟩
      refine ⟨x, hx, hasReplica_iff.mpr ?_⟩
      intro count hcount
      have hle := hnonneg.count hx count hcount
      have hzero : count ≠ 0 := by
        intro heq
        subst heq
        exact hne hcount
      omega

end Site

end RegisterMap.Export
