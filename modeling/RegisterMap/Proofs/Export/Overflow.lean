import RegisterMap.Proofs.Export.Declared
import RegisterMap.Proofs.Export.Nonneg
import RegisterMap.Proofs.Export.Way

/-!
# Overflowing peripherals

The unit of a peripheral fails exactly if some declared element has an address, a
last replica or a bit position that does not fit in 64 bits.  The condition is told
from the ways to the elements, without the checks that are spread over the walk.
-/

namespace RegisterMap.Export

open RegisterMap.Model RegisterMap.Number RegisterMap.Report RegisterMap.Swift

/-! ## Last replicas -/

theorem replicasFit_iff {offset : Int} {x : Expansion} (hstride : 0 ≤ x.stride)
    (hoffset : 0 ≤ offset) (hreplica : HasReplica x) :
    ReplicasFit offset x ↔ offset + x.lastOffset < wordLimit := by
  rw [ReplicasFit, Expansion.forall_isWord_iff hstride hoffset]
  exact forall_prop_of_true hreplica

theorem arrayFits_iff {offset : Int} {x : Expansion} (hstride : 0 ≤ x.stride)
    (hoffset : 0 ≤ offset) (hreplica : HasReplica x) :
    ArrayFits offset x ↔ ∀ count ∈ x.count, offset + x.lastOffset < wordLimit := by
  rw [hasReplica_iff] at hreplica
  refine forall_congr' fun count => forall_congr' fun hcount => ?_
  have hpos := hreplica count hcount
  have hlast : x.lastOffset = (count - 1) * x.stride := by rw [Expansion.lastOffset, hcount]
  have hnonneg : 0 ≤ (count - 1) * x.stride := Int.mul_nonneg (by omega) hstride
  simp only [isWord, Bool.and_eq_true, decide_eq_true_eq, hlast]
  omega

/-- The numbers of a field are not negative, and its bit range holds a bit. -/
structure FieldNonneg (f : Field) : Prop where
  lsb : 0 ≤ f.bits.lsb
  msb : f.bits.lsb ≤ f.bits.msb
  count : ∀ d ∈ f.dimension, IsNonneg? d.count
  stride : ∀ d ∈ f.dimension, IsNonneg? d.stride

theorem fieldFits_iff {f : Field} (h : FieldNonneg f) :
    FieldFits f ↔ (f.dimension.bind Dimension.count ≠ some 0 →
      f.bits.msb + Dimension.lastOffset f.dimension (some f.bits.width) + 1 < wordLimit) := by
  rcases exists_fieldExpansion f with ⟨x, hx⟩
  have hlsb := h.lsb
  have hmsb := h.msb
  have hstride : 0 ≤ x.stride := by
    refine Dimension.stride_of_expansion?_nonneg hx fun n hn => ?_
    rcases Option.or_eq_some_iff.mp hn with hn | ⟨-, hn⟩
    · rcases Option.bind_eq_some_iff.mp hn with ⟨d, hd, hn⟩
      exact h.stride d hd n hn
    · obtain rfl := Option.some.inj hn
      unfold BitRange.width
      omega
  have hcountNonneg : IsNonneg? x.count := by
    intro n hn
    rw [Dimension.count_of_expansion? hx] at hn
    rcases Option.bind_eq_some_iff.mp hn with ⟨d, hd, hn⟩
    exact h.count d hd n hn
  have hreplicas : x.replicas ≠ [] ↔ f.dimension.bind Dimension.count ≠ some 0 := by
    rw [← Dimension.count_of_expansion? hx]
    change HasReplica x ↔ _
    rw [hasReplica_iff]
    constructor
    · intro hpos hzero
      have hlt := hpos 0 hzero
      omega
    · intro hne count hcount
      have hle := hcountNonneg count hcount
      have hzero : count ≠ 0 := by
        rintro rfl
        exact hne hcount
      omega
  have hfits : FieldFits f ↔ ∀ r ∈ x.replicas,
      isWord r.offset = true ∧ isWord (f.bits.msb + 1 + r.offset) = true := by
    simp [FieldFits, hx, Int.add_right_comm]
  have hlast := Dimension.lastOffset_of_expansion? hx
  rw [hfits, Expansion.forall_isWord_iff hstride (by omega), hreplicas, hlast, Int.add_right_comm]

/-! ## Sites that fit -/

namespace Site

/-- All that an element itself has to add up fits in 64 bits, wherever it is checked. -/
structure OwnFits (t : Site) : Prop where
  address : isWord (t.address + t.element.offset) = true
  replicas : ∀ m, t.element = .member m → MemberFits t.inherited m
  fields : ∀ f ∈ t.element.fields, FieldFits f

/-- The replicas of a member are checked with the block around it, all else with its type. -/
theorem forall_fits_iff {root : Site} (hroot : ∀ m, root.element ≠ .member m) :
    (∀ place t, root.at? place = some t → t.Fits) ↔
      ∀ place t, root.at? place = some t → t.OwnFits := by
  constructor
  · intro h place t hat
    refine ⟨(h place t hat).address, ?_, (h place t hat).fields⟩
    intro m hm
    obtain rfl | ⟨place, i, rfl⟩ := List.eq_nil_or_concat' place
    · obtain rfl := Option.some.inj hat
      exact absurd hm (hroot m)
    · rw [at?_concat] at hat
      rcases Option.bind_eq_some_iff.mp hat with ⟨u, hu, hi⟩
      rcases member?_eq_some_iff.mp hi with ⟨halias, n, hn, hexported, rfl⟩
      obtain rfl := Element.member.inj hm
      have hmem : n ∈ u.element.members := by
        rw [Element.members_of_definition halias]
        exact List.mem_of_getElem? hn
      exact (h place u hu).members n hmem hexported
  · intro h place t hat
    refine ⟨(h place t hat).address, ?_, (h place t hat).fields⟩
    intro m hm hexported
    have halias : t.element.derivedFrom = none := by
      by_contra hsome
      rw [Element.members_of_alias (Option.isSome_iff_ne_none.mpr hsome)] at hm
      cases hm
    rw [Element.members_of_definition halias] at hm
    rcases List.getElem?_of_mem hm with ⟨i, hi⟩
    have hmember : t.member? i = some (t.inside m) :=
      member?_eq_some_iff.mpr ⟨halias, m, hi, hexported, rfl⟩
    have hinside : root.at? (place ++ [i]) = some (t.inside m) := by
      rw [at?_concat, hat]
      exact hmember
    exact (h _ _ hinside).replicas m rfl

/-- Behind a fitting address, the replicas of a member fit exactly if the last one does. -/
theorem memberFits_iff {s t : Site} {i : Nat} {m : Member} (hs : s.Nonneg)
    (ht : s.member? i = some t) (hm : t.element = .member m)
    (haddress : isWord (t.address + t.element.offset) = true) :
    MemberFits t.inherited m ↔ ∀ count ∈ t.element.dimension.bind Dimension.count,
      t.element.offset + Dimension.lastOffset t.element.dimension t.effective.size < wordLimit := by
  have hnonneg := hs.member? ht
  rcases hs.exists_expansion ht with ⟨x, hx, hreplica⟩
  have hstride := hnonneg.stride hx
  have hoffset := hnonneg.element.own.offset
  have hsmall : t.element.offset < wordLimit := by
    have houter := hnonneg.address
    simp only [isWord, Bool.and_eq_true, decide_eq_true_eq] at haddress
    omega
  rw [← Dimension.lastOffset_of_expansion? hx, ← Dimension.count_of_expansion? hx]
  rcases t with ⟨e, enclosing, inherited, address⟩
  obtain rfl : e = .member m := hm
  cases m with
  | register r =>
      have hfits : MemberFits inherited (.register r) ↔ ArrayFits r.addressOffset x := by
        constructor
        · intro h
          exact h x hx
        · intro h y hy
          obtain rfl := Option.some.inj (hx.symm.trans hy)
          exact h
      rw [hfits]
      exact arrayFits_iff hstride hoffset hreplica
  | cluster c =>
      have hfits : MemberFits inherited (.cluster c) ↔ ReplicasFit c.addressOffset x := by
        constructor
        · intro h
          exact h x hx
        · intro h y hy
          obtain rfl := Option.some.inj (hx.symm.trans hy)
          exact h
      have hlastFits : ReplicasFit c.addressOffset x ↔ c.addressOffset + x.lastOffset < wordLimit :=
        replicasFit_iff hstride hoffset hreplica
      rw [hfits, hlastFits]
      constructor
      · intro h _ _
        exact h
      · intro h
        cases hcount : x.count with
        | some count => exact h count hcount
        | none =>
            have hlast : x.lastOffset = 0 := by rw [Expansion.lastOffset, hcount]
            rw [hlast, Int.add_zero]
            exact hsmall

end Site

/-! ## Overflows -/

/-- The innermost element of a way has something to add up that does not fit in 64 bits. -/
inductive Overflows (device : Device) : List Element → Prop
  | address {way : List Element} :
      wordLimit ≤ (way.map Element.offset).sum → Overflows device way
  | lastReplica {m : Member} {outer : List Element} {count : Int} :
      (Element.member m).dimension.bind Dimension.count = some count →
      wordLimit ≤ (Element.member m).offset + Dimension.lastOffset (Element.member m).dimension
        (nearest device (.member m :: outer) (·.size)) →
      Overflows device (.member m :: outer)
  | field {r : Register} {outer : List Element} {f : Field} :
      f ∈ r.fields.getD [] → f.dimension.bind Dimension.count ≠ some 0 →
      wordLimit ≤ f.bits.msb + Dimension.lastOffset f.dimension (some f.bits.width) + 1 →
      Overflows device (.member (.register r) :: outer)

/-- No number of a device is negative, and each bit range holds a bit. -/
structure DeviceNonneg (device : Device) : Prop where
  size : IsNonneg? device.properties.size
  elements : ∀ p ∈ device.peripherals, (Element.peripheral p).Throughout fun e =>
    e.OwnNonneg ∧ ∀ f ∈ e.fields, FieldNonneg f

variable {options : Options} {device : Device} {p : Peripheral}

theorem DeviceNonneg.site (h : DeviceNonneg device) (hp : p ∈ device.peripherals) :
    (peripheralSite options device p).Nonneg where
  element := (h.elements p hp).mono fun _ => And.left
  inherited := h.size
  address := Int.le_refl 0

theorem DeviceNonneg.fields (h : DeviceNonneg device) (hp : p ∈ device.peripherals)
    {place : Place} {t : Site} (hat : (peripheralSite options device p).at? place = some t) :
    ∀ f ∈ t.element.fields, FieldNonneg f :=
  (Site.throughout_at? (h.elements p hp) hat).own.2

/-- An element fits exactly if nothing overflows at the end of the way to it. -/
theorem ownFits_iff_not_overflows (h : DeviceNonneg device) (hp : p ∈ device.peripherals)
    {place : Place} {t : Site} (hat : (peripheralSite options device p).at? place = some t) :
    t.OwnFits ↔ ¬Overflows device ((peripheralSite options device p).way place) := by
  have hroot : (peripheralSite options device p).Nonneg := h.site hp
  have hnonneg := hroot.at? hat
  have hfields := h.fields hp hat
  rcases Site.exists_outer hat with ⟨outer, hway⟩
  have hsize : t.effective.size = nearest device (t.element :: outer) (·.size) := by
    rw [Site.effective_eq_nearest rfl hat, hway]
    rfl
  have hsum : ((t.element :: outer).map Element.offset).sum = t.address + t.element.offset := by
    rw [← Site.sum_offset_way hat, hway]
    exact (Int.zero_add _).symm
  have haddress : isWord (t.address + t.element.offset) = true ↔
      t.address + t.element.offset < wordLimit := by
    have houter := hnonneg.address
    have hoffset := hnonneg.element.own.offset
    simp only [isWord, Bool.and_eq_true, decide_eq_true_eq]
    omega
  have hreplicas {m : Member} (hm : t.element = .member m)
      (hword : isWord (t.address + t.element.offset) = true) :
      MemberFits t.inherited m ↔ ∀ count ∈ t.element.dimension.bind Dimension.count,
        t.element.offset + Dimension.lastOffset t.element.dimension t.effective.size <
          wordLimit := by
    rcases exists_around hat hm with ⟨place', i, u, hu, hi⟩
    exact Site.memberFits_iff (hroot.at? hu) hi hm hword
  rw [hway]
  constructor
  · intro hfits hover
    generalize hends : t.element :: outer = way at hover hsum
    cases hover with
    | address hle =>
        have hlt := haddress.mp hfits.address
        omega
    | lastReplica hcount hle =>
        rcases List.cons.inj hends with ⟨hm, rfl⟩
        have hlt := (hreplicas hm hfits.address).mp (hfits.replicas _ hm)
        rw [hsize, hm] at hlt
        have hlast := hlt _ hcount
        omega
    | field hf hne hle =>
        rcases List.cons.inj hends with ⟨hr, rfl⟩
        have hmem := Element.mem_fields_iff.mpr ⟨_, hr, hf⟩
        have hlt := (fieldFits_iff (hfields _ hmem)).mp (hfits.fields _ hmem) hne
        omega
  · intro hnot
    have hword : isWord (t.address + t.element.offset) = true := by
      rw [haddress, ← hsum]
      by_contra hle
      exact hnot (.address (by omega))
    refine ⟨hword, ?_, ?_⟩
    · intro m hm
      rw [hreplicas hm hword, hsize]
      rw [hm] at hnot ⊢
      intro count hcount
      by_contra hle
      exact hnot (.lastReplica hcount (by omega))
    · intro f hf
      rw [fieldFits_iff (hfields f hf)]
      intro hne
      by_contra hle
      rcases Element.mem_fields_iff.mp hf with ⟨r, hr, hmem⟩
      rw [hr] at hnot
      exact hnot (.field hmem hne (by omega))

/-! ## Messages of registers -/

/-- The registers that some events tell of, with the addresses that they tell. -/
def registerMessages (events : List Event) : List (String × Int) :=
  events.filterMap fun
    | .register typeName address => some (typeName, address)
    | _ => none

/-- The register at the end of a way with its address, which is the sum of all offsets. -/
def addressedRegister? (way : List Element) : Option (String × Int) :=
  match way with
  | .member (.register r) :: _ => some (swiftName r.name, (way.map Element.offset).sum)
  | _ => none

theorem registerMessages_reservedFields (access : Option Access) (names : FieldNames)
    (fields : List Field) : registerMessages (reservedFields access names fields) = [] := by
  induction fields generalizing names with
  | nil => rfl
  | cons f fields ih =>
      rcases exists_fieldExpansion f with ⟨x, hx⟩
      have hrest := ih (names.reserve f.name x.indices?).2
      rw [registerMessages] at hrest ⊢
      simp only [reservedFields, hx, List.filterMap_append, hrest, List.append_nil]
      split <;> rfl

theorem registerMessages_memberEvents (inherited : RegisterProperties) (ms : List Member) :
    registerMessages (ms.flatMap (memberEvents inherited)) = [] := by
  rw [registerMessages, List.filterMap_flatMap, List.flatMap_eq_nil_iff]
  intro m _
  unfold memberEvents
  cases memberExpansion? inherited m with
  | some x => rfl
  | none =>
      cases m with
      | cluster c => rfl
      | register r =>
          simp only [leftOutEvent]
          cases (r.properties.inheriting inherited).size <;> rfl

theorem registerMessages_events {place : Place} {t : Site}
    (hat : (peripheralSite options device p).at? place = some t) :
    registerMessages t.events =
      (addressedRegister? ((peripheralSite options device p).way place)).toList := by
  rcases Site.exists_outer hat with ⟨outer, hway⟩
  have hsum := Site.sum_offset_way hat
  rw [hway] at hsum ⊢
  have haddress : ((t.element :: outer).map Element.offset).sum = t.address + t.element.offset := by
    rw [← hsum]
    exact (Int.zero_add _).symm
  rcases t with ⟨e, enclosing, inherited, address⟩
  cases e with
  | peripheral p => exact registerMessages_memberEvents _ _
  | member m =>
      cases m with
      | cluster c => exact registerMessages_memberEvents _ _
      | register r =>
          have hfields := registerMessages_reservedFields (r.properties.inheriting inherited).access
            { registerType := swiftName r.name } (r.fields.getD [])
          rw [registerMessages] at hfields
          simp only [addressedRegister?, haddress, Option.toList_some]
          rw [registerMessages, Site.events, List.filterMap_cons]
          simp only [Site.effective, Element.properties, hfields]
          rfl

/-- The registers of a unit are told in the order of their declarations. -/
theorem registerMessages_allEvents (options : Options) (device : Device) (p : Peripheral) :
    let root := peripheralSite options device p
    registerMessages root.allEvents =
      (root.declarations root.levelOrder).filterMap fun (place, _) =>
        addressedRegister? (root.way place) := by
  intro root
  rw [registerMessages, Site.allEvents, List.filterMap_flatMap, List.filterMap_eq_flatMap_toList]
  refine List.flatMap_congr fun declared hmem => ?_
  rcases declared with ⟨place, t⟩
  exact registerMessages_events (Site.mem_declarations_levelOrder.mp hmem)

/-! ## When the unit of a peripheral fails -/

def controlRegister : Register where
  name := "CR"
  addressOffset := 0xF00

def channel : Cluster where
  name := "CH%s"
  addressOffset := 0x100
  dimension := some ⟨some 4, none⟩
  registers := some [controlRegister]

def dma (base : Int) : Peripheral where
  name := "DMA"
  baseAddress := base
  clusters := some [channel]

def dmaDevice (base : Int) : Device where
  properties := { size := some 32 }
  peripherals := [dma base]

theorem deviceNonneg_dmaDevice {base : Int} (hbase : 0 ≤ base) :
    DeviceNonneg (dmaDevice base) where
  size := by simp [IsNonneg?, dmaDevice]
  elements p hp := by
    obtain rfl := List.mem_singleton.mp hp
    have hdma : (Element.peripheral (dma base)).OwnNonneg := by
      constructor <;> simp [Element.offset, Element.dimension, Element.properties, dma, IsNonneg?,
        hbase]
    have hchannel : (Element.member (.cluster channel)).OwnNonneg := by
      constructor <;> simp [Element.offset, Element.dimension, Element.properties, channel,
        IsNonneg?]
    have hregister : (Element.member (.register controlRegister)).OwnNonneg := by
      constructor <;> simp [Element.offset, Element.dimension, Element.properties,
        controlRegister, IsNonneg?]
    refine .intro ⟨hdma, by simp [Element.fields]⟩ fun m hm => ?_
    obtain rfl := List.mem_singleton.mp hm
    refine .intro ⟨hchannel, by simp [Element.fields]⟩ fun m hm => ?_
    obtain rfl := List.mem_singleton.mp hm
    refine .intro ⟨hregister, by simp [Element.fields, controlRegister]⟩ fun m hm => ?_
    cases hm

theorem declaredWay_controlRegister (base : Int) : DeclaredWay (dmaDevice base) (dma base)
    [.member (.register controlRegister), .member (.cluster channel), .peripheral (dma base)] := by
  have hchannel : DeclaredWay (dmaDevice base) (dma base)
      [.member (.cluster channel), .peripheral (dma base)] := by
    refine .member .peripheral rfl (List.mem_singleton_self _) ?_
    simp [Element.LeftOut, Element.IsRegister, NoReplica, Element.dimension, channel, nearest,
      Element.properties, dma, dmaDevice]
  refine .member hchannel rfl (List.mem_singleton_self _) ?_
  simp [Element.LeftOut, NoReplica, Element.dimension, controlRegister, nearest,
    Element.properties, channel, dma, dmaDevice]

theorem writePeripheralUnit_dma :
    (writePeripheralUnit {} (dmaDevice 0x40000000) (dma 0x40000000)).outcome = .ok () :=
  writePeripheralUnit_of_ok rfl

end RegisterMap.Export
