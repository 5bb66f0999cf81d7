import RegisterMap.Proofs.Derivation.Validation
import RegisterMap.Proofs.Description.WellFormed
import RegisterMap.Proofs.Export.DeviceUnit
import RegisterMap.Proofs.Export.Nonneg

/-!
# Reachable addresses

The address of a register depends on which replica is taken of each element on
the way to it.  Taking the last replica everywhere leads to the highest address.
An export checks the first address of each register, and the replicas of each
element counted from the element around it.
-/

namespace RegisterMap.Export

open RegisterMap.Description (HoldsNoStandIn decodeDevice decodeDevice_eq_ok_iff deviceDocument
  groupNode textNode visits)
open RegisterMap.Model RegisterMap.Number RegisterMap.Report RegisterMap.Swift

namespace Site

/-! ## Choices of replicas -/

def replicas (s : Site) : List Replica :=
  (s.expansion?.map Expansion.replicas).getD []

def lastOffset (s : Site) : Int :=
  match s.expansion? with
  | some ⟨some count, stride⟩ => (count - 1) * stride
  | _ => 0

/-- One replica for each of some elements. -/
def IsChoice (sites : List Site) (choice : List Replica) : Prop :=
  List.Forall₂ (fun s r => r ∈ s.replicas) sites choice

/-- The address that a choice of replicas on the way to an element leads to. -/
def addressOf (sites : List Site) (choice : List Replica) : Int :=
  (List.zipWith (fun s r => s.element.offset + r.offset) sites choice).sum

/-- The address of the last replicas. -/
def highestAddress (sites : List Site) : Int :=
  (sites.map fun s => s.element.offset + s.lastOffset).sum

def firstAddress (sites : List Site) : Int :=
  (sites.map fun s => s.element.offset).sum

/-- True of an element whose replicas go upwards from its own offset. -/
structure Ascends (s : Site) : Prop where
  offset : 0 ≤ s.element.offset
  replica : ∀ r ∈ s.replicas, 0 ≤ r.offset ∧ r.offset ≤ s.lastOffset
  last : ∃ r ∈ s.replicas, r.offset = s.lastOffset

theorem addressOf_bounds {sites : List Site} {choice : List Replica}
    (hsites : ∀ s ∈ sites, s.Ascends) (h : IsChoice sites choice) :
    0 ≤ addressOf sites choice ∧ addressOf sites choice ≤ highestAddress sites := by
  induction h with
  | nil => simp [addressOf, highestAddress]
  | @cons s r sites choice hr _ ih =>
      rcases List.forall_mem_cons.mp hsites with ⟨hs, hothers⟩
      have hoffset := hs.offset
      have hreplica := hs.replica r hr
      have hrest := ih hothers
      simp only [addressOf, highestAddress, List.zipWith_cons_cons, List.map_cons, List.sum_cons]
        at hrest ⊢
      omega

theorem exists_addressOf_eq_highest {sites : List Site} (hsites : ∀ s ∈ sites, s.Ascends) :
    ∃ choice, IsChoice sites choice ∧ addressOf sites choice = highestAddress sites := by
  induction sites with
  | nil => exact ⟨[], .nil, rfl⟩
  | cons s sites ih =>
      rcases List.forall_mem_cons.mp hsites with ⟨hs, hothers⟩
      rcases hs.last with ⟨r, hr, hlast⟩
      rcases ih hothers with ⟨choice, hchoice, haddress⟩
      refine ⟨r :: choice, .cons hr hchoice, ?_⟩
      simp only [addressOf, highestAddress] at haddress
      simp only [addressOf, highestAddress, List.zipWith_cons_cons, List.map_cons, List.sum_cons,
        haddress, hlast]

/-- All choices lead to addresses that fit exactly if the last replicas have one. -/
theorem forall_isWord_addressOf_iff {sites : List Site} (hsites : ∀ s ∈ sites, s.Ascends) :
    (∀ choice, IsChoice sites choice → isWord (addressOf sites choice) = true) ↔
      highestAddress sites < wordLimit := by
  simp only [isWord, Bool.and_eq_true, decide_eq_true_eq]
  constructor
  · intro h
    rcases exists_addressOf_eq_highest hsites with ⟨choice, hchoice, heq⟩
    exact heq ▸ (h choice hchoice).2
  · intro h choice hchoice
    have hbounds := addressOf_bounds hsites hchoice
    omega

theorem lastOffset_eq {s : Site} {x : Expansion} (hx : s.expansion? = some x) :
    s.lastOffset = x.lastOffset := by
  rcases x with ⟨_ | count, stride⟩ <;> simp [lastOffset, Expansion.lastOffset, hx]

theorem Nonneg.ascends {s : Site} (h : s.Nonneg) {x : Expansion} (hx : s.expansion? = some x)
    (hreplica : HasReplica x) : s.Ascends := by
  have hreplicas : s.replicas = x.replicas := by simp [replicas, hx]
  have hlast := lastOffset_eq hx
  refine ⟨h.element.own.offset, ?_, ?_⟩
  · rw [hreplicas, hlast]
    exact fun r hr => Expansion.offset_bounds (h.stride hx) hr
  · rw [hreplicas, hlast]
    exact Expansion.exists_offset_eq_last hreplica

/-! ## Elements on the way -/

theorem mem_chain {s t u : Site} {place : Place} (hat : s.at? place = some t)
    (hu : u ∈ s.chain place) : ∃ outer, outer <+: place ∧ s.at? outer = some u := by
  induction place generalizing s with
  | nil =>
      obtain rfl := List.mem_singleton.mp hu
      exact ⟨[], List.prefix_rfl, rfl⟩
  | cons i place ih =>
      rcases Option.bind_eq_some_iff.mp hat with ⟨v, hv, ht⟩
      rw [chain, hv, Option.elim_some, List.mem_cons] at hu
      rcases hu with rfl | hu
      · exact ⟨[], List.nil_prefix, rfl⟩
      · rcases ih ht hu with ⟨outer, houter, hat⟩
        refine ⟨i :: outer, List.cons_prefix_cons.mpr ⟨rfl, houter⟩, ?_⟩
        rw [at?_cons, hv]
        exact hat

/-! ## What is checked -/

/-- True of an element whose last replica fits behind its own offset. -/
def LastFits (s : Site) : Prop :=
  isWord (s.element.offset + s.lastOffset) = true

theorem Ascends.lastFits {s : Site} (h : s.Ascends) {x : Expansion}
    (hx : s.expansion? = some x) (hfits : ReplicasFit s.element.offset x) : s.LastFits := by
  rcases h.last with ⟨r, hr, hlast⟩
  rw [replicas, hx] at hr
  rw [LastFits, ← hlast]
  exact (hfits r hr).2

theorem lastFits_of_member? {options : Options} {s t u : Site} {codes : List (List Code)}
    (h : (s.sections.mapM (Section.code options)).outcome = .ok codes) (hs : s.Nonneg)
    {place : Place} {i : Nat} (hat : s.at? place = some u) (ht : u.member? i = some t) :
    t.LastFits := by
  have hnonneg := (hs.at? hat).member? ht
  rcases (hs.at? hat).exists_expansion ht with ⟨x, hx, hreplica⟩
  have hascends := hnonneg.ascends hx hreplica
  rcases member?_eq_some_iff.mp ht with ⟨halias, m, hm, hexported, rfl⟩
  rcases exists_typeCode h hat with ⟨code, hcode⟩
  have hmem : m ∈ u.element.members := by
    rw [Element.members_of_definition halias]
    exact List.mem_of_getElem? hm
  rcases exists_memberAccessors hcode hmem with ⟨texts, htexts⟩
  have hfits := (memberAccessors_eq_ok htexts).2 hexported
  cases m with
  | cluster c => exact hascends.lastFits hx (hfits x hx)
  | register r =>
      have harray := hfits x hx
      rcases x with ⟨count?, stride⟩
      cases count? with
      | none =>
          have htype : s.at? (place ++ [i]) = some (u.inside (.register r)) := by
            rw [at?_concat, hat]
            exact ht
          rcases exists_typeCode h htype with ⟨_, hown⟩
          have hword := (typeCode_eq_ok hown).1
          have haddress := hnonneg.address
          have hoffset := hnonneg.element.own.offset
          simp only [LastFits, lastOffset, hx, isWord, Bool.and_eq_true, decide_eq_true_eq]
            at hword ⊢
          omega
      | some count =>
          have hpos := hasReplica_iff.mp hreplica count rfl
          have hlast : (u.inside (.register r)).lastOffset = (count - 1) * stride := by
            simp [lastOffset, hx]
          rw [LastFits, hlast]
          exact harray count rfl (by omega)

end Site

/-! ## Registers of a device -/

/-- The elements on the way to a register that an export declares, the peripheral first. -/
def IsRegisterWay (options : Options) (device : Device) (way : List Site) : Prop :=
  ∃ p ∈ exportedPeripherals options device, ∃ place t r,
    (peripheralSite options device p).at? place = some t ∧
      t.element = .member (.register r) ∧ way = (peripheralSite options device p).chain place

theorem checked_of_isRegisterWay {options : Options} {device : Device}
    (hdevice : ElementsNonneg device) (h : (exportDevice options device).outcome = .ok ())
    {way : List Site} (hway : IsRegisterWay options device way) :
    (∀ s ∈ way, s.Ascends ∧ s.LastFits) ∧ isWord (Site.firstAddress way) = true := by
  rcases hway with ⟨p, hp, place, t, r, hat, -, rfl⟩
  have hexported := exported_of_exportDevice h
  rcases writePeripheralUnit_eq_ok (hexported.written p hp) with ⟨codes, hcodes, -⟩
  have hroot : (peripheralSite options device p).Nonneg :=
    ⟨hdevice.elements p (mem_device_of_exported hp), hdevice.size, Int.le_refl 0⟩
  constructor
  · intro s hs
    rcases Site.mem_chain hat hs with ⟨outer, -, houter⟩
    obtain rfl | ⟨outer, i, rfl⟩ := List.eq_nil_or_concat' outer
    · obtain rfl := Option.some.inj houter
      rcases isExportedPeripheral_iff.mp (isExported_of_mem hp) with ⟨x, hx, hreplica⟩
      have hascends := hroot.ascends hx hreplica
      exact ⟨hascends, hascends.lastFits hx (hexported.replicas p hp x hx)⟩
    · rw [Site.at?_concat] at houter
      rcases Option.bind_eq_some_iff.mp houter with ⟨u, hu, hi⟩
      rcases (hroot.at? hu).exists_expansion hi with ⟨x, hx, hreplica⟩
      exact ⟨((hroot.at? hu).member? hi).ascends hx hreplica,
        Site.lastFits_of_member? hcodes hroot hu hi⟩
  · rcases Site.exists_typeCode hcodes hat with ⟨code, hcode⟩
    have hword := (typeCode_eq_ok hcode).1
    rw [Site.address_of_at? hat] at hword
    simpa [peripheralSite, Site.firstAddress] using hword

/--
Every address that can be reached in a device without negative numbers fits in 64 bits
exactly if the last replicas on the way to each register have one that does.  An export
checks less: the address of the first replicas, and the last replica of each element
behind its own offset.
-/
theorem exportDevice_addresses_fit_iff {options : Options} {device : Device}
    (hdevice : ElementsNonneg device) (h : (exportDevice options device).outcome = .ok ()) :
    ((∀ way, IsRegisterWay options device way → ∀ choice, Site.IsChoice way choice →
        isWord (Site.addressOf way choice) = true) ↔
      ∀ way, IsRegisterWay options device way → Site.highestAddress way < wordLimit) ∧
    ∀ way, IsRegisterWay options device way →
      isWord (Site.firstAddress way) = true ∧ ∀ s ∈ way, s.LastFits := by
  have hchecked := @checked_of_isRegisterWay options device hdevice h
  constructor
  · refine forall₂_congr fun way hway => ?_
    exact Site.forall_isWord_addressOf_iff fun s hs => ((hchecked hway).1 s hs).1
  · intro way hway
    exact ⟨(hchecked hway).2, fun s hs => ((hchecked hway).1 s hs).2⟩

/-! ### Two replicas of a peripheral at the top of the address space -/

/-- The second replica starts at 0xC000000000000000, and its register is 2^62 further up. -/
def pairDocument : Xml.Element :=
  deviceDocument "D" [groupNode "peripheral" [
    textNode "name" "P[%s]", textNode "baseAddress" "0x8000000000000000",
    textNode "dim" "2", textNode "dimIncrement" "0x4000000000000000",
    groupNode "registers" [groupNode "register" [
      textNode "name" "R", textNode "addressOffset" "0x4000000000000000",
      textNode "size" "32"]]]]

def pairPeripheral : Peripheral where
  name := "P[%s]"
  baseAddress := 0x8000000000000000
  dimension := some ⟨some 2, some 0x4000000000000000⟩
  registers := some [
    { name := "R", addressOffset := 0x4000000000000000, properties := { size := some 32 } }]
  clusters := some []

def pairDevice : Device where
  name := "D"
  peripherals := [pairPeripheral]

def pairWay : List Site :=
  (peripheralSite {} pairDevice pairPeripheral).chain [0]

theorem decodeDevice_pairDocument : decodeDevice pairDocument = .ok pairDevice := rfl

theorem selectPeripherals_pairDevice :
    selectPeripherals pairDevice [] = .ok [pairPeripheral] := by
  simp [selectPeripherals, sortByName, pairDevice]
  rfl

theorem exportDevice_pairDevice : (exportDevice {} pairDevice).outcome = .ok () := by
  refine exportDevice_of_parts ?_ selectPeripherals_pairDevice rfl ?_
  · exact Derivation.validate_of_definitions (by simp [pairDevice, pairPeripheral]) (by decide)
  · intro pair hpair
    obtain rfl := List.mem_singleton.mp hpair
    exact ⟨_, rfl⟩

theorem isRegisterWay_pairWay : IsRegisterWay {} pairDevice pairWay := by
  refine ⟨pairPeripheral, ?_, [0], _, _, rfl, rfl, rfl⟩
  have hselected := selectPeripherals_pairDevice
  change pairPeripheral ∈ exportedPeripherals {} pairDevice
  simp only [exportedPeripherals, hselected]
  exact List.mem_filter.mpr ⟨List.mem_singleton_self _, rfl⟩

theorem elementsNonneg_pairDevice : ElementsNonneg pairDevice := by
  have hplain : ∀ v ∈ visits pairDocument, HoldsNoStandIn v.place.element := by decide
  have hreads := decodeDevice_eq_ok_iff.mp decodeDevice_pairDocument
  exact elementsNonneg_of_wellFormed (hreads.wellFormed hplain)

theorem exportDevice_addresses_fit_iff_pair :
    decodeDevice pairDocument = .ok pairDevice ∧ ElementsNonneg pairDevice ∧
      (exportDevice {} pairDevice).outcome = .ok () ∧
      isWord (Site.firstAddress pairWay) = true ∧ (∀ s ∈ pairWay, s.LastFits) ∧
      Site.highestAddress pairWay = wordLimit := by
  have hchecked := (exportDevice_addresses_fit_iff elementsNonneg_pairDevice
    exportDevice_pairDevice).2 pairWay isRegisterWay_pairWay
  exact ⟨decodeDevice_pairDocument, elementsNonneg_pairDevice, exportDevice_pairDevice, hchecked.1,
    hchecked.2, rfl⟩

/-- An export can come to its end although an address that can be reached does not fit. -/
theorem exportDevice_address_overflows :
    decodeDevice pairDocument = .ok pairDevice ∧
      (exportDevice {} pairDevice).outcome = .ok () ∧
      ¬∀ way, IsRegisterWay {} pairDevice way → ∀ choice, Site.IsChoice way choice →
        isWord (Site.addressOf way choice) = true := by
  refine ⟨decodeDevice_pairDocument, exportDevice_pairDevice, ?_⟩
  intro hfits
  have hchoice : Site.IsChoice pairWay [⟨some 1, 0x4000000000000000⟩, ⟨none, 0⟩] :=
    .cons (by decide) (.cons (by decide) .nil)
  have hword := hfits pairWay isRegisterWay_pairWay _ hchoice
  have hoverflow : Site.addressOf pairWay [⟨some 1, 0x4000000000000000⟩, ⟨none, 0⟩] =
      wordLimit := rfl
  rw [hoverflow] at hword
  exact absurd hword (by decide)

end RegisterMap.Export
