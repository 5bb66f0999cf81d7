import Mathlib.Data.Finite.Defs
import Mathlib.Data.Set.Finite.List
import Mathlib.Logic.Relation
import Mathlib.Order.RelClasses
import RegisterMap.Proofs.Derivation.Validation
import RegisterMap.Proofs.Description.Words

/-!
# Chains of references

From a derived element its reference leads to another one, which can be derived too.
Validation follows the chains of peripherals to their ends, but those of clusters for
one step only.  So the chains of a device that passes validation end in a definition
exactly if none of them is closed, and clusters can close one.
-/

namespace RegisterMap.Derivation

open RegisterMap.Model RegisterMap.Swift
open RegisterMap.Description (decodeDevice deviceDocument groupNode textNode)

/-! ## Steps -/

/-- The reference, if any, of the peripheral or the cluster at a place of a device. -/
def referenceAt? (device : Device) : List Nat → Option (Option String)
  | [] => none
  | [i] => device.peripherals[i]?.map (·.derivedFrom)
  | i :: j :: place => (clusterAt? device (i :: j :: place)).map fun (_, c) => c.derivedFrom

/-- The places of the elements that the reference of the element at a place leads to. -/
inductive IsBaseAt (device : Device) : List Nat → List Nat → Prop
  | peripheral {i j : Nat} {p q : Peripheral} :
      device.peripherals[i]? = some p → p.derivedFrom = some q.name →
      device.peripherals[j]? = some q → IsBaseAt device [i] [j]
  | cluster {place base : List Nat} {path found : List String} {c d : Cluster}
      {target : String} :
      clusterAt? device place = some (path, c) → c.derivedFrom = some target →
      clusterAt? device base = some (found, d) →
      LeadsTo device (typePath path.dropLast) (typePath (components target)) (typePath found) →
      IsBaseAt device place base

/-- The place of an element from which every chain of references comes to a definition. -/
inductive EndsInDefinition (device : Device) : List Nat → Prop
  | definition {place : List Nat} :
      referenceAt? device place = some none → EndsInDefinition device place
  | derived {place : List Nat} :
      (∃ base, IsBaseAt device place base) →
      (∀ base, IsBaseAt device place base → EndsInDefinition device base) →
      EndsInDefinition device place

variable {device : Device}

theorem LeadsTo.isTypePath {scope target found : List String}
    (h : LeadsTo device scope target found) : IsTypePath device found := by
  rcases h with ⟨_, -, -, htype, -⟩
  exact htype

theorem LeadsTo.unique {scope target found other : List String}
    (h : LeadsTo device scope target found) (hother : LeadsTo device scope target other) :
    found = other := by
  rw [← resolveIn_eq_some_iff] at h hother
  exact Option.some.inj (h.symm.trans hother)

theorem referenceAt?_of_clusterAt? {place : List Nat} {path : List String} {c : Cluster}
    (h : clusterAt? device place = some (path, c)) :
    referenceAt? device place = some c.derivedFrom := by
  match place with
  | [] => cases h
  | [i] => simp [clusterAt?, clusterAmong?] at h
  | i :: j :: place => simp [referenceAt?, h]

theorem referenceAt?_of_getElem? {i : Nat} {p : Peripheral}
    (h : device.peripherals[i]? = some p) : referenceAt? device [i] = some p.derivedFrom := by
  simp [referenceAt?, h]

/-- What stands at a place with a reference. -/
theorem exists_at_of_referenceAt? {place : List Nat} {reference : Option String}
    (h : referenceAt? device place = some reference) :
    (∃ i p, place = [i] ∧ device.peripherals[i]? = some p ∧ p.derivedFrom = reference) ∨
      ∃ path c, clusterAt? device place = some (path, c) ∧ c.derivedFrom = reference := by
  match place with
  | [] => cases h
  | [i] =>
      rcases Option.map_eq_some_iff.mp h with ⟨p, hp, hreference⟩
      exact .inl ⟨i, p, rfl, hp, hreference⟩
  | i :: j :: place =>
      rcases Option.map_eq_some_iff.mp h with ⟨⟨path, c⟩, hc, hreference⟩
      exact .inr ⟨path, c, hc, hreference⟩

theorem IsBaseAt.source {place base : List Nat} (h : IsBaseAt device place base) :
    ∃ target, referenceAt? device place = some (some target) := by
  cases h with
  | peripheral hp hbase hq => exact ⟨_, hbase ▸ referenceAt?_of_getElem? hp⟩
  | cluster hc htarget hd hleads => exact ⟨_, htarget ▸ referenceAt?_of_clusterAt? hc⟩

theorem IsBaseAt.target {place base : List Nat} (h : IsBaseAt device place base) :
    ∃ reference, referenceAt? device base = some reference := by
  cases h with
  | peripheral hp hbase hq => exact ⟨_, referenceAt?_of_getElem? hq⟩
  | cluster hc htarget hd hleads => exact ⟨_, referenceAt?_of_clusterAt? hd⟩

/-! ## Closed chains -/

/-- No chain of references comes back to the element at a place. -/
def NeverReturns (device : Device) (place : List Nat) : Prop :=
  ¬Relation.TransGen (IsBaseAt device) place place

/-- An element whose chains end is on no closed one. -/
theorem EndsInDefinition.neverReturns {place : List Nat} (h : EndsInDefinition device place) :
    NeverReturns device place := by
  induction h with
  | definition hnone =>
      intro hcycle
      rcases Relation.TransGen.head'_iff.mp hcycle with ⟨base, hbase, -⟩
      rcases hbase.source with ⟨target, htarget⟩
      rw [hnone] at htarget
      cases htarget
  | derived _ _ ih =>
      intro hcycle
      rcases Relation.TransGen.head'_iff.mp hcycle with ⟨base, hbase, hback⟩
      exact ih base hbase (.tail' hback hbase)

/-- The places of all elements of a device that can have a reference. -/
def elementPlaces (device : Device) : List (List Nat) :=
  (List.range device.peripherals.length).map ([·]) ++ (placedClusters device).map Prod.fst

theorem mem_elementPlaces {place : List Nat} {reference : Option String}
    (h : referenceAt? device place = some reference) : place ∈ elementPlaces device := by
  rw [elementPlaces, List.mem_append]
  rcases exists_at_of_referenceAt? h with ⟨i, p, rfl, hp, -⟩ | ⟨path, c, hc, -⟩
  · have hi : i < device.peripherals.length := (List.getElem?_eq_some_iff.mp hp).1
    exact .inl (List.mem_map.mpr ⟨i, List.mem_range.mpr hi, rfl⟩)
  · have hmem := ((isPreorder_placedClusters device).mem_iff place path c).mpr hc
    exact .inr (List.mem_map.mpr ⟨_, hmem, rfl⟩)

/-! ## Chains of a device that passes validation -/

theorem reaches_of_validate (h : validate device = .ok ()) :
    ∀ p ∈ device.peripherals, ReachesDefinition device.peripherals p := by
  rw [← unreachable_eq_nil_iff]
  by_contra hleft
  rw [validate_of_unreachable (danglingElements_eq_nil_iff.mpr (resolves_of_validate h)) hleft]
    at h
  cases h

theorem exists_isBaseAt (h : validate device = .ok ()) {place : List Nat} {target : String}
    (hplace : referenceAt? device place = some (some target)) :
    ∃ base, IsBaseAt device place base := by
  rcases resolves_of_validate h with ⟨hperipherals, hclusters⟩
  rcases exists_at_of_referenceAt? hplace with ⟨i, p, rfl, hp, htarget⟩ | ⟨path, c, hc, htarget⟩
  · rcases (hperipherals p (List.mem_of_getElem? hp) target htarget).1 with ⟨q, hq, rfl⟩
    rcases List.mem_iff_getElem?.mp hq with ⟨j, hj⟩
    exact ⟨[j], .peripheral hp htarget hj⟩
  · rcases hclusters place path c hc target htarget with ⟨found, hleads, -⟩
    rcases hleads.isTypePath with ⟨base, path', d, hd, rfl⟩
    exact ⟨base, .cluster hc htarget hd hleads⟩

/-- No reference leads back to its own element. -/
theorem IsBaseAt.ne (h : validate device = .ok ()) {place base : List Nat}
    (hbase : IsBaseAt device place base) : base ≠ place := by
  rcases resolves_of_validate h with ⟨hperipherals, hclusters⟩
  intro heq
  subst heq
  cases hbase with
  | peripheral hp htarget hq =>
      obtain rfl := Option.some.inj (hp.symm.trans hq)
      exact (hperipherals _ (List.mem_of_getElem? hp) _ htarget).2 rfl
  | cluster hc htarget hd hleads =>
      obtain ⟨rfl, rfl⟩ := Prod.mk.inj (Option.some.inj (hc.symm.trans hd))
      rcases hclusters _ _ _ hc _ htarget with ⟨found, hfound, hne⟩
      exact hne (hfound.unique hleads)

/-- If all names are different, the chain of a peripheral is the one that validation follows. -/
theorem endsInDefinition_of_reaches (hnodup : device.peripheralNames.Nodup) {p : Peripheral}
    (h : ReachesDefinition device.peripherals p) {i : Nat}
    (hp : device.peripherals[i]? = some p) : EndsInDefinition device [i] := by
  induction h generalizing i with
  | definition hnone => exact .definition (hnone ▸ referenceAt?_of_getElem? hp)
  | @derived p base hbase hmem _ ih =>
      rcases List.mem_iff_getElem?.mp hmem with ⟨j, hj⟩
      refine .derived ⟨[j], .peripheral hp hbase hj⟩ ?_
      intro place hplace
      cases hplace with
      | @peripheral _ k p' q hp' hq hk =>
          obtain rfl := Option.some.inj (hp.symm.trans hp')
          have hname : q.name = base.name := Option.some.inj (hq.symm.trans hbase)
          have hsame := List.inj_on_of_nodup_map hnodup (List.mem_of_getElem? hk) hmem hname
          exact ih (hsame ▸ hk)
      | cluster hc _ _ _ => simp [clusterAt?, clusterAmong?] at hc

/-- The place of an element of a device that can have a reference. -/
def ElementPlace (device : Device) : Type :=
  {place // place ∈ elementPlaces device}

/-- A chain of references leads to the first of two elements from the second one. -/
def ComesAfter (base place : ElementPlace device) : Prop :=
  Relation.TransGen (IsBaseAt device) place.1 base.1

/-- There are finitely many elements.  So if no chain is closed, each of them has an end. -/
theorem wellFounded_comesAfter (hreturns : ∀ place, NeverReturns device place) :
    WellFounded (@ComesAfter device) := by
  have hfinite : Finite (ElementPlace device) :=
    (List.finite_toSet (elementPlaces device)).to_subtype
  have htrans : IsTrans (ElementPlace device) ComesAfter :=
    ⟨fun _ _ _ hbase hplace => hplace.trans hbase⟩
  have hirrefl : Std.Irrefl (@ComesAfter device) := ⟨fun place => hreturns place.1⟩
  exact Finite.wellFounded_of_trans_of_irrefl ComesAfter

theorem endsInDefinition_of_neverReturns (h : validate device = .ok ())
    (hreturns : ∀ place, NeverReturns device place) {place : List Nat}
    {reference : Option String} (hplace : referenceAt? device place = some reference) :
    EndsInDefinition device place := by
  induction hstart : (⟨place, mem_elementPlaces hplace⟩ : ElementPlace device) using
    (wellFounded_comesAfter hreturns).induction generalizing place reference with
  | _ start ih =>
      subst hstart
      cases reference with
      | none => exact .definition hplace
      | some target =>
          refine .derived (exists_isBaseAt h hplace) ?_
          intro base hbase
          rcases hbase.target with ⟨reference, htarget⟩
          exact ih ⟨base, mem_elementPlaces htarget⟩ (.single hbase) htarget rfl

/--
In a device that passes validation, no reference leads back to its own element, and the
chains of peripherals with different names end in a definition.  All chains of the
device end in a definition exactly if none of them is closed.
-/
theorem validate_chains_end_iff (h : validate device = .ok ()) :
    (∀ place base, IsBaseAt device place base → base ≠ place) ∧
      (device.peripheralNames.Nodup → ∀ i p, device.peripherals[i]? = some p →
        EndsInDefinition device [i]) ∧
      ((∀ place reference, referenceAt? device place = some reference →
        EndsInDefinition device place) ↔ ∀ place, NeverReturns device place) := by
  refine ⟨fun place base => IsBaseAt.ne h, ?_, ?_, ?_⟩
  · intro hnodup i p hp
    exact endsInDefinition_of_reaches hnodup
      (reaches_of_validate h p (List.mem_of_getElem? hp)) hp
  · intro hends place hcycle
    rcases Relation.TransGen.head'_iff.mp hcycle with ⟨base, hbase, -⟩
    rcases hbase.source with ⟨target, htarget⟩
    exact (hends place _ htarget).neverReturns hcycle
  · intro hreturns place reference hplace
    exact endsInDefinition_of_neverReturns h hreturns hplace

/-! ### Two channels that refer to each other -/

def firstChannel : Cluster where
  name := "A"
  addressOffset := 0
  derivedFrom := some "B"

def secondChannel (reference : Option String) : Cluster where
  name := "B"
  addressOffset := 0x10
  derivedFrom := reference

def mixer (reference : Option String) : Peripheral where
  name := "MIX"
  baseAddress := 0x1000
  registers := some []
  clusters := some [firstChannel, secondChannel reference]

def mixerCopy : Peripheral where
  name := "AUX"
  baseAddress := 0x2000
  derivedFrom := some "MIX"

def mixerDevice (reference : Option String) : Device where
  name := "D"
  peripherals := [mixer reference, mixerCopy]

/-- Each of the two channels is derived from the other one. -/
def ringDocument : Xml.Element :=
  deviceDocument "D" [
    groupNode "peripheral" [
      textNode "name" "MIX", textNode "baseAddress" "0x1000",
      groupNode "registers" [
        .element (.mk ⟨none, "cluster"⟩ [⟨⟨none, "derivedFrom"⟩, "B"⟩] 1 [
          textNode "name" "A", textNode "addressOffset" "0"]),
        .element (.mk ⟨none, "cluster"⟩ [⟨⟨none, "derivedFrom"⟩, "A"⟩] 1 [
          textNode "name" "B", textNode "addressOffset" "0x10"])]],
    .element (.mk ⟨none, "peripheral"⟩ [⟨⟨none, "derivedFrom"⟩, "MIX"⟩] 1 [
      textNode "name" "AUX", textNode "baseAddress" "0x2000"])]

theorem placedClusters_mixerDevice (reference : Option String) :
    placedClusters (mixerDevice reference) =
      [([0, 0], ["MIX", "A"], firstChannel), ([0, 1], ["MIX", "B"], secondChannel reference)] :=
  rfl

theorem clusterTypes_mixerDevice (reference : Option String) :
    clusterTypes (mixerDevice reference) = [["MIX", "A"], ["MIX", "B"]] := by
  rw [clusterTypes, ← map_snd_placedClusters, placedClusters_mixerDevice]
  rfl

theorem leadsTo_firstChannel (reference : Option String) :
    LeadsTo (mixerDevice reference) (typePath ["MIX"]) (typePath (components "B"))
      (typePath ["MIX", "B"]) := by
  rw [← resolveIn_eq_some_iff, ← referencePath_eq, clusterTypes_mixerDevice]
  rfl

theorem leadsTo_secondChannel (reference : Option String) :
    LeadsTo (mixerDevice reference) (typePath ["MIX"]) (typePath (components "A"))
      (typePath ["MIX", "A"]) := by
  rw [← resolveIn_eq_some_iff, ← referencePath_eq, clusterTypes_mixerDevice]
  rfl

theorem validate_mixerDevice {reference : Option String}
    (hdangling : danglingElements (mixerDevice reference) = []) :
    validate (mixerDevice reference) = .ok () := by
  refine validate_of_reachable hdangling (unreachable_eq_nil_iff.mpr ?_)
  have hmixer : ReachesDefinition (mixerDevice reference).peripherals (mixer reference) :=
    .definition rfl
  have hbase : mixerCopy.derivedFrom = some (mixer reference).name := rfl
  intro p hp
  rcases List.mem_cons.mp hp with rfl | hp
  · exact hmixer
  · obtain rfl := List.mem_singleton.mp hp
    exact .derived hbase List.mem_cons_self hmixer

/-- If the second channel is a definition, each chain ends after one step. -/
theorem referenceAt?_of_isBaseAt_mixerDevice {place base : List Nat}
    (h : IsBaseAt (mixerDevice none) place base) :
    referenceAt? (mixerDevice none) base = some none := by
  cases h with
  | @peripheral i j p q hp hbase hq =>
      have hp' := List.mem_of_getElem? hp
      have hq' := List.mem_of_getElem? hq
      rw [referenceAt?_of_getElem? hq]
      obtain rfl | rfl : p = mixer none ∨ p = mixerCopy := by simpa [mixerDevice] using hp'
      · cases hbase
      · obtain rfl | rfl : q = mixer none ∨ q = mixerCopy := by simpa [mixerDevice] using hq'
        · rfl
        · exact absurd hbase (by decide)
  | @cluster _ _ path found c d target hc htarget hd hleads =>
      rw [referenceAt?_of_clusterAt? hd]
      rw [← (isPreorder_placedClusters _).mem_iff, placedClusters_mixerDevice] at hc hd
      simp only [List.mem_cons, Prod.mk.injEq, List.not_mem_nil, or_false] at hc hd
      rcases hc with ⟨-, rfl, rfl⟩ | ⟨-, rfl, rfl⟩
      · obtain rfl : "B" = target := Option.some.inj htarget
        rcases hd with ⟨-, rfl, rfl⟩ | ⟨-, rfl, rfl⟩
        · exact absurd (hleads.unique (leadsTo_firstChannel none)) (by decide)
        · rfl
      · cases htarget

theorem validate_chains_end_iff_mixer :
    validate (mixerDevice none) = .ok () ∧
      ∀ place reference, referenceAt? (mixerDevice none) place = some reference →
        EndsInDefinition (mixerDevice none) place := by
  have hvalid : validate (mixerDevice none) = .ok () := validate_mixerDevice rfl
  refine ⟨hvalid, (validate_chains_end_iff hvalid).2.2.mpr ?_⟩
  intro place hcycle
  rcases Relation.TransGen.head'_iff.mp hcycle with ⟨base, hbase, -⟩
  rcases Relation.TransGen.tail'_iff.mp hcycle with ⟨before, -, hplace⟩
  rcases hbase.source with ⟨target, htarget⟩
  rw [referenceAt?_of_isBaseAt_mixerDevice hplace] at htarget
  cases htarget

/-- Two clusters that are derived from each other pass validation. -/
theorem validate_accepts_ring :
    decodeDevice ringDocument = .ok (mixerDevice (some "A")) ∧
      validate (mixerDevice (some "A")) = .ok () ∧
      IsBaseAt (mixerDevice (some "A")) [0, 0] [0, 1] ∧
      IsBaseAt (mixerDevice (some "A")) [0, 1] [0, 0] ∧
      ¬∀ place reference, referenceAt? (mixerDevice (some "A")) place = some reference →
        EndsInDefinition (mixerDevice (some "A")) place := by
  have hforth : IsBaseAt (mixerDevice (some "A")) [0, 0] [0, 1] :=
    .cluster rfl rfl rfl (leadsTo_firstChannel _)
  have hback : IsBaseAt (mixerDevice (some "A")) [0, 1] [0, 0] :=
    .cluster rfl rfl rfl (leadsTo_secondChannel _)
  refine ⟨rfl, validate_mixerDevice rfl, hforth, hback, ?_⟩
  intro hends
  exact (hends [0, 0] (some "B") rfl).neverReturns (.tail (.single hforth) hback)

end RegisterMap.Derivation
