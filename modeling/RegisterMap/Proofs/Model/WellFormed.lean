import Mathlib.Tactic.MkIffOfInductiveProp
import RegisterMap.Proofs.Description.Words
import RegisterMap.Proofs.Model.Item
import RegisterMap.Proofs.Text.Trimmed

/-!
# Well-formed items

What a description can say of an item: names and descriptions are trimmed, bit
ranges are ordered, dimensions have a count, and lists of members are there or
absent as the kind of the item wants it.  Apart from that, numbers fit if every
one of them is there and is a word.
-/

namespace RegisterMap.Model

open RegisterMap.Export (IsWord?)
open RegisterMap.Number RegisterMap.Text

instance (n? : Option Int) : Decidable (IsWord? n?) :=
  inferInstanceAs (Decidable (∀ n ∈ n?, isWord n = true))

/-! ## Shape -/

@[mk_iff]
structure Dimension.WellFormed (d : Dimension) : Prop where
  counted : d.count.isSome
  count : IsWord? d.count
  stride : IsWord? d.stride

@[mk_iff]
structure RegisterProperties.WellFormed (properties : RegisterProperties) : Prop where
  size : IsWord? properties.size
  resetValue : IsWord? properties.resetValue
  resetMask : IsWord? properties.resetMask

instance (d : Dimension) : Decidable d.WellFormed :=
  decidable_of_iff' _ (Dimension.wellFormed_iff d)

instance (properties : RegisterProperties) : Decidable properties.WellFormed :=
  decidable_of_iff' _ (RegisterProperties.wellFormed_iff properties)

/-- True of a bit range whose first bit is a word and not behind its last bit. -/
@[mk_iff]
structure BitRange.WellFormed (bits : BitRange) : Prop where
  lsb : isWord bits.lsb = true
  ordered : bits.lsb ≤ bits.msb

instance (bits : BitRange) : Decidable bits.WellFormed :=
  decidable_of_iff' _ (BitRange.wellFormed_iff bits)

/--
True of an item whose lists of members may be as they are: a list of a cluster
is not empty, and the lists of a peripheral are there together.
-/
def Item.MembersWellFormed : Item → Prop
  | cluster c => c.registers ≠ some [] ∧ c.clusters ≠ some []
  | peripheral p => p.registers.isSome = p.clusters.isSome
  | device _ | register _ | field _ => True

def decidableEqSomeNil {α : Type} : (xs? : Option (List α)) → Decidable (xs? = some [])
  | none => .isFalse nofun
  | some [] => .isTrue rfl
  | some (_ :: _) => .isFalse nofun

instance : (i : Item) → Decidable i.MembersWellFormed
  | .cluster c =>
      have := decidableEqSomeNil c.registers
      have := decidableEqSomeNil c.clusters
      inferInstanceAs (Decidable (c.registers ≠ some [] ∧ c.clusters ≠ some []))
  | .peripheral p => inferInstanceAs (Decidable (p.registers.isSome = p.clusters.isSome))
  | .device _ | .register _ | .field _ => .isTrue trivial

@[mk_iff]
structure Item.WellFormed (i : Item) : Prop where
  name : IsTrimmed i.name
  description : ∀ description ∈ i.description, IsTrimmed description
  derivedFrom : ∀ base ∈ i.derivedFrom, IsTrimmed base
  address : IsWord? i.address?
  bits : ∀ bits ∈ i.bits?, bits.WellFormed
  dimension : ∀ dimension ∈ i.dimension, dimension.WellFormed
  properties : i.properties.WellFormed
  members : i.MembersWellFormed

instance (i : Item) : Decidable i.WellFormed :=
  decidable_of_iff' _ (Item.wellFormed_iff i)

/-- True of an item whose texts are trimmed and whose lists of members may be as they are. -/
structure Item.Labelled (i : Item) : Prop where
  name : IsTrimmed i.name
  description : ∀ description ∈ i.description, IsTrimmed description
  derivedFrom : ∀ base ∈ i.derivedFrom, IsTrimmed base
  members : i.MembersWellFormed

theorem Item.wellFormed_of_labelled {i : Item} (h : i.Labelled) (haddress : IsWord? i.address?)
    (hbits : ∀ bits ∈ i.bits?, bits.WellFormed)
    (hdimension : ∀ dimension ∈ i.dimension, dimension.WellFormed)
    (hproperties : i.properties.WellFormed) : i.WellFormed :=
  ⟨h.name, h.description, h.derivedFrom, haddress, hbits, hdimension, hproperties, h.members⟩

def Device.WellFormed (device : Device) : Prop :=
  ∀ i ∈ device.items, i.WellFormed

theorem RegisterProperties.wellFormed_empty : RegisterProperties.WellFormed {} :=
  ⟨nofun, nofun, nofun⟩

/-! ## Numbers -/

theorem isWord?_some {n : Int} (h : isWord n = true) : IsWord? (some n) := by
  rintro _ ⟨⟩
  exact h

/-- True of a write constraint whose bounds are there and are words, if it has bounds. -/
inductive WriteConstraint.Bounded : WriteConstraint → Prop
  | writeAsRead (value : Bool) : Bounded (.writeAsRead value)
  | useEnumeratedValues (value : Bool) : Bounded (.useEnumeratedValues value)
  | range {low high : Int} (hlow : isWord low = true) (hhigh : isWord high = true) :
      Bounded (.range (some low) (some high))

instance : (constraint : WriteConstraint) → Decidable constraint.Bounded
  | .writeAsRead value => .isTrue (.writeAsRead value)
  | .useEnumeratedValues value => .isTrue (.useEnumeratedValues value)
  | .range (some low) (some high) =>
      decidable_of_iff (isWord low = true ∧ isWord high = true)
        ⟨fun h => .range h.1 h.2, fun | .range hlow hhigh => ⟨hlow, hhigh⟩⟩
  | .range none _ => .isFalse nofun
  | .range (some _) none => .isFalse nofun

/-- True of an item all of whose numbers are words, the bounds of its constraint included. -/
@[mk_iff]
structure Item.NumbersFit (i : Item) : Prop where
  address : IsWord? i.address?
  count : ∀ dimension ∈ i.dimension, IsWord? dimension.count
  stride : ∀ dimension ∈ i.dimension, IsWord? dimension.stride
  properties : i.properties.WellFormed
  lsb : ∀ bits ∈ i.bits?, isWord bits.lsb = true
  msb : ∀ bits ∈ i.bits?, isWord bits.msb = true
  bounds : ∀ constraint ∈ i.writeConstraint, constraint.Bounded

instance (i : Item) : Decidable i.NumbersFit :=
  decidable_of_iff' _ (Item.numbersFit_iff i)

def Device.NumbersFit (device : Device) : Prop :=
  ∀ i ∈ device.items, i.NumbersFit

instance (device : Device) : Decidable device.NumbersFit :=
  inferInstanceAs (Decidable (∀ i ∈ device.items, i.NumbersFit))

theorem WriteConstraint.bounded_range_iff {minimum maximum : Option Int}
    (hmin : IsWord? minimum) (hmax : IsWord? maximum) :
    (WriteConstraint.range minimum maximum).Bounded ↔ minimum.isSome ∧ maximum.isSome := by
  constructor
  · rintro ⟨⟩
    exact ⟨rfl, rfl⟩
  · rcases minimum with _ | low <;> rcases maximum with _ | high <;> rintro ⟨⟨⟩, ⟨⟩⟩
    exact .range (hmin low rfl) (hmax high rfl)

/-- Only the last bit and the bounds of a well-formed item can fail to be words. -/
theorem Item.WellFormed.numbersFit_iff {i : Item} (h : i.WellFormed) :
    i.NumbersFit ↔ (∀ bits ∈ i.bits?, isWord bits.msb = true) ∧
      ∀ constraint ∈ i.writeConstraint, constraint.Bounded := by
  constructor
  · intro hfit
    exact ⟨hfit.msb, hfit.bounds⟩
  · rintro ⟨hmsb, hbounds⟩
    exact {
      address := h.address
      count := fun d hd => (h.dimension d hd).count
      stride := fun d hd => (h.dimension d hd).stride
      properties := h.properties
      lsb := fun bits hbits => (h.bits bits hbits).lsb
      msb := hmsb
      bounds := hbounds }

/-! ## Describable items -/

/-- True of an item that a description can give as it is. -/
@[mk_iff]
structure Item.Describable (i : Item) : Prop extends i.WellFormed, i.NumbersFit

instance (i : Item) : Decidable i.Describable :=
  decidable_of_iff' _ (Item.describable_iff i)

def Device.Describable (device : Device) : Prop :=
  ∀ i ∈ device.items, i.Describable

instance (device : Device) : Decidable device.Describable :=
  inferInstanceAs (Decidable (∀ i ∈ device.items, i.Describable))

end RegisterMap.Model
