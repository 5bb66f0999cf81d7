import RegisterMap.Model.Device
import RegisterMap.Number.Address

/-!
# Replicas

A dimensioned element stands for several replicas at a fixed distance.  The
distance is its own stride or else a default that depends on its kind; without
either the element cannot be expanded.
-/

namespace RegisterMap.Model

open RegisterMap.Number

structure Replica where
  /-- Number of the replica, if the element is dimensioned. -/
  index : Option Nat
  /-- Distance from the first replica. -/
  offset : Int
  deriving DecidableEq, Repr

namespace Replica

def suffix (replica : Replica) : String :=
  match replica.index with
  | none => ""
  | some i => toString i

end Replica

structure Expansion where
  /-- Number of replicas, if the element is dimensioned. -/
  count : Option Int
  stride : Int
  deriving DecidableEq, Repr

namespace Expansion

def scalar : Expansion := ⟨none, 0⟩

def isArray (e : Expansion) : Bool := e.count.isSome

def indices? (e : Expansion) : Option (List Nat) :=
  e.count.map fun count => List.range count.toNat

def replicaAt (e : Expansion) (index : Nat) : Except AddressOverflow Replica := do
  let offset ← checkedSum [index * e.stride]
  return ⟨some index, offset⟩

/-- Apply a function to a number of consecutive replicas, up to the first failure. -/
def mapFrom (e : Expansion) (f : Replica → Except AddressOverflow α) :
    Nat → Nat → Except AddressOverflow (List α)
  | 0, _ => return []
  | remaining + 1, index => do
      let replica ← e.replicaAt index
      let first ← f replica
      let others ← e.mapFrom f remaining (index + 1)
      return first :: others

def mapReplicas (e : Expansion) (f : Replica → Except AddressOverflow α) :
    Except AddressOverflow (List α) :=
  match e.count with
  | none => do
      let only ← f ⟨none, 0⟩
      return [only]
  | some count => e.mapFrom f count.toNat 0

/-- At most a given number of consecutive replicas, and the overflow that cut them short. -/
def previewFrom (e : Expansion) : Nat → Nat → List Replica × Option AddressOverflow
  | 0, _ => ([], none)
  | remaining + 1, index =>
      match e.replicaAt index with
      | .error overflow => ([], some overflow)
      | .ok replica =>
          let (others, overflow?) := e.previewFrom remaining (index + 1)
          (replica :: others, overflow?)

def preview (e : Expansion) (limit : Nat) : List Replica × Option AddressOverflow :=
  match e.count with
  | none => ([⟨none, 0⟩].take limit, none)
  | some count => e.previewFrom (min limit count.toNat) 0

end Expansion

namespace Dimension

/--
The expansion of an element with a default stride.  There is none if replicas
are asked for and no stride is known; an element without replicas needs none.
-/
def expansion? (dimension : Option Dimension) (defaultStride : Option Int) : Option Expansion :=
  match dimension.bind Dimension.count with
  | none => some .scalar
  | some count =>
      let stride := (dimension.bind Dimension.stride).or defaultStride
      if count = 0 then some ⟨some 0, stride.getD 0⟩
      else stride.map fun stride => ⟨some count, stride⟩

end Dimension

end RegisterMap.Model
