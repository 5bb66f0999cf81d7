import RegisterMap.Model.Device

/-!
# Order of derived peripherals

An order in which every derived peripheral comes after its base.  Peripherals
without a base are ready from the start; taking a ready peripheral makes those
that derive from its name ready.  Whatever never gets ready is in a cycle or
derives from a name that no peripheral has.
-/

namespace RegisterMap.Derivation

open RegisterMap.Model

def derivesFrom (name : String) (p : Peripheral) : Bool :=
  p.derivedFrom == some name

def followers (name : String) (waiting : List Peripheral) : List Peripheral :=
  waiting.filter (derivesFrom name)

def others (name : String) (waiting : List Peripheral) : List Peripheral :=
  waiting.filter fun p => !derivesFrom name p

theorem length_followers_add_length_others (name : String) (waiting : List Peripheral) :
    (followers name waiting).length + (others name waiting).length = waiting.length := by
  unfold followers others
  induction waiting with
  | nil => rfl
  | cons p waiting ih => by_cases h : derivesFrom name p <;> simp [h] <;> omega

/--
Take the ready peripherals, the one that got ready last first, until none is
left.  The result is the order in which they were taken, and what still waits.
-/
def takeReady (ready waiting : List Peripheral) : List Peripheral × List Peripheral :=
  match ready with
  | [] => ([], waiting)
  | p :: ready =>
      let (taken, left) :=
        takeReady ((followers p.name waiting).reverse ++ ready) (others p.name waiting)
      (p :: taken, left)
termination_by ready.length + waiting.length
decreasing_by
  have := length_followers_add_length_others p.name waiting
  simp only [List.length_append, List.length_reverse, List.length_cons]
  omega

/-- Derived peripherals grouped by the name that they derive from. -/
def groupedByBase (waiting : List Peripheral) : List Peripheral :=
  (waiting.map (·.derivedFrom)).eraseDups.flatMap fun base =>
    waiting.filter fun p => p.derivedFrom == base

def sortReachable (peripherals : List Peripheral) : List Peripheral × List Peripheral :=
  let (waiting, ready) := peripherals.partition fun p => p.derivedFrom.isSome
  takeReady ready.reverse waiting

/--
The peripherals in an order in which bases come first, or else the names of
those that have no place in such an order.
-/
def sortByBase (peripherals : List Peripheral) : Except (List String) (List Peripheral) :=
  match sortReachable peripherals with
  | (taken, []) => .ok taken
  | (_, left) => .error ((groupedByBase left).map (·.name))

end RegisterMap.Derivation
