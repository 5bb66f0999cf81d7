import RegisterMap.Swift.Name

/-!
# Names of fields

The type names of the fields of one register.  A field named like its register
gets a suffix, and an all-lowercase name is put in upper case, for it would be
the name of its own property.  What still collides with an earlier name of the
register, without regard to case and with replica indices included, is numbered.
-/

namespace RegisterMap.Swift

/-- The names given to fields so far, in lower case, next to the type name of their register. -/
structure FieldNames where
  registerType : String
  taken : List String := []
  deriving Repr

namespace FieldNames

/-- What is added to the name of a field that is named like its register. -/
def collisionSuffix : String := "_FIELD"

def typeName (names : FieldNames) (fieldName : String) : String :=
  let name := swiftName fieldName
  let name := if name = names.registerType then name ++ collisionSuffix else name
  if name = name.toLower then name.toUpper else name

def suffixes (indices? : Option (List Nat)) : List String :=
  match indices? with
  | none => [""]
  | some indices => indices.map toString

/-- The names that a field takes: its type name with each suffix, in lower case. -/
def family (typeName : String) (suffixes : List String) : List String :=
  suffixes.map fun s => (typeName ++ s).toLower

/-- The candidates for a type name: the name itself, then the name numbered from two on. -/
def candidate (base : String) (k : Nat) : String :=
  if k ≤ 1 then base else base ++ "_" ++ toString k

def isFree (names : FieldNames) (base : String) (suffixes : List String) (k : Nat) : Bool :=
  (family (candidate base k) suffixes).all fun name => !names.taken.contains name

/-- The first number from a start on that passes a test, among a number of them. -/
def firstPassing (test : Nat → Bool) : Nat → Nat → Nat
  | 0, k => k
  | remaining + 1, k => if test k then k else firstPassing test remaining (k + 1)

/--
The number of the first free candidate.  With a given suffix a taken name rules
out one candidate at most, which bounds the search.
-/
def freeNumber (names : FieldNames) (base : String) (suffixes : List String) : Nat :=
  firstPassing (names.isFree base suffixes) (names.taken.length * suffixes.length) 1

/-- Give a field, or the replicas with some indices, a type name that is still free. -/
def reserve (names : FieldNames) (fieldName : String) (indices? : Option (List Nat)) :
    String × FieldNames :=
  let base := names.typeName fieldName
  let ends := suffixes indices?
  let name := candidate base (names.freeNumber base ends)
  (name, { names with taken := family name ends ++ names.taken })

end FieldNames

end RegisterMap.Swift
