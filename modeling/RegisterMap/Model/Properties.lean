import RegisterMap.Model.Access

/-!
# Register properties

The defaults that an element of a device sets for the registers below it.  An
absent property is inherited from the enclosing element.
-/

namespace RegisterMap.Model

/-- Inheritable register properties, each of them optional. -/
structure RegisterProperties where
  size : Option Int := none
  access : Option Access := none
  protection : Option Protection := none
  resetValue : Option Int := none
  resetMask : Option Int := none
  deriving DecidableEq, Repr

namespace RegisterProperties

/-- The properties set by an element, completed with those that it inherits. -/
def inheriting (own inherited : RegisterProperties) : RegisterProperties where
  size := own.size.or inherited.size
  access := own.access.or inherited.access
  protection := own.protection.or inherited.protection
  resetValue := own.resetValue.or inherited.resetValue
  resetMask := own.resetMask.or inherited.resetMask

/-- The properties in effect at each element of a chain, from the outermost inwards. -/
def effectiveAlong (inherited : RegisterProperties) :
    List RegisterProperties → List RegisterProperties
  | [] => []
  | own :: chain =>
      let effective := own.inheriting inherited
      effective :: effectiveAlong effective chain

end RegisterProperties

end RegisterMap.Model
