import RegisterMap.Description.Location
import RegisterMap.Model.Device
import RegisterMap.Number.Scaled

/-!
# Values of elements

The values that an element gives in its children and attributes.  Of several
children with one tag only the first counts.  Where a value is missing, a child that
is named like the value stands in for it.
-/

namespace RegisterMap.Description

open RegisterMap.Model RegisterMap.Number RegisterMap.Text RegisterMap.Xml

/-- The kinds of elements that are decoded. -/
inductive Shape where
  | device
  | peripheral
  | cluster
  | register
  | field
  | writeConstraint
  deriving DecidableEq, Repr

namespace Shape

def word : Shape → String
  | device => "Device"
  | peripheral => "Peripheral"
  | cluster => "Cluster"
  | register => "Register"
  | field => "Field"
  | writeConstraint => "WriteConstraint"

end Shape

/-- The values of elements that can be missing, each with a name of its own. -/
inductive Property where
  | name
  | baseAddress
  | offset
  | dimension
  | bitRange
  | registerProperties
  | minimum
  | maximum
  /-- The number of replicas. -/
  | count
  | stride
  | size
  | resetValue
  | resetMask
  | lsb
  | msb
  | bitOffset
  | bitWidth
  | writeAsRead
  | useEnumeratedValues
  /-- The value of an element that is read for its text. -/
  | value
  deriving DecidableEq, Repr

namespace Property

def word : Property → String
  | name => "name"
  | baseAddress => "base_address"
  | offset => "offset"
  | dimension => "dimension"
  | bitRange => "bit_range"
  | registerProperties => "register_properties"
  | minimum => "minimum"
  | maximum => "maximum"
  | count => "_dim"
  | stride => "_dim_increment"
  | size => "_size"
  | resetValue => "_reset_value"
  | resetMask => "_reset_mask"
  | lsb => "_lsb"
  | msb => "_msb"
  | bitOffset => "_bit_offset"
  | bitWidth => "_bit_width"
  | writeAsRead => "_write_as_read"
  | useEnumeratedValues => "_use_enumerated_values"
  | value => "pyval"

end Property

inductive Cause where
  /-- A value that must be there is missing, or has no text. -/
  | absent (property : Property)
  | malformedElement (value : Option String) (tag : String)
  | malformedAttribute (value name : String)
  | emptyName
  | malformedNumeral (e : NumeralError)
  | malformedBitRange (text : String)
  | reversedBits (lsb msb : Int)
  | noConstraint
  | notDevice
  deriving DecidableEq, Repr

namespace Cause

def message : Cause → String
  | absent property => "no such child: " ++ property.word
  | malformedElement value tag =>
      "Malformed value " ++ (Literal.ofText? value).render ++ " in element '" ++ tag ++ "'"
  | malformedAttribute value name =>
      "Malformed value " ++ quoted value ++ " in attribute '" ++ name ++ "'"
  | emptyName => "Name must not be empty"
  | malformedNumeral e => e.message
  | malformedBitRange text =>
      "Malformed bitRange " ++ quoted text ++ ", expected '[msb:lsb]'"
  | reversedBits lsb msb =>
      "Most significant bit " ++ toString msb ++ " is below least significant bit " ++
        toString lsb
  | noConstraint => "expected one of writeAsRead, useEnumeratedValues or range"
  | notDevice => "the root element must be 'device'"

end Cause

/-! ## Names -/

/-- A reference to another element that holds nothing but blanks. -/
inductive NameError where
  | empty
  deriving DecidableEq, Repr

namespace NameError

def message : NameError → String
  | empty => "Empty element name"

end NameError

def readReference (text : String) : Except NameError String :=
  let name := trim text
  if name.isEmpty then .error .empty else .ok name

def nameOf (e : Element) : Except Cause String :=
  match e.child? "name" with
  | none => .error (.absent .name)
  | some child =>
      let name := trim (child.text?.getD "")
      if name.isEmpty then .error .emptyName else .ok name

/-- The description of an element; a blank one does not count. -/
def descriptionOf (e : Element) : Option String :=
  match e.child? "description" with
  | none => none
  | some child =>
      let description := trim (child.text?.getD "")
      if description.isEmpty then none else some description

def derivedFromOf (e : Element) : Except Cause (Option String) :=
  match e.attribute? "derivedFrom" with
  | none => .ok none
  | some value =>
      match readReference value with
      | .ok name => .ok (some name)
      | .error _ => .error (.malformedAttribute value "derivedFrom")

/-! ## Stand-ins -/

/--
A value that may be missing, given by another child in its place: the first one that
is named like the value itself.
-/
def orStandIn (e : Element) (property : Property) (ofStandIn : Element → α) :
    Except Cause α → Except Cause α
  | .error (.absent _) =>
      match e.child? property.word with
      | some standIn => .ok (ofStandIn standIn)
      | none => .error (.absent property)
  | value => value

/--
The number that an element counts as in the place of a value.  Only digits and a sign
are taken for a number; anything else counts as zero.
-/
def standInNumber (e : Element) : Int :=
  let text := strip (e.text?.getD "").toList
  if '_' ∈ text then 0 else (Numeral.read .decimal text).toOption.getD 0

/-! ## Integers and words -/

def integerOf (e : Element) (tag : String) : Except Cause Int :=
  orStandIn e .value standInNumber <|
    match e.text? with
    | none => .error (.absent .value)
    | some text =>
        match readScaled text with
        | .ok n => .ok n
        | .error _ => .error (.malformedElement (some text) tag)

def integer? (e : Element) (tag : String) (property : Property) : Except Cause (Option Int) :=
  match e.child? tag with
  | none => .ok none
  | some child => (orStandIn e property standInNumber (integerOf child tag)).map some

def integer (e : Element) (tag : String) (property : Property) : Except Cause Int :=
  orStandIn e property standInNumber <|
    match e.child? tag with
    | none => .error (.absent property)
    | some child => integerOf child tag

def word? (e : Element) (tag : String) (ofWord? : String → Option α) :
    Except Cause (Option α) :=
  match e.child? tag with
  | none => .ok none
  | some child =>
      match ofWord? (trim (child.text?.getD "")) with
      | some a => .ok (some a)
      | none => .error (.malformedElement child.text? tag)

def accessOf (e : Element) : Except Cause (Option Access) :=
  word? e "access" Access.ofWord?

/-- The properties of an element.  One child in the place of all of them gives none. -/
def propertiesOf (e : Element) : Except Cause RegisterProperties :=
  orStandIn e .registerProperties (fun _ => {}) do
    let size ← integer? e "size" .size
    let access ← accessOf e
    let protection ← word? e "protection" Protection.ofWord?
    let resetValue ← integer? e "resetValue" .resetValue
    let resetMask ← integer? e "resetMask" .resetMask
    return { size, access, protection, resetValue, resetMask }

/--
The dimension of an element.  Without a count a stride is not looked at.  One child in
the place of both gives neither.
-/
def dimensionOf (e : Element) : Except Cause (Option Dimension) :=
  orStandIn e .dimension (fun _ => some {}) do
    match ← integer? e "dim" .count with
    | none => return none
    | some count =>
        let stride ← integer? e "dimIncrement" .stride
        return some ⟨some count, stride⟩

/-! ## Bit ranges -/

def orderedBits (lsb msb : Int) : Except Cause BitRange :=
  if msb < lsb then .error (.reversedBits lsb msb) else .ok ⟨lsb, msb⟩

def integerIn (text : List Char) : Except Cause Int :=
  match readScaled (String.ofList text) with
  | .ok n => .ok n
  | .error e => .error (.malformedNumeral e)

def unbracket? : List Char → Option (List Char)
  | '[' :: cs => if cs.getLast? = some ']' then some cs.dropLast else none
  | _ => none

/-- Read a bit range in brackets, the most significant bit first. -/
def readBitRange (text : String) : Except Cause BitRange :=
  let stripped := strip text.toList
  match (unbracket? stripped).map fun inner =>
      (inner.takeWhile (· != ':'), inner.dropWhile (· != ':')) with
  | some (msb, _ :: lsb) => do
      let lsb ← integerIn lsb
      let msb ← integerIn msb
      orderedBits lsb msb
  | _ => .error (.malformedBitRange (String.ofList stripped))

def bitEnds? (e : Element) : Except Cause (Option (Int × Int)) := do
  match ← integer? e "lsb" .lsb with
  | none => return none
  | some lsb =>
      match ← integer? e "msb" .msb with
      | none => return none
      | some msb => return some (lsb, msb)

/-- The bits that an element counts as in the place of a bit range, in whatever order. -/
def standInBits (e : Element) : BitRange :=
  let bit (tag : String) : Int :=
    ((e.child? tag).bind fun child => (integerOf child tag).toOption).getD 0
  ⟨bit "lsb", bit "msb"⟩

/--
The bits that a field writes: the two ends, or else the first bit and a width, or
else a bit range in brackets.
-/
def writtenBits (e : Element) : Except Cause BitRange := do
  match ← bitEnds? e with
  | some (lsb, msb) => orderedBits lsb msb
  | none =>
      match ← integer? e "bitOffset" .bitOffset with
      | some lsb =>
          let width ← integer? e "bitWidth" .bitWidth
          orderedBits lsb (lsb + width.getD 1 - 1)
      | none =>
          match e.child? "bitRange" with
          | some child => readBitRange (child.text?.getD "")
          | none => throw (.absent .bitRange)

def bitsOf (e : Element) : Except Cause BitRange :=
  orStandIn e .bitRange standInBits (writtenBits e)

/-! ## Write constraints -/

/-- The truth value that a text stands for.  No text at all stands for false. -/
def truth? : Option String → Option Bool
  | none => some false
  | some "true" => some true
  | some "1" => some true
  | some "false" => some false
  | some "0" => some false
  | some _ => none

/-- The truth value that an element counts as in the place of one.  What is not true is false. -/
def standInTruth (e : Element) : Bool :=
  truth? (e.text?.map trim) == some true

def truthIn? (e : Element) (tag : String) (property : Property) : Option Bool :=
  match e.child? tag with
  | some child => truth? child.text?
  | none => (e.child? property.word).map standInTruth

/--
A bound of a range.  The child must be there but may be empty: then it stands in for
itself, and there is no bound.
-/
def boundOf (range : Element) (bound : Property) : Except Cause (Option Int) :=
  orStandIn range bound (fun _ => none) <|
    match range.child? bound.word with
    | none => .error (.absent bound)
    | some child => (integerOf child bound.word).map some

/-- The constraint that an element holds, the first of three kinds, if it holds any. -/
def constraintIn? (e : Element) : Except Cause (Option WriteConstraint) := do
  match truthIn? e "writeAsRead" .writeAsRead,
      truthIn? e "useEnumeratedValues" .useEnumeratedValues, e.child? "range" with
  | some value, _, _ => return some (.writeAsRead value)
  | none, some value, _ => return some (.useEnumeratedValues value)
  | none, none, some range =>
      let minimum ← boundOf range .minimum
      let maximum ← boundOf range .maximum
      return some (.range minimum maximum)
  | none, none, none => return none

end RegisterMap.Description
