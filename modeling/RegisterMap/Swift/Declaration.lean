import RegisterMap.Model.Expansion
import RegisterMap.Swift.Name
import RegisterMap.Text.Line

/-!
# Swift declarations

The text of the declarations of each kind of element: complete lines without
indentation.  A heading opens a block and leaves its closing brace to whoever
lays the block out; an accessor declares an instance or a member.
-/

namespace RegisterMap.Swift

open RegisterMap.Model RegisterMap.Number RegisterMap.Text

def joinLines (lines : List String) : String :=
  String.intercalate "\n" lines

/-- The documentation comment for a description: its lines that are not blank. -/
def docComment (description : Option String) : List String :=
  match description with
  | none => []
  | some text =>
      ((lines text.toList).map strip).filterMap fun line =>
        if line.isEmpty then none else some ("/// " ++ String.ofList line)

/-- The attribute of a field that nothing is known about. -/
def reservedAttribute : String := "Reserved"

/-- The attribute for an access right.  Writing once counts as writing. -/
def accessAttribute : Option Access → String
  | none => reservedAttribute
  | some .readOnly => "ReadOnly"
  | some .writeOnly => "WriteOnly"
  | some .readWrite => "ReadWrite"
  | some .writeOnce => "WriteOnly"
  | some .readWriteOnce => "ReadWrite"

def typeAlias (modifiers typeName target : String) : String :=
  modifiers ++ "typealias " ++ identifier typeName ++ " = " ++ target

/-- The heading of an extension of a nested type, whose names come outermost first. -/
def extensionHeading (typeNames : List String) : String :=
  "extension " ++ String.intercalate "." (typeNames.map identifier) ++ " \x7b"

/-- What the declarations of an element have in common. -/
structure Subject where
  description : Option String
  typeName : String
  /-- Words in front of a declaration, with a space after each. -/
  modifiers : String

namespace Subject

def documented (subject : Subject) (lines : List String) : String :=
  joinLines (docComment subject.description ++ lines)

def structLine (subject : Subject) : String :=
  subject.modifiers ++ "struct " ++ identifier subject.typeName ++ " \x7b"

/-- The heading of the block around all instances. -/
def namespaceHeading (subject : Subject) (isStruct : Bool) : String :=
  let kind := if isStruct then "struct " else "enum "
  subject.documented [subject.modifiers ++ kind ++ identifier subject.typeName ++ " \x7b"]

def blockHeading (subject : Subject) : String :=
  subject.documented ["@RegisterBlock", subject.structLine]

def registerHeading (subject : Subject) (bitWidth : Int) : String :=
  subject.documented ["@Register(bitWidth: " ++ toString bitWidth ++ ")", subject.structLine]

def propertyName (subject : Subject) (replica : Replica) : String :=
  identifier (instanceName subject.typeName ++ replica.suffix)

def peripheralAccessors (subject : Subject) (baseAddress : Int) (expansion : Expansion) :
    Except AddressOverflow (List String) :=
  expansion.mapReplicas fun replica => do
    let address ← checkedSum [baseAddress, replica.offset]
    return subject.documented
      [subject.modifiers ++ "let " ++ subject.propertyName replica ++ " = " ++
        identifier subject.typeName ++ "(unsafeAddress: " ++ hexLiteral address ++ ")"]

def clusterAccessors (subject : Subject) (addressOffset : Int) (expansion : Expansion) :
    Except AddressOverflow (List String) :=
  expansion.mapReplicas fun replica => do
    let offset ← checkedSum [addressOffset, replica.offset]
    return subject.documented
      ["@RegisterBlock(offset: " ++ hexLiteral offset ++ ")",
        subject.modifiers ++ "var " ++ subject.propertyName replica ++ ": " ++
          identifier subject.typeName]

/--
The member for a register.  A dimensioned register is one array, whose last
element must still have an address; an empty array is not declared.
-/
def registerAccessors (subject : Subject) (addressOffset : Int) (expansion : Expansion) :
    Except AddressOverflow (List String) :=
  let property := subject.modifiers ++ "var " ++
    identifier (instanceName subject.typeName) ++ ": "
  match expansion.count with
  | none =>
      .ok [subject.documented
        ["@RegisterBlock(offset: " ++ hexLiteral addressOffset ++ ")",
          property ++ "Register<" ++ identifier subject.typeName ++ ">"]]
  | some count =>
      if count = 0 then .ok []
      else do
        let _ ← checkedSum [addressOffset, (count - 1) * expansion.stride]
        return [subject.documented
          ["@RegisterBlock(offset: " ++ hexLiteral addressOffset ++ ", stride: " ++
              hexLiteral expansion.stride ++ ", count: " ++ toString count ++ ")",
            property ++ "RegisterArray<" ++ identifier subject.typeName ++ ">"]]

/-- The members for a field, one for each replica, with a half-open range of bits. -/
def fieldAccessors (subject : Subject) (bits : BitRange) (access : String)
    (expansion : Expansion) : Except AddressOverflow (List String) :=
  expansion.mapReplicas fun replica => do
    let bits := bits.shifted replica.offset
    let upper ← checkedSum [bits.msb, 1]
    let typeName := subject.typeName ++ replica.suffix
    return subject.documented
      ["@" ++ access ++ "(bits: " ++ toString bits.lsb ++ "..<" ++ toString upper ++ ")",
        subject.modifiers ++ "var " ++ identifier (instanceName typeName) ++ ": " ++
          identifier typeName]

end Subject

end RegisterMap.Swift
