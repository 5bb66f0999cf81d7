import RegisterMap.Model.Choice

/-!
# Export options

How the generated source is laid out, which part of a device it covers, and how
visible its declarations are.
-/

namespace RegisterMap.Export

open RegisterMap.Model RegisterMap.Text

inductive AccessLevel where
  | publicAccess
  | packageAccess
  | internalAccess
  | fileprivateAccess
  | privateAccess
  deriving DecidableEq, Repr

namespace AccessLevel

def all : List AccessLevel :=
  [publicAccess, packageAccess, internalAccess, fileprivateAccess, privateAccess]

def word : AccessLevel → String
  | publicAccess => "public"
  | packageAccess => "package"
  | internalAccess => "internal"
  | fileprivateAccess => "fileprivate"
  | privateAccess => "private"

/-- The access level with a Swift word.  The case of the word counts. -/
def ofWord? (s : String) : Option AccessLevel :=
  all.find? fun level => level.word == s

def ofLiteral (value : Literal) : Except InvalidChoice AccessLevel :=
  chooseWord "AccessLevel" ofWord? value

end AccessLevel

structure Options where
  indentation : String := "  "
  /-- Visibility of every declaration, if it is to be written. -/
  accessLevel : Option AccessLevel := none
  /-- Names of the peripherals to export; none stands for all of them. -/
  selectedPeripherals : List String := []
  /-- Declare the peripheral instances in a block named after the device. -/
  namespaceUnderDevice : Bool := false
  /-- Make the instances in that block members of its values, not of the block itself. -/
  instanceMemberPeripherals : Bool := false
  /-- Name for the device in place of its own; an empty one does not count. -/
  deviceName : Option String := none
  validateDerivations : Bool := true
  deriving DecidableEq, Repr

namespace Options

def modifiers (options : Options) : String :=
  match options.accessLevel with
  | none => ""
  | some level => level.word ++ " "

def instanceModifiers (options : Options) : String :=
  if options.namespaceUnderDevice && !options.instanceMemberPeripherals then
    options.modifiers ++ "static "
  else options.modifiers

end Options

end RegisterMap.Export
