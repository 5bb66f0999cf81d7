import RegisterMap.Export.Options
import RegisterMap.Text.Fill

/-!
# Settings

What can be said on the command line: flags, which stand for themselves, and
parameters, which take a value.  Each has a long name, and some have a letter too.
-/

namespace RegisterMap.CommandLine

open RegisterMap.Export

/-- A setting without a value. -/
inductive Flag where
  | help
  | verbose
  | noValidateDerivations
  | indentTabs
  | namespaceUnderDevice
  | instanceMemberPeripherals
  deriving DecidableEq, Repr

/-- A setting with a value. -/
inductive Parameter where
  | input
  | peripheral
  | output
  | indentWidth
  | accessLevel
  | deviceName
  deriving DecidableEq, Repr

/-- Something that can be said on the command line. -/
inductive Setting where
  | flag (f : Flag)
  | parameter (p : Parameter)
  deriving DecidableEq, Repr

/-! ## Names -/

def Flag.name : Flag → String
  | help => "help"
  | verbose => "verbose"
  | noValidateDerivations => "no-validate-derivations"
  | indentTabs => "indent-tabs"
  | namespaceUnderDevice => "namespace-under-device"
  | instanceMemberPeripherals => "instance-member-peripherals"

def Flag.letter? : Flag → Option Char
  | help => some 'h'
  | verbose => some 'v'
  | _ => none

def Parameter.name : Parameter → String
  | input => "input"
  | peripheral => "peripheral"
  | output => "output"
  | indentWidth => "indent-width"
  | accessLevel => "access-level"
  | deviceName => "device-name"

def Parameter.letter? : Parameter → Option Char
  | input => some 'i'
  | peripheral => some 'p'
  | output => some 'o'
  | _ => none

/-- What stands for the value of a parameter in a help text. -/
def Parameter.placeholder : Parameter → String
  | input => "INPUT"
  | peripheral => "NAME"
  | output => "OUTPUT"
  | indentWidth => "N"
  | accessLevel => "\x7b" ++ ",".intercalate (AccessLevel.all.map (·.word)) ++ "\x7d"
  | deviceName => "DEVICE_NAME"

namespace Setting

def all : List Setting :=
  [.flag .help, .flag .verbose, .parameter .input, .flag .noValidateDerivations,
    .parameter .peripheral, .parameter .output, .parameter .indentWidth, .flag .indentTabs,
    .parameter .accessLevel, .flag .namespaceUnderDevice, .flag .instanceMemberPeripherals,
    .parameter .deviceName]

def name : Setting → String
  | flag f => f.name
  | parameter p => p.name

def letter? : Setting → Option Char
  | flag f => f.letter?
  | parameter p => p.letter?

def ofName? (s : String) : Option Setting :=
  all.find? fun setting => setting.name == s

def ofLetter? (c : Char) : Option Setting :=
  all.find? fun setting => setting.letter? == some c

/-- The ways to write a setting, the shortest first. -/
def spellings (s : Setting) : List String :=
  (s.letter?.map fun c => String.ofList ['-', c]).toList ++ ["--" ++ s.name]

/-- What messages call a setting. -/
def label (s : Setting) : String :=
  "/".intercalate s.spellings

def withPlaceholder (s : Setting) (spelling : String) : String :=
  match s with
  | flag _ => spelling
  | parameter p => spelling ++ " " ++ p.placeholder

end Setting

end RegisterMap.CommandLine
