import RegisterMap.CommandLine.Item
import RegisterMap.CommandLine.Path
import RegisterMap.Number.Scaled

/-!
# Requests

What the items of a command line ask for.  The items are taken in order, and the
first that cannot be met decides.
-/

namespace RegisterMap.CommandLine

open RegisterMap.Export RegisterMap.Number

/-- A device to read, and where and how to write its source. -/
structure Request where
  verbosity : Nat
  input : Path
  output : Path
  options : Options
  deriving DecidableEq, Repr

inductive Command where
  | help
  | generate (request : Request)
  deriving DecidableEq, Repr

def usualWidth : Int := 2

/-- What has been said so far. -/
structure Choices where
  verbosity : Nat := 0
  input : Option String := none
  output : Option String := none
  validateDerivations : Bool := true
  peripherals : List String := []
  indentWidth : Int := usualWidth
  /-- Some width other than the usual one was chosen, perhaps not the last one. -/
  isWidthChosen : Bool := false
  indentTabs : Bool := false
  accessLevel : Option AccessLevel := none
  namespaceUnderDevice : Bool := false
  instanceMemberPeripherals : Bool := false
  deviceName : Option String := none
  deriving DecidableEq, Repr

namespace Choices

/-- Take a width.  The usual one goes with tabs, any other does not. -/
def withWidth (c : Choices) (width : Int) : Except UsageError Choices :=
  if width = usualWidth then .ok { c with indentWidth := width }
  else if c.indentTabs then
    .error (.conflict (.parameter .indentWidth) (.flag .indentTabs))
  else .ok { c with indentWidth := width, isWidthChosen := true }

def withFlag (c : Choices) : Flag → Except UsageError Choices
  | .help => .ok c
  | .verbose => .ok { c with verbosity := c.verbosity + 1 }
  | .noValidateDerivations => .ok { c with validateDerivations := false }
  | .indentTabs =>
      if c.isWidthChosen then
        .error (.conflict (.flag .indentTabs) (.parameter .indentWidth))
      else .ok { c with indentTabs := true }
  | .namespaceUnderDevice => .ok { c with namespaceUnderDevice := true }
  | .instanceMemberPeripherals => .ok { c with instanceMemberPeripherals := true }

/-- Take a parameter.  The last value counts, but every peripheral is kept. -/
def withParameter (c : Choices) (p : Parameter) (value : String) : Except UsageError Choices :=
  match p with
  | .input => .ok { c with input := some value }
  | .output => .ok { c with output := some value }
  | .peripheral => .ok { c with peripherals := c.peripherals ++ [value] }
  | .indentWidth =>
      match Numeral.read .decimal value.toList with
      | .ok width => c.withWidth width
      | .error _ => .error (.notANumber p value)
  | .accessLevel =>
      match AccessLevel.ofWord? value with
      | some level => .ok { c with accessLevel := some level }
      | none => .error (.notAWord p value (AccessLevel.all.map (·.word)))
  | .deviceName => .ok { c with deviceName := some value }

def indentation (c : Choices) : String :=
  if c.indentTabs then "\t" else String.ofList (List.replicate c.indentWidth.toNat ' ')

def options (c : Choices) : Options where
  indentation := c.indentation
  accessLevel := c.accessLevel
  selectedPeripherals := c.peripherals
  namespaceUnderDevice := c.namespaceUnderDevice
  instanceMemberPeripherals := c.instanceMemberPeripherals
  deviceName := c.deviceName
  validateDerivations := c.validateDerivations

/-- The parameters that must be given and were not. -/
def missing (c : Choices) : List Parameter :=
  (if c.input.isNone then [.input] else []) ++ (if c.output.isNone then [.output] else [])

/-- The request of a whole command line, given its words that mean nothing. -/
def request (c : Choices) (strays : List String) : Except UsageError Request :=
  match c.input, c.output with
  | some input, some output =>
      if strays ≠ [] then .error (.unrecognized strays)
      else if c.indentWidth < 0 then .error .negativeWidth
      else .ok ⟨c.verbosity, .ofText input, .ofText output, c.options⟩
  | _, _ => .error (.required c.missing)

end Choices

namespace Command

def ofItems (c : Choices) (strays : List String) : List Item → Except UsageError Command
  | [] => (c.request strays).map .generate
  | .fault e :: _ => .error e
  | .stray text :: items => ofItems c (strays ++ [text]) items
  | .flag .help :: _ => .ok .help
  | .flag f :: items => do ofItems (← c.withFlag f) strays items
  | .parameter p value :: items => do ofItems (← c.withParameter p value) strays items

def ofArguments (arguments : List String) : Except UsageError Command :=
  ofItems {} [] (itemsOf (Word.ofTexts arguments))

end Command

end RegisterMap.CommandLine
