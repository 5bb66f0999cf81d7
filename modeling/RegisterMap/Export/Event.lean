import RegisterMap.Number.Hex
import RegisterMap.Report.Log
import RegisterMap.Report.Trace
import RegisterMap.Swift.Layout

/-!
# Events of an export

What happens while a device is decoded and exported.  The units that were
finished are events too, so the events of a run tell all that it did.
-/

namespace RegisterMap.Export

open RegisterMap.Number RegisterMap.Report RegisterMap.Swift

inductive Event where
  | decoded (source : String) (peripheralCount : Nat)
  /-- A peripheral is an alias of one that is not exported. -/
  | baseNotExported (name base : String)
  /-- A register is left out because its size is unknown. -/
  | unknownSize (typeName : String)
  /-- An element is left out because the distance of its replicas is unknown. -/
  | unknownStride (name : String)
  | register (typeName : String) (address : Int)
  | reservedField (typeName : String)
  | wrote (unit : SourceUnit)
  deriving DecidableEq, Repr

namespace Event

def level : Event → Level
  | baseNotExported .. | unknownSize .. | unknownStride .. => .warning
  | decoded .. | register .. | reservedField .. | wrote .. => .debug

def message : Event → String
  | decoded source count =>
      "Decoded " ++ source ++ ": " ++ toString count ++ " peripherals"
  | baseNotExported name base =>
      name ++ " is exported as an alias of " ++ base ++ ", which is not exported"
  | unknownSize typeName => "skipped exporting " ++ typeName ++ ": unknown register size"
  | unknownStride name => "skipped exporting " ++ name ++ ": unknown stride"
  | register typeName address => "Register " ++ typeName ++ " at " ++ hexLiteral address
  | reservedField typeName =>
      typeName ++ " has no defined access, exported as reserved"
  | wrote unit =>
      "Wrote " ++ unit.name ++ " (" ++ toString unit.text.length ++ " characters)"

def entry (event : Event) : LogEntry := ⟨event.level, event.message⟩

def unit? : Event → Option SourceUnit
  | wrote unit => some unit
  | _ => none

end Event

/-- The units finished by some events, in the order in which they were finished. -/
def writtenUnits (events : List Event) : List SourceUnit :=
  events.filterMap Event.unit?

def logOf (events : List Event) : List LogEntry :=
  events.map Event.entry

end RegisterMap.Export
