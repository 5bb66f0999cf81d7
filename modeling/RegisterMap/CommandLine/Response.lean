import RegisterMap.CommandLine.Help
import RegisterMap.CommandLine.Request
import RegisterMap.Description.Document
import RegisterMap.Export.Run

/-!
# Responses

What a run of the program does: the files that it writes, what it says and the
status with which it ends.  All of it follows from the command line, the directory
of the run and the contents of the input file.  A run that crashes says why in a
report of its runtime, which is no part of the log.
-/

namespace RegisterMap.CommandLine

open RegisterMap.Description RegisterMap.Export RegisterMap.Report RegisterMap.Swift
open RegisterMap.Text

structure File where
  path : Path
  contents : ByteArray

inductive Failure where
  | noSuchFile (path : Path)
  | document (e : DocumentError)
  | exporting (e : ExportError)
  deriving DecidableEq, Repr

namespace Failure

def message : Failure → String
  | noSuchFile path => "No such file: " ++ path.text
  | document e => e.message
  | exporting e => e.message

def entry (e : Failure) : LogEntry := ⟨.error, "error: " ++ e.message⟩

end Failure

/-- True of a text that can be encoded.  Strays stand in the arguments of a run for bytes
that are part of no character, and they have no bytes of their own. -/
def isEncodable (strays : List Char) (text : String) : Bool :=
  !text.toList.any strays.contains

/-- Units as they are found in their files.  The file of a unit that cannot be encoded is
made and stays empty, and nothing is written after it. -/
def delivered (strays : List Char) : List SourceUnit → List SourceUnit
  | [] => []
  | unit :: units =>
      if isEncodable strays unit.text then unit :: delivered strays units
      else [{ unit with text := "" }]

/-- True of an event that does not stop the run. -/
def isHarmless (strays : List Char) (event : Event) : Bool :=
  event.unit?.all fun unit => isEncodable strays unit.text

inductive Ending where
  | success
  | failure (e : Failure)
  /-- The text of a unit could not be encoded, which nothing in the program handles. -/
  | crash (unit : SourceUnit)
  deriving DecidableEq, Repr

namespace Ending

def of (unencodable? : Option SourceUnit) (outcome : Except Failure Unit) : Ending :=
  match unencodable?, outcome with
  | some unit, _ => crash unit
  | none, .error e => failure e
  | none, .ok () => success

def entries : Ending → List LogEntry
  | failure e => [e.entry]
  | _ => []

end Ending

/-- How a run ended and what it left behind. -/
structure Conclusion where
  /-- The files in the order in which they were written.  The last one at a path stays. -/
  files : List File
  log : List LogEntry
  ending : Ending

namespace Request

/-- Read and export the device, given the contents of the input file if there is one. -/
def run (request : Request) (directory : Path) (contents? : Option (List UInt8)) :
    Trace Failure Event Unit := do
  let bytes ← Trace.ofExcept (fun _ => .noSuchFile (directory.within request.input))
    (contents?.elim (.error ()) .ok)
  let device ← (readDevice request.input.text bytes).mapError .document
  (exportDevice request.options device).mapError .exporting

def fileOf (request : Request) (unit : SourceUnit) : File :=
  ⟨request.output.within (.ofText unit.name), unit.text.toUTF8⟩

def conclude (request : Request) (strays : List Char) (directory : Path)
    (contents? : Option (List UInt8)) : Conclusion :=
  let run := request.run directory contents?
  let units := writtenUnits run.events
  let ending := Ending.of (units.find? fun unit => !isEncodable strays unit.text) run.outcome
  { files := (delivered strays units).map request.fileOf
    log := shownFrom (Level.ofVerbosity request.verbosity)
      (logOf (run.events.takeWhile (isHarmless strays)) ++ ending.entries)
    ending := ending }

end Request

/-- What the program does with a command line. -/
inductive Response where
  | help
  | misuse (e : UsageError)
  | ran (conclusion : Conclusion)

def inputOf? : Except UsageError Command → Option Path
  | .ok (.generate request) => some request.input
  | _ => none

def respond (command : Except UsageError Command) (strays : List Char) (directory : Path)
    (contents? : Option (List UInt8)) : Response :=
  match command with
  | .error e => .misuse e
  | .ok .help => .help
  | .ok (.generate request) => .ran (request.conclude strays directory contents?)

namespace Response

def exitCode : Response → Nat
  | help => 0
  | misuse _ => 2
  | ran conclusion => if conclusion.ending = .success then 0 else 1

def outputText : Response → String
  | help => helpText
  | _ => ""

def usageText : Response → String
  | misuse e => textOfLines Help.usage ++ programName ++ ": error: " ++ e.message ++ "\n"
  | _ => ""

def log : Response → List LogEntry
  | ran conclusion => conclusion.log
  | _ => []

def files : Response → List File
  | ran conclusion => conclusion.files
  | _ => []

end Response

end RegisterMap.CommandLine
