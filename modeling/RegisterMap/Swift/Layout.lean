import RegisterMap.Text.Blank
import RegisterMap.Text.Line

/-!
# Layout of source text

A writer gathers the text of one source unit.  The indentation goes in front of
every line that is not blank; only a line feed makes the text after it a new
line.  A unit is finished when every deeper level has been left again.
-/

namespace RegisterMap.Swift

open RegisterMap.Text

structure SourceUnit where
  name : String
  text : String
  deriving DecidableEq, Repr

/-- The text of a unit so far. -/
structure Writer where
  indentation : String := "  "
  /-- Text that no unit holds yet. -/
  pending : String := ""
  depth : Nat := 0
  atLineStart : Bool := true
  deriving DecidableEq, Repr

inductive LayoutStep where
  | append (text : String)
  | indent
  | outdent
  | flush (unitName : String)
  deriving DecidableEq, Repr

inductive LayoutError where
  | unmatchedOutdent
  | unbalanced (depth : Nat) (unitName : String)
  deriving DecidableEq, Repr

namespace LayoutError

def message : LayoutError → String
  | unmatchedOutdent => "outdent() without a matching indent()"
  | unbalanced depth unitName =>
      "Unbalanced indentation (depth " ++ toString depth ++ ") when flushing " ++ unitName

end LayoutError

namespace Writer

def margin (w : Writer) : String :=
  String.join (List.replicate w.depth w.indentation)

/-- Add one line, with the separator that ends it if there is one. -/
def appendLine (w : Writer) (line : List Char) : Writer :=
  let margin := if w.atLineStart && !line.all isBlank then w.margin else ""
  { w with
    pending := w.pending ++ margin ++ String.ofList line
    atLineStart := line.getLast? == some '\n' }

def append (w : Writer) (text : String) : Writer :=
  (linesWithEnds text.toList).foldl appendLine w

theorem depth_appendLine (w : Writer) (line : List Char) : (w.appendLine line).depth = w.depth :=
  rfl

theorem depth_append (w : Writer) (text : String) : (w.append text).depth = w.depth := by
  unfold append
  generalize linesWithEnds text.toList = lines
  induction lines generalizing w with
  | nil => rfl
  | cons line lines ih =>
      rw [List.foldl_cons, ih]
      exact depth_appendLine w line

def indent (w : Writer) : Writer :=
  { w with depth := w.depth + 1 }

def outdent (w : Writer) : Except LayoutError Writer :=
  match w.depth with
  | 0 => .error .unmatchedOutdent
  | depth + 1 => .ok { w with depth := depth }

def flush (w : Writer) (unitName : String) : Except LayoutError (SourceUnit × Writer) :=
  if w.depth = 0 then
    .ok (⟨unitName, w.pending⟩, { w with pending := "", atLineStart := true })
  else .error (.unbalanced w.depth unitName)

def step (w : Writer) : LayoutStep → Except LayoutError (Option SourceUnit × Writer)
  | .append text => .ok (none, w.append text)
  | .indent => .ok (none, w.indent)
  | .outdent => do
      let w ← w.outdent
      return (none, w)
  | .flush unitName => do
      let (unit, w) ← w.flush unitName
      return (some unit, w)

/-- Take steps up to the first that is refused, and collect the units they finish. -/
def run (w : Writer) : List LayoutStep → Except LayoutError (List SourceUnit × Writer)
  | [] => return ([], w)
  | s :: steps => do
      let (unit?, w) ← w.step s
      let (units, w) ← w.run steps
      return (unit?.toList ++ units, w)

end Writer

/-! ## Collected units -/

/-- Units by name, in the order in which the names were first used. -/
structure UnitStore where
  units : List SourceUnit := []
  deriving DecidableEq, Repr

namespace UnitStore

def replace (unit : SourceUnit) : List SourceUnit → Option (List SourceUnit)
  | [] => none
  | u :: us =>
      if u.name = unit.name then some (unit :: us) else (replace unit us).map (u :: ·)

/-- Store a unit, in the place of an earlier one of its name or else at the end. -/
def put (store : UnitStore) (unit : SourceUnit) : UnitStore :=
  ⟨(replace unit store.units).getD (store.units ++ [unit])⟩

def ofUnits (units : List SourceUnit) : UnitStore :=
  units.foldl put {}

end UnitStore

/-! ## Writing on -/

structure LayoutState where
  writer : Writer := {}
  store : UnitStore := {}
  deriving DecidableEq, Repr

namespace LayoutState

def take (state : LayoutState) (s : LayoutStep) : Except LayoutError LayoutState := do
  let (unit?, writer) ← state.writer.step s
  return ⟨writer, unit?.elim state.store state.store.put⟩

/-- What comes after a step.  A step that is refused changes nothing. -/
def after (state : LayoutState) (s : LayoutStep) : LayoutState :=
  (state.take s).toOption.getD state

/-- What comes after some steps, refused or not. -/
def afterAll (state : LayoutState) (steps : List LayoutStep) : LayoutState :=
  steps.foldl after state

end LayoutState

/-! ## Blocks -/

/-- Source text with its block structure. -/
inductive Code where
  /-- Lines at the present depth, to be ended by a line feed. -/
  | lines (text : String)
  /-- A heading that ends in an opening brace, and what stands in the braces. -/
  | block (heading : String) (body : List Code)

namespace Code

mutual

def steps : Code → List LayoutStep
  | lines text => [.append (text ++ "\n")]
  | block heading body =>
      .append (heading ++ "\n") :: .indent :: (stepsOfAll body ++ [.outdent, .append "\x7d\n"])

def stepsOfAll : List Code → List LayoutStep
  | [] => []
  | code :: codes => code.steps ++ stepsOfAll codes

end

def blankLine : Code := lines ""

/-- Pieces of code with an empty line between any two. -/
def spaced (pieces : List (List Code)) : List Code :=
  List.intercalate [blankLine] pieces

def declarations (texts : List String) : List Code :=
  spaced (texts.map fun text => [lines text])

def toUnit (indentation unitName : String) (codes : List Code) :
    Except LayoutError (List SourceUnit) := do
  let (units, _) ← Writer.run { indentation } (stepsOfAll codes ++ [.flush unitName])
  return units

end Code

end RegisterMap.Swift
