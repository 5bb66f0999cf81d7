import RegisterMap.Xml.Scope
import RegisterMap.Xml.Token

/-!
# Frames

The element that is being read.  White space that only sets elements apart is
dropped while its children are gathered.
-/

namespace RegisterMap.Xml

/-- What is known about the white space of an element. -/
inductive Spacing where
  | undecided
  | textual
  /-- An attribute leaves it to the reader. -/
  | default
  | preserved
  deriving DecidableEq, Repr

/-- An element whose end tag has not come yet, or the outermost content. -/
structure Frame where
  tag : List Char := []
  name : Name := ⟨none, ""⟩
  attributes : List Attribute := []
  line : Nat := 1
  scope : Scope := Scope.initial
  spacing : Spacing := .undecided
  content? : Option ContentKind := none
  /-- The children so far, the last one first. -/
  children : List Node := []

namespace Frame

def toElement (frame : Frame) : Element :=
  .mk frame.name frame.attributes frame.line frame.children.reverse

def push (frame : Frame) (child : Node) : Frame :=
  { frame with children := child :: frame.children }

/-- Add a text, which goes on with a text that is the last child. -/
def pushText (frame : Frame) (text : List Char) : Frame :=
  match frame.children with
  | .text before :: children =>
      { frame with children := .text (before ++ String.ofList text) :: children }
  | _ => frame.push (.text (String.ofList text))

def isTextual (frame : Frame) : Bool :=
  frame.children.head?.any Node.isText || frame.children.getLast?.any Node.isText

/-- True of a chunk of white space that stands between elements only. -/
def dropsChunk (frame : Frame) (text : List Char) (follow : Follow) : Bool :=
  text.all isSpace && frame.spacing != .preserved && frame.spacing != .textual &&
    match frame.content? with
    | some .elements => true
    | some .mixed => false
    | none =>
        match follow with
        | .other => false
        | .closing => !frame.children.isEmpty && !frame.isTextual
        | .opening | .lineEnd => !frame.isTextual

def takeChunk (frame : Frame) (text : List Char) (follow : Follow) : Frame :=
  if frame.dropsChunk text follow then frame
  else
    let frame := frame.pushText text
    if frame.spacing = .undecided then { frame with spacing := .textual } else frame

/-- What an element knows about its white space from the one around it. -/
def innerSpacing (frame : Frame) : Spacing :=
  if frame.spacing = .textual then .undecided else frame.spacing

end Frame

end RegisterMap.Xml
