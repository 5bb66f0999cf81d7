import RegisterMap.Text.Literal
import RegisterMap.Xml.Tree

/-!
# Locations

Where an element stands in a document: the line on which its start tag ends, and
the chain of the elements from it out to the root.  Each element of the chain
shows its tag, its place among the children of its parent, and, if it is a named
element, its name and the element that it derives from as they are written.
-/

namespace RegisterMap.Description

open RegisterMap.Text RegisterMap.Xml

structure Identity where
  name : Option String
  derivedFrom : Option String
  deriving DecidableEq, Repr

namespace Identity

def ofElement (e : Element) : Identity where
  name := (e.child? "name").bind (·.text?)
  derivedFrom := e.attribute? "derivedFrom"

def literal (identity : Identity) : Literal :=
  .record (("name", .ofText? identity.name) ::
    (identity.derivedFrom.map fun base => ("derived_from", Literal.text base)).toList)

end Identity

structure Link where
  tag : String
  /-- Place among the elements and instructions of the parent; the root has none. -/
  index : Option Nat := none
  identity : Option Identity := none
  deriving DecidableEq, Repr

namespace Link

def namedTags : List String := ["device", "peripheral", "cluster", "register", "field"]

def ofElement (index : Option Nat) (e : Element) : Link where
  tag := e.name.text
  index := index
  identity := if namedTags.any e.hasTag then some (.ofElement e) else none

def text (link : Link) : String :=
  let index := match link.index with
    | none => ""
    | some i => "(" ++ toString i ++ ")"
  let identity := match link.identity with
    | none => ""
    | some identity => " " ++ identity.literal.render
  "[" ++ link.tag ++ index ++ identity ++ "]"

end Link

/-- The place of an element: its line, and its chain from the inside out. -/
structure Location where
  line : Nat
  chain : List Link
  deriving DecidableEq, Repr

namespace Location

def chainText (chain : List Link) : String :=
  String.intercalate " in " (chain.map Link.text)

def text (location : Location) : String :=
  "line " ++ toString location.line ++ ": " ++ chainText location.chain

end Location

/-! ## Elements with their chains -/

/-- An element and the chain from it out to the root. -/
structure Located where
  element : Element
  chain : List Link

namespace Located

def root (e : Element) : Located := ⟨e, [.ofElement none e]⟩

def location (l : Located) : Location := ⟨l.element.line, l.chain⟩

/-- The child elements of a list of nodes, which start at some place below a chain. -/
def childrenFrom (chain : List Link) : Nat → List Node → List Located
  | _, [] => []
  | i, .text _ :: nodes => childrenFrom chain i nodes
  | i, .instruction :: nodes => childrenFrom chain (i + 1) nodes
  | i, .element e :: nodes =>
      ⟨e, .ofElement (some i) e :: chain⟩ :: childrenFrom chain (i + 1) nodes

def children (l : Located) : List Located :=
  childrenFrom l.chain 0 l.element.children

def childrenNamed (l : Located) (tag : String) : List Located :=
  l.children.filter (·.element.hasTag tag)

def child? (l : Located) (tag : String) : Option Located :=
  (l.childrenNamed tag).head?

end Located

end RegisterMap.Description
