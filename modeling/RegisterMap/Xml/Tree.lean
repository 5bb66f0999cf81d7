/-!
# Element trees

A document as the tree of its elements.  An element keeps its name with the
namespace, its attributes, the line on which its start tag ends, and its
children.  Comments leave no trace; a processing instruction keeps its place.
-/

namespace RegisterMap.Xml

structure Name where
  uri : Option String := none
  localName : String
  deriving DecidableEq, Repr

namespace Name

def text (name : Name) : String :=
  match name.uri with
  | none => name.localName
  | some uri => "\x7b" ++ uri ++ "\x7d" ++ name.localName

end Name

structure Attribute where
  name : Name
  value : String
  deriving DecidableEq, Repr

mutual

inductive Node where
  | text (content : String)
  | instruction
  | element (e : Element)

/-- An element and everything in it. -/
inductive Element where
  | mk (name : Name) (attributes : List Attribute) (line : Nat) (children : List Node)

end

namespace Element

def name : Element → Name
  | mk name _ _ _ => name

def attributes : Element → List Attribute
  | mk _ attributes _ _ => attributes

/-- The line on which the start tag ends. -/
def line : Element → Nat
  | mk _ _ line _ => line

def children : Element → List Node
  | mk _ _ _ children => children

/-- True of an element that has a tag and is in no namespace. -/
def hasTag (e : Element) (tag : String) : Bool :=
  e.name == ⟨none, tag⟩

def attribute? (e : Element) (name : String) : Option String :=
  (e.attributes.find? (·.name == ⟨none, name⟩)).map (·.value)

end Element

namespace Node

def isText : Node → Bool
  | text _ => true
  | _ => false

def text? : Node → Option String
  | text content => some content
  | _ => none

def element? : Node → Option Element
  | element e => some e
  | _ => none

end Node

namespace Element

/-- The text before the first child that is no text, if there is any. -/
def text? (e : Element) : Option String :=
  match e.children.takeWhile Node.isText with
  | [] => none
  | texts => some (String.join (texts.filterMap Node.text?))

def elements (e : Element) : List Element :=
  e.children.filterMap Node.element?

def child? (e : Element) (tag : String) : Option Element :=
  e.elements.find? (·.hasTag tag)

end Element

end RegisterMap.Xml
