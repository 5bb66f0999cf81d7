import RegisterMap.Xml.Doctype
import RegisterMap.Xml.Tree

/-!
# Namespaces in scope

A name may have a marker before a colon, which an attribute of the element or of
one around it binds to a namespace.  Bindings and names that break the rules of
namespaces are objected to, but do not end the reading of a document.
-/

namespace RegisterMap.Xml

def xmlUri : String := "http://www.w3.org/XML/1998/namespace"

def bindingUri : String := "http://www.w3.org/2000/xmlns/"

/-- A name cut at its colon. -/
structure ColonName where
  marker? : Option String
  localName : String
  /-- True if the colon stands between two names without colons. -/
  isRegular : Bool
  deriving DecidableEq, Repr

namespace ColonName

/-- The whole text of a name as its part without a marker. -/
def whole (name : List Char) (isRegular : Bool) : ColonName :=
  ⟨none, String.ofList name, isRegular⟩

def ofName (name : List Char) : ColonName :=
  match name.takeWhile (· != ':'), name.dropWhile (· != ':') with
  | _, [] => whole name true
  | [], _ => whole name false
  | marker, _ :: rest =>
      if !isName rest || rest.head? == some ':' then whole name false
      else ⟨some (String.ofList marker), String.ofList rest, !rest.contains ':'⟩

end ColonName

/-! ## Namespace names -/

def isUriChar (c : Char) : Bool :=
  c.isAlphanum || "-._~:/?#[]@!$&'()*+,;=%".contains c

/-- True if every percent sign comes before two hexadecimal digits. -/
def hasFullEscapes : List Char → Bool
  | [] => true
  | '%' :: a :: b :: cs =>
      (Piece.digit? 16 a).isSome && (Piece.digit? 16 b).isSome && hasFullEscapes cs
  | '%' :: _ => false
  | _ :: cs => hasFullEscapes cs

def uriScheme? (cs : List Char) : Option (List Char) :=
  match cs.takeWhile (fun c => c.isAlphanum || "+-.".contains c), cs.dropWhile
      (fun c => c.isAlphanum || "+-.".contains c) with
  | c :: scheme, ':' :: _ => if c.isAlpha then some (c :: scheme) else none
  | _, _ => none

/-- True of a text that identifies a resource, absolutely or not. -/
def isUri (uri : String) : Bool :=
  let cs := uri.toList
  let firstSegment := cs.takeWhile fun c => !"/?#".contains c
  cs.all isUriChar && hasFullEscapes cs && cs.count '#' ≤ 1 &&
    ((uriScheme? cs).isSome || !firstSegment.contains ':')

/-! ## Bindings -/

/-- Namespaces by their markers, the innermost first.  The default one has an empty marker. -/
abbrev Scope := List (String × String)

namespace Scope

def initial : Scope := [("xml", xmlUri)]

def uri? (scope : Scope) (marker : String) : Option String :=
  (scope.lookup marker).filter (· != "")

def checkDefault (uri : String) : List Remark × Bool :=
  if uri = xmlUri || uri = bindingUri then ([.objection], false)
  else if uri = "" then ([], true)
  else if !isUri uri then ([.objection], true)
  else if (uriScheme? uri.toList).isNone then ([.warning], true)
  else ([], true)

def checkMarker (marker uri : String) : List Remark × Bool :=
  if marker = "xml" then (if uri = xmlUri then [] else [.objection], false)
  else if uri = xmlUri || marker = "xmlns" || uri = bindingUri || uri = "" then
    ([.objection], false)
  else if !isUri uri then ([.objection], true)
  else ([], true)

/-- The marker that an attribute binds; the default namespace has an empty one. -/
def boundMarker? (name : ColonName) : Option String :=
  match name.marker? with
  | none => if name.localName = "xmlns" then some "" else none
  | some "xmlns" => some name.localName
  | some _ => none

/-- Take the bindings of the attributes of an element into a scope. -/
def bindAll (scope : Scope) : List (ColonName × String) → List Remark × Scope
  | [] => ([], scope)
  | (name, value) :: attributes =>
      match boundMarker? name with
      | none => bindAll scope attributes
      | some marker =>
          let (remarks, isBound) :=
            if marker = "" then checkDefault value else checkMarker marker value
          let scope := if isBound then (marker, value) :: scope else scope
          let (others, scope) := bindAll scope attributes
          (remarks ++ others, scope)

/-! ## Names -/

def colonRemarks (name : ColonName) : List Remark :=
  if name.isRegular then [] else [.objection]

/-- A name in a scope.  A marker that is not bound stays part of the name. -/
def resolve (scope : Scope) (default? : Option String) (name : ColonName) :
    List Remark × Name :=
  match name.marker? with
  | none => (colonRemarks name, ⟨default?, name.localName⟩)
  | some marker =>
      match scope.uri? marker with
      | some uri => (colonRemarks name, ⟨some uri, name.localName⟩)
      | none =>
          (colonRemarks name ++ [.objection], ⟨none, marker ++ ":" ++ name.localName⟩)

/-- The name of an element; without a marker it is in the default namespace. -/
def elementName (scope : Scope) (name : ColonName) : List Remark × Name :=
  resolve scope (scope.uri? "") name

/-- The attributes that bind nothing, with their names; without a marker they are in no namespace. -/
def attributesOf (scope : Scope) : List (ColonName × String) → List Remark × List Attribute
  | [] => ([], [])
  | (name, value) :: attributes =>
      let (others, rest) := attributesOf scope attributes
      match boundMarker? name with
      | some _ => (others, rest)
      | none =>
          let (remarks, name) := resolve scope none name
          (remarks ++ others, ⟨name, value⟩ :: rest)

def repeatRemarks : List Attribute → List Remark
  | [] => []
  | a :: attributes =>
      (if attributes.any fun b => b.name = a.name then [.objection] else []) ++
        repeatRemarks attributes

end Scope

end RegisterMap.Xml
