import RegisterMap.Xml.Reference

/-!
# Document types

What the declarations at the start of a document say: the texts of entities, the
kind of content of elements, and the attributes that elements have by default.
Declarations outside the document are not read.
-/

namespace RegisterMap.Xml

/-- Something noticed about a document that is not a fault by itself. -/
inductive Remark where
  | warning
  | objection
  deriving DecidableEq, Repr

inductive EntityValue where
  | internal (text : List Char)
  /-- A text outside the document. -/
  | external
  deriving DecidableEq, Repr

inductive ContentKind where
  /-- Only elements; white space between them means nothing. -/
  | elements
  | mixed
  deriving DecidableEq, Repr

structure AttributeDeclaration where
  element : List Char
  name : List Char
  /-- True if the white space of the value counts. -/
  isText : Bool
  /-- The value of an attribute that a start tag leaves out, with its references. -/
  default? : Option (List Char)
  deriving DecidableEq, Repr

structure Doctype where
  hasExternalSubset : Bool := false
  hasParameterReference : Bool := false
  entities : List (List Char × EntityValue) := []
  parameters : List (List Char × EntityValue) := []
  contents : List (List Char × ContentKind) := []
  attributes : List AttributeDeclaration := []
  remarks : List Remark := []

namespace Doctype

def entity? (doctype : Doctype) (name : List Char) : Option EntityValue :=
  doctype.entities.lookup name

def content? (doctype : Doctype) (name : List Char) : Option ContentKind :=
  doctype.contents.lookup name

def attributesOf (doctype : Doctype) (element : List Char) : List AttributeDeclaration :=
  doctype.attributes.filter (·.element = element)

/-- Add a binding behind those that are there, so that the first of a name stands. -/
def declare (bindings : List (List Char × α)) (name : List Char) (value : α) :
    List (List Char × α) :=
  bindings ++ [(name, value)]

/-- Add an attribute unless the element has one of the name. -/
def declareAttribute (doctype : Doctype) (a : AttributeDeclaration) : Doctype :=
  if doctype.attributes.any fun b => b.element = a.element ∧ b.name = a.name then doctype
  else { doctype with attributes := doctype.attributes ++ [a] }

def remark (doctype : Doctype) (r : Remark) : Doctype :=
  { doctype with remarks := doctype.remarks ++ [r] }

/-- Objections to the colons of a name that should have none. -/
def remarkColons (doctype : Doctype) (name : List Char) : Doctype :=
  if name.contains ':' then doctype.remark .objection else doctype

end Doctype

namespace Scan

/-- Pass the first of some words that comes next. -/
def acceptOneOf : List String → Scan Bool
  | [] => return false
  | word :: words => do
      if ← accept word then return true else acceptOneOf words

/-! ## Comments and processing instructions -/

def comment : Scan Unit := do
  let _ ← takeThrough "--"
  expect ">"

/-- Targets that may start like the declaration of a document. -/
def knownTargets : List String := ["xml-stylesheet", "xml-model"]

def targetRemarks (target : List Char) : Except Fault (List Remark) :=
  let colons := if target.contains ':' then [Remark.objection] else []
  if (target.take 3).map Char.toLower = ['x', 'm', 'l'] then
    if target.length = 3 then .error .grammar
    else if String.ofList target ∈ knownTargets then .ok colons
    else .ok (.warning :: colons)
  else .ok colons

def instruction : Scan (List Remark) := do
  let target ← name
  let remarks ← targetRemarks target
  unless ← accept "?>" do
    requireSpace
    let _ ← takeThrough "?>"
  return remarks

/-! ## External names -/

def isPublicChar (c : Char) : Bool :=
  c.isAlphanum || c == ' ' || c == '\r' || c == '\n' || "-'()+,./:=?;!*#@$_%".contains c

def publicLiteral : Scan Unit := do
  unless (← quotedText).all isPublicChar do fail .grammar

/-- Pass the name of a text outside the document, and tell whether there was one. -/
def externalName : Scan Bool := do
  if ← accept "SYSTEM" then
    requireSpace
    let _ ← quotedText
    return true
  else if ← accept "PUBLIC" then
    requireSpace
    publicLiteral
    requireSpace
    let _ ← quotedText
    return true
  else return false

/-! ## Declarations -/

/-- The text of an entity: numbers are replaced, other references are kept. -/
def entityText (raw : List Char) : Except Fault (List Char) := do
  let pieces ← Piece.ofText (normalizeLines raw)
  let texts ← pieces.mapM fun
    | .char c => if c = '%' then .error .reference else .ok [c]
    | .number c => .ok [c]
    | .entity name => .ok ('&' :: name ++ [';'])
  return texts.flatten

def entityDeclaration (doctype : Doctype) : Scan Doctype := do
  requireSpace
  let isParameter ← accept "%"
  if isParameter then requireSpace
  let name ← name
  let doctype := doctype.remarkColons name
  requireSpace
  let value ←
    if ← externalName then
      let spaced ← space
      if !isParameter && (← isNext "NDATA") then
        unless spaced do fail .grammar
        expect "NDATA"
        requireSpace
        let _ ← Scan.name
      pure EntityValue.external
    else pure (.internal (← entityText (← quotedText)))
  let _ ← space
  expect ">"
  return if isParameter then
    { doctype with parameters := Doctype.declare doctype.parameters name value }
  else { doctype with entities := Doctype.declare doctype.entities name value }

def occurrence : Scan Unit := do
  let _ ← acceptOneOf ["?", "*", "+"]

/-- Pass the names and the end of mixed content, and tell whether there were names. -/
def mixedNames : Scan Bool := do
  let names ← many do
    let _ ← space
    if ← accept "|" then
      let _ ← space
      return some (← name)
    else return none
  let _ ← space
  expect ")"
  return !names.isEmpty

/-- Pass what follows the opening parenthesis of a group of elements. -/
def elementGroup : Nat → Scan Unit
  | 0 => fail .limit
  | depth + 1 => do
      let particle : Scan Unit := do
        let _ ← space
        if ← accept "(" then elementGroup depth
        else
          let _ ← name
          occurrence
        let _ ← space
      particle
      let separator := if ← isNext "," then "," else "|"
      let _ ← many do
        if ← accept separator then
          particle
          return some ()
        else return none
      expect ")"
      occurrence

def groupDepth : Nat := 128

/-- Pass what an element may hold, and tell its kind.  Nothing at all has no kind. -/
def contentModel : Scan (Option ContentKind) := do
  if ← accept "EMPTY" then return none
  if ← accept "ANY" then return some .mixed
  expect "("
  let _ ← space
  if ← accept "#PCDATA" then
    if ← mixedNames then expect "*" else
      let _ ← accept "*"
    return some .mixed
  else
    elementGroup groupDepth
    return some .elements

def elementDeclaration (doctype : Doctype) : Scan Doctype := do
  requireSpace
  let name ← name
  requireSpace
  let kind? ← contentModel
  let _ ← space
  expect ">"
  match kind? with
  | none => return doctype
  | some kind => return { doctype with contents := Doctype.declare doctype.contents name kind }

/-- Pass words between bars and a closing parenthesis. -/
def wordChoice (word : Scan (List Char)) : Scan Unit := do
  let _ ← space
  let _ ← word
  let _ ← space
  let _ ← many do
    if ← accept "|" then
      let _ ← space
      let _ ← word
      let _ ← space
      return some ()
    else return none
  expect ")"

def nameToken : Scan (List Char) := do
  let taken ← takeWhile isNameChar
  if taken.isEmpty then fail .grammar else return taken

/-- Types of attributes that stand for one or more names, the longer words first. -/
def nameTypes : List String :=
  ["IDREFS", "IDREF", "ID", "ENTITIES", "ENTITY", "NMTOKENS", "NMTOKEN"]

/-- Pass the type of an attribute, and tell whether the white space of its values counts. -/
def attributeType : Scan Bool := do
  if ← accept "CDATA" then return true
  if ← accept "NOTATION" then
    requireSpace
    expect "("
    wordChoice name
  else if ← accept "(" then wordChoice nameToken
  else unless ← acceptOneOf nameTypes do fail .grammar
  return false

def attributeDefault : Scan (Option (List Char)) := do
  if ← acceptOneOf ["#REQUIRED", "#IMPLIED"] then return none
  if ← accept "#FIXED" then requireSpace
  let value ← quotedText
  if value.contains '<' then fail .grammar else return some value

def attributeDeclarations (doctype : Doctype) : Scan Doctype := do
  requireSpace
  let element ← name
  let declared ← many do
    let spaced ← space
    if ← accept ">" then return none
    unless spaced do fail .grammar
    let name ← name
    requireSpace
    let isText ← attributeType
    requireSpace
    let default? ← attributeDefault
    return some (AttributeDeclaration.mk element name isText default?)
  return declared.foldl Doctype.declareAttribute doctype

def notationDeclaration (doctype : Doctype) : Scan Doctype := do
  requireSpace
  let name ← name
  requireSpace
  if ← accept "PUBLIC" then
    requireSpace
    publicLiteral
    let spaced ← space
    let next? ← peek?
    if next? = some '"' || next? = some '\x27' then
      unless spaced do fail .grammar
      let _ ← quotedText
  else unless ← externalName do fail .grammar
  let _ ← space
  expect ">"
  return doctype.remarkColons name

/-- Pass a declaration, a comment or an instruction. -/
def markupDeclaration (doctype : Doctype) : Scan Doctype := do
  if ← accept "<!ENTITY" then entityDeclaration doctype
  else if ← accept "<!ELEMENT" then elementDeclaration doctype
  else if ← accept "<!ATTLIST" then attributeDeclarations doctype
  else if ← accept "<!NOTATION" then notationDeclaration doctype
  else if ← accept "<!--" then
    comment
    return doctype
  else
    expect "<?"
    let remarks ← instruction
    return { doctype with remarks := doctype.remarks ++ remarks }

/--
Pass declarations to the end of a text or to a closing bracket.  The first
argument bounds the nesting of parameter entities, the second the number of
declarations.
-/
def declarations (standalone : Bool) : Nat → Nat → Doctype → Scan Doctype
  | _, 0, _ => fail .limit
  | depth, times + 1, doctype => do
      let _ ← space
      match ← peek? with
      | none => return doctype
      | some ']' => return doctype
      | some '%' =>
          expect "%"
          let name ← name
          expect ";"
          let doctype := { doctype with hasParameterReference := true }
          match doctype.parameters.lookup name with
          | none =>
              if standalone then fail .reference
              else declarations standalone depth times (doctype.remark .warning)
          | some .external => declarations standalone depth times doctype
          | some (.internal text) =>
              match depth with
              | 0 => fail .limit
              | inner + 1 =>
                  let next ←
                    runAll (declarations standalone inner (text.length + 1) doctype) text
                  declarations standalone (inner + 1) times next
      | some _ => declarations standalone depth times (← markupDeclaration doctype)
termination_by depth times => (depth, times)

def entityDepth : Nat := 20

def doctype (standalone : Bool) : Scan Doctype := do
  requireSpace
  let _ ← name
  let _ ← space
  let doctype : Doctype := { hasExternalSubset := ← externalName }
  let _ ← space
  let doctype ←
    if ← accept "[" then
      let doctype ← declarations standalone entityDepth ((← get).size + 1) doctype
      expect "]"
      let _ ← space
      pure doctype
    else pure doctype
  expect ">"
  return doctype

end Scan

end RegisterMap.Xml
