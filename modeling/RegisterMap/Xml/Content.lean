import RegisterMap.Xml.Frame

/-!
# Content of elements

The nodes that the tokens of content stand for.  Tokens are taken one by one into
the innermost open element, and references to entities are replaced by the nodes
of their texts.
-/

namespace RegisterMap.Xml

/-! ## State of reading -/

/-- What is shared by all content of a document. -/
structure Reading where
  /-- Characters and references that replacement texts may still bring. -/
  allowance : Nat
  remarks : List Remark := []

abbrev Reader := StateT Reading (Except Fault)

namespace Reader

def fail (fault : Fault) : Reader α := throw fault

def remarkAll (remarks : List Remark) : Reader Unit :=
  modify fun reading => { reading with remarks := reading.remarks ++ remarks }

/-- The cost of a reference besides its text. -/
def referenceCost : Nat := 20

/-- Replace a reference by a text. -/
def spend (text : List Char) : Reader Unit := do
  let reading ← get
  let cost := text.length + referenceCost
  if reading.allowance < cost then fail .limit
  else set { reading with allowance := reading.allowance - cost }

/-- The text that replaces a reference, if the document can leave the entity undeclared. -/
def replacement? (standalone : Bool) (doctype : Doctype) (name : List Char) :
    Reader (Option (List Char)) := do
  match doctype.entity? name with
  | some (.internal text) =>
      spend text
      return some text
  | some .external => fail .reference
  | none =>
      if standalone || !(doctype.hasExternalSubset || doctype.hasParameterReference) then
        fail .reference
      else
        remarkAll [.objection]
        return none

/-! ## Attributes -/

/-- Replace the references in the value of an attribute, and white space by blanks. -/
def attributeValue (standalone : Bool) (doctype : Doctype) :
    Nat → List Char → Reader (List Char)
  | 0, _ => fail .limit
  | depth + 1, raw => do
      let pieces ← (Piece.ofText (normalizeLines raw) : Except Fault _)
      let texts ← pieces.mapM fun piece =>
        match piece with
        | .number c => return [c]
        | .char c =>
            if c = '<' then fail .grammar
            else return [if isSpace c then ' ' else c]
        | .entity name => do
            match Piece.predefined? name with
            | some c => return [c]
            | none =>
                match ← replacement? standalone doctype name with
                | none => return []
                | some text => attributeValue standalone doctype depth text
      return texts.flatten

/-- A value without blanks at its ends and with single blanks inside. -/
def collapseBlanks (value : List Char) : List Char :=
  let dropped := value.dropWhile (· == ' ')
  let rec collapse : List Char → List Char
    | ' ' :: ' ' :: cs => collapse (' ' :: cs)
    | [' '] => []
    | c :: cs => c :: collapse cs
    | [] => []
  collapse dropped

def hasRepeats : List (List Char) → Bool
  | [] => false
  | name :: names => names.contains name || hasRepeats names

/-- The attributes of an element with their values, those that it has by default included. -/
def attributeValues (standalone : Bool) (doctype : Doctype) (tag : List Char)
    (written : List (List Char × List Char)) : Reader (List (ColonName × String)) := do
  if hasRepeats (written.map (·.1)) then fail .naming
  let declared := doctype.attributesOf tag
  let defaults := declared.filterMap fun a =>
    if (written.map (·.1)).contains a.name then none
    else a.default?.map fun value => (a.name, value)
  (written ++ defaults).mapM fun (name, raw) => do
    let value ← attributeValue standalone doctype (Scan.entityDepth + 1) raw
    let isText := (declared.find? (·.name = name)).all (·.isText)
    return (ColonName.ofName name,
      String.ofList (if isText then value else collapseBlanks value))

def spacingOf (inherited : Spacing) (attributes : List Attribute) : List Remark × Spacing :=
  match attributes.find? (·.name == ⟨some xmlUri, "space"⟩) with
  | none => ([], inherited)
  | some a =>
      if a.value = "default" then ([], .default)
      else if a.value = "preserve" then ([], .preserved)
      else ([.warning], inherited)

/-! ## Elements -/

def openFrame (standalone : Bool) (doctype : Doctype) (outer : Frame) (tag : List Char)
    (written : List (List Char × List Char)) (line : Nat) : Reader Frame := do
  let values ← attributeValues standalone doctype tag written
  let (bindingRemarks, scope) := outer.scope.bindAll values
  let (attributeRemarks, attributes) := scope.attributesOf values
  let (spacingRemarks, spacing) := spacingOf outer.innerSpacing attributes
  let colonName := ColonName.ofName tag
  let (nameRemarks, name) := scope.elementName colonName
  remarkAll (spacingRemarks ++ bindingRemarks ++ attributeRemarks ++
    Scope.repeatRemarks attributes ++ nameRemarks)
  return {
    tag, name, attributes, line, scope, spacing
    content? := doctype.content? colonName.localName.toList }

/-- An element may have this many elements around it, but no more. -/
def elementDepth : Nat := 256

/-- The open elements, the innermost first, and how deep the outermost of them is. -/
structure Open where
  innermost : Frame
  outer : List Frame := []
  /-- The number of elements around all of them. -/
  base : Nat := 0
  /-- True if the outermost content is that of a document and not of an entity. -/
  isDocument : Bool

namespace Open

def depth (o : Open) : Nat := o.base + o.outer.length

def isOutside (o : Open) : Bool := o.isDocument && o.outer.isEmpty

end Open

/-- Take a token.  The first argument reads the content of an entity at a depth. -/
def takeToken (standalone : Bool) (doctype : Doctype)
    (entityNodes : Nat → List Char → Reader (List Node)) (o : Open) :
    Token → Reader Open
  | .startTag tag written isEmpty line => do
      if elementDepth < o.depth then fail .limit
      if o.isOutside && !(o.innermost.children.filterMap Node.element?).isEmpty then
        fail .grammar
      let frame ← openFrame standalone doctype o.innermost tag written line
      if isEmpty then
        return { o with innermost := o.innermost.push (.element frame.toElement) }
      else return { o with innermost := frame, outer := o.innermost :: o.outer }
  | .endTag tag =>
      match o.outer with
      | [] => fail .tags
      | next :: outer =>
          if o.innermost.tag = tag then
            return { o with
              innermost := next.push (.element o.innermost.toElement), outer := outer }
          else fail .tags
  | .chunk text follow =>
      if o.isOutside then
        if text.all isSpace then return o else fail .grammar
      else return { o with innermost := o.innermost.takeChunk text follow }
  | .data text =>
      if o.isOutside then fail .grammar
      else return { o with innermost := o.innermost.pushText text }
  | .reference name => do
      if o.isOutside then fail .grammar
      match ← replacement? standalone doctype name with
      | none => return o
      | some text =>
          let nodes ← entityNodes o.depth text
          let innermost := nodes.foldl (fun frame node =>
            match node with
            | .text content => frame.pushText content.toList
            | _ => frame.push node) o.innermost
          return { o with innermost }
  | .instruction remarks => do
      remarkAll remarks
      return { o with innermost := o.innermost.push .instruction }

/-- Take tokens until all elements are closed again, and return the outermost children. -/
def takeAll (standalone : Bool) (doctype : Doctype)
    (entityNodes : Nat → List Char → Reader (List Node)) (o : Open) (tokens : List Token) :
    Reader (List Node) := do
  let o ← tokens.foldlM (takeToken standalone doctype entityNodes) o
  if o.outer.isEmpty then return o.innermost.children.reverse else fail .tags

/-- The nodes that the text of an entity stands for, nested some number of times at most. -/
def entityNodes (standalone : Bool) (doctype : Doctype) :
    Nat → Nat → List Char → Reader (List Node)
  | 0, _, _ => fail .limit
  | nesting + 1, depth, text => do
      let tokens ← (Scan.runAll Scan.content text : Except Fault _)
      takeAll standalone doctype (entityNodes standalone doctype nesting)
        { innermost := {}, base := depth, isDocument := false } tokens

end Reader

end RegisterMap.Xml
