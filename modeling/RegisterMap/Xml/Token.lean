import RegisterMap.Xml.Doctype

/-!
# Tokens of content

The content of elements as a list of tags, texts and references.  A text comes in
chunks, for white space is judged chunk by chunk: a chunk ends where a line ends
in two characters, and text that is not plain ASCII ends in one last chunk.
-/

namespace RegisterMap.Xml

/-- What comes after a chunk of text. -/
inductive Follow where
  | closing
  | opening
  | lineEnd
  | other
  deriving DecidableEq, Repr

inductive Token where
  /-- A start tag, with the line on which it ends; it may be an end tag too. -/
  | startTag (name : List Char) (attributes : List (List Char × List Char)) (isEmpty : Bool)
      (line : Nat)
  | endTag (name : List Char)
  | chunk (text : List Char) (follow : Follow)
  /-- Text whose white space always counts. -/
  | data (text : List Char)
  | reference (name : List Char)
  | instruction (remarks : List Remark)
  deriving Repr

/-! ## Chunks -/

namespace Chunk

def followOf : List Char → Follow
  | '<' :: '/' :: _ => .closing
  | '<' :: _ => .opening
  | '\r' :: _ => .lineEnd
  | _ => .other

def width (c : Char) : Nat := c.utf8Size

/-- The least size in bytes of a chunk that is cut off from a last chunk. -/
def pieceSize : Nat := 300

/-- What comes next: the present text, which holds no markup, or else what follows it. -/
def ahead (rest cs : List Char) : List Char :=
  if cs.isEmpty then rest else cs

/-- A last chunk in pieces.  The size and the characters of the present piece come first. -/
def pieces (rest : List Char) : Nat → List Char → List Char → List Token
  | _, read, [] => if read.isEmpty then [] else [.chunk read.reverse (followOf rest)]
  | size, read, '\r' :: '\n' :: cs =>
      if pieceSize ≤ size + 1 then
        .chunk ('\n' :: read).reverse (followOf (ahead rest cs)) :: pieces rest 0 [] cs
      else pieces rest (size + 1) ('\n' :: read) cs
  | size, read, c :: cs =>
      let c := if c = '\r' then '\n' else c
      if pieceSize ≤ size + width c then
        .chunk (c :: read).reverse (followOf (ahead rest cs)) :: pieces rest 0 [] cs
      else pieces rest (size + width c) (c :: read) cs

/-- Characters that do not end a chunk. -/
def isPlain (c : Char) : Bool :=
  c != '\r' && c.toNat < 0x80

def ofChars (cs : List Char) (follow : Follow) : List Token :=
  if cs.isEmpty then [] else [.chunk cs follow]

def goesOnPlain (rest cs : List Char) : Bool :=
  (ahead rest cs).head?.any isPlain

/-- The chunks of a text without markup, given what follows it. -/
def split (rest : List Char) : List Char → List Char → List Token
  | read, [] => ofChars read.reverse (followOf rest)
  | read, '\r' :: '\n' :: cs =>
      ofChars read.reverse .lineEnd ++
        if goesOnPlain rest cs then split rest ['\n'] cs
        else pieces rest 0 [] ('\n' :: cs)
  | read, c :: cs =>
      if isPlain c then split rest (c :: read) cs
      else ofChars read.reverse (followOf (c :: cs)) ++ pieces rest 0 [] (c :: cs)

end Chunk

/-! ## Scanning content -/

namespace Scan

def attribute? : Scan (Option (List Char × List Char)) := do
  let spaced ← space
  match ← peek? with
  | none => fail .grammar
  | some '>' => return none
  | some '/' => return none
  | some _ =>
      unless spaced do fail .grammar
      let name ← name
      equalsSign
      let value ← quotedText
      if value.contains '<' then fail .grammar else return some (name, value)

def startTag : Scan Token := do
  let name ← name
  let attributes ← many attribute?
  let line ← line
  let isEmpty ← accept "/"
  expect ">"
  return .startTag name attributes isEmpty line

def endTag : Scan Token := do
  let name ← name
  let _ ← space
  expect ">"
  return .endTag name

def reference : Scan Token := do
  let body ← takeThrough ";"
  match Piece.ofReference? body with
  | none => fail .reference
  | some (.entity name) =>
      match Piece.predefined? name with
      | some c => return .data [c]
      | none => return .reference name
  | some (.number c) => return .data [c]
  | some (.char c) => return .data [c]

/-- Pass a text up to markup or a reference. -/
def chunks : Scan (List Token) := do
  let text ← takeWhile fun c => c != '<' && c != '&'
  if (cutAt "]]>".toList text).isSome then fail .grammar
  else return Chunk.split (← rest) [] text

def contentPart? : Scan (Option (List Token)) := do
  match ← peek? with
  | none => return none
  | some '<' =>
      if ← accept "</" then return some [← endTag]
      else if ← accept "<!--" then
        comment
        return some []
      else if ← accept "<![CDATA[" then
        return some [.data (normalizeLines (← takeThrough "]]>"))]
      else if ← accept "<?" then return some [.instruction (← instruction)]
      else
        expect "<"
        return some [← startTag]
  | some '&' =>
      expect "&"
      return some [← reference]
  | some _ => return some (← chunks)

def content : Scan (List Token) := do
  return (← many contentPart?).flatten

end Scan

end RegisterMap.Xml
