import RegisterMap.Xml.Charset
import RegisterMap.Xml.Content

/-!
# Documents

Reading the bytes of a document as the tree of its root element: its declaration,
its document type and its content.
-/

namespace RegisterMap.Xml

/-! ## The start of a document -/

/-- What the declaration at the very start of a document says. -/
structure Declaration where
  encoding? : Option (List Char) := none
  standalone : Bool := false
  remarks : List Remark := []

namespace Scan

def versionRemarks (version : List Char) : Except Fault (List Remark) :=
  match version with
  | c :: '.' :: digits =>
      if !(c.isDigit && digits.all Char.isDigit) then .error .grammar
      else if version = ['1', '.', '0'] then .ok []
      else if c = '1' then .ok [.warning]
      else .error .grammar
  | _ => .error .grammar

def isEncodingName : List Char → Bool
  | [] => false
  | c :: cs => c.isAlpha && cs.all fun c => c.isAlphanum || "._-".contains c

/-- Pass a setting of the declaration, if it comes next. -/
def setting? (name : String) : Scan (Option (List Char)) := do
  if ← accept name then
    equalsSign
    return some (← quotedText)
  else return none

def declaration : Scan Declaration := do
  match ← rest with
  | '<' :: '?' :: 'x' :: 'm' :: 'l' :: c :: _ =>
      unless isSpace c do return {}
      expect "<?xml"
      requireSpace
      let some version ← setting? "version" | fail .grammar
      let remarks ← versionRemarks version
      let mut spaced ← space
      let mut encoding? := none
      if spaced then
        encoding? ← setting? "encoding"
        if encoding?.isSome then
          unless encoding?.all isEncodingName do fail .encoding
          spaced ← space
      let mut standalone := false
      if spaced then
        match ← setting? "standalone" with
        | none => pure ()
        | some ['y', 'e', 's'] => standalone := true
        | some ['n', 'o'] => standalone := false
        | some _ => fail .grammar
        let _ ← space
      expect "?>"
      return { encoding?, standalone, remarks }
  | _ => return {}

/-- Pass white space, comments and processing instructions. -/
def misc : Scan (List Remark) := do
  let remarks ← many do
    let _ ← space
    if ← accept "<!--" then
      comment
      return some []
    else if ← accept "<?" then return some (← instruction)
    else return none
  return remarks.flatten

/-- Pass everything before the root element. -/
def prologue (declaration : Declaration) : Scan Doctype := do
  let before ← misc
  if ← accept "<!DOCTYPE" then
    let doctype ← doctype declaration.standalone
    let after ← misc
    return { doctype with
      remarks := declaration.remarks ++ before ++ doctype.remarks ++ after }
  else return { remarks := declaration.remarks ++ before }

/-- Pass a whole document: its declaration, its document type and its content. -/
def document : Scan (Declaration × Doctype × List Token) := do
  let declaration ← declaration
  let doctype ← prologue declaration
  return (declaration, doctype, ← content)

end Scan

/-! ## Reading a document -/

def decodeBytes (bytes : List UInt8) : Except Fault (List Char) := do
  let decoded? ←
    match Charset.ofFirstBytes? bytes with
    | some (charset, bytes) => pure (charset.decode bytes)
    | none =>
        let some cs := Charset.latin1.decode bytes | throw .encoding
        let (declaration, _) ← Scan.declaration.run (.start cs)
        match declaration.encoding? with
        | none => pure (Charset.utf8.decode bytes)
        | some name => pure ((Charset.ofName? name).bind (·.decode bytes))
  match decoded? with
  | none => throw .encoding
  | some cs => if cs.all isDocumentChar then return cs else throw .character

/-- The least allowance for replacement texts. -/
def leastAllowance : Nat := 1000000

/-- How many times longer than the document replacement texts may be. -/
def allowanceFactor : Nat := 5

def parseChars (cs : List Char) : Except Fault Element := do
  let (declaration, doctype, tokens) ← Scan.runAll Scan.document cs
  let standalone := declaration.standalone
  let (nodes, reading) ←
    (Reader.takeAll standalone doctype
      (Reader.entityNodes standalone doctype Scan.entityDepth)
      { innermost := {}, isDocument := true } tokens).run
      { allowance := max leastAllowance (allowanceFactor * cs.length)
        remarks := doctype.remarks }
  if reading.remarks.getLast? = some .objection then throw .naming
  match nodes.findSome? Node.element? with
  | none => throw .grammar
  | some root => return root

def parse (bytes : List UInt8) : Except Fault Element := do
  parseChars (← decodeBytes bytes)

end RegisterMap.Xml
