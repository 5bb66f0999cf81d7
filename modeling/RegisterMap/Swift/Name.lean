import RegisterMap.Text.Blank

/-!
# Swift names

Names of a device description as Swift identifiers.  A name without its blanks
and its replica placeholders keeps ASCII letters, digits and underscores; any
other character becomes an underscore, a leading digit gets one in front of it,
and an empty name is one.
-/

namespace RegisterMap.Swift

open RegisterMap.Text

/-- A name without the placeholders of replica indices. -/
def dropPlaceholders : List Char → List Char
  | '[' :: '%' :: 's' :: ']' :: rest => dropPlaceholders rest
  | '%' :: 's' :: rest => dropPlaceholders rest
  | c :: rest => c :: dropPlaceholders rest
  | [] => []

def isNameChar (c : Char) : Bool :=
  c.isAlphanum || c == '_'

/-- An identifier for any text. -/
def sanitize (cs : List Char) : List Char :=
  let kept := (dropPlaceholders (strip cs)).map fun c => if isNameChar c then c else '_'
  match kept with
  | [] => ['_']
  | first :: _ => if first.isDigit then '_' :: kept else kept

def swiftName (name : String) : String :=
  String.ofList (sanitize name.toList)

def splitDots : List Char → List (List Char)
  | [] => [[]]
  | '.' :: rest => [] :: splitDots rest
  | c :: rest =>
      match splitDots rest with
      | [] => [[c]]
      | piece :: pieces => (c :: piece) :: pieces

def referencePath (reference : String) : List String :=
  (splitDots reference.toList).map fun piece => String.ofList (sanitize piece)

def aliasTarget (reference : String) : String :=
  String.intercalate "." (referencePath reference)

def keywords : List String :=
  ["Any", "Self", "as", "associatedtype", "await", "break", "case", "catch", "class",
    "continue", "default", "defer", "deinit", "do", "else", "enum", "extension",
    "fallthrough", "false", "fileprivate", "for", "func", "guard", "if", "import", "in",
    "init", "inout", "internal", "is", "let", "nil", "open", "operator",
    "precedencegroup", "private", "protocol", "public", "repeat", "rethrows", "return",
    "self", "static", "struct", "subscript", "super", "switch", "throw", "throws", "true",
    "try", "typealias", "var", "where", "while"]

/-- A name as source text writes it: between backticks if it is a reserved word. -/
def identifier (name : String) : String :=
  if name ∈ keywords then "`" ++ name ++ "`" else name

def instanceName (typeName : String) : String :=
  typeName.toLower

end RegisterMap.Swift
