import RegisterMap.Xml.Character

/-!
# Scanning

A scan reads characters from a cursor, which counts the lines it has passed.  It
fails with a fault, and a document with a fault is not well-formed.
-/

namespace RegisterMap.Xml

/-- Why a document is not well-formed. -/
inductive Fault where
  | encoding
  | character
  | grammar
  | reference
  | tags
  /-- More nesting or replacement text than a document may have. -/
  | limit
  /-- Names that do not fit the namespaces in scope. -/
  | naming
  deriving DecidableEq, Repr

/-- What is left of a text, how much that is, and the number of the line it starts on. -/
structure Cursor where
  rest : List Char
  size : Nat
  line : Nat
  deriving Repr

namespace Cursor

def start (cs : List Char) : Cursor := ⟨cs, cs.length, 1⟩

/-- The cursor after some characters, which come before the rest. -/
def after (cursor : Cursor) (passed rest : List Char) : Cursor :=
  ⟨rest, cursor.size - passed.length, cursor.line + passed.count '\n'⟩

end Cursor

/-- A reader of characters. -/
abbrev Scan := StateT Cursor (Except Fault)

/-- What precedes the first occurrence of a text, and what follows it. -/
def cutAt (stop : List Char) : List Char → Option (List Char × List Char)
  | [] => none
  | c :: cs =>
      if stop.isPrefixOf (c :: cs) then some ([], (c :: cs).drop stop.length)
      else (cutAt stop cs).map fun (before, rest) => (c :: before, rest)

namespace Scan

def fail (fault : Fault) : Scan α := throw fault

def rest : Scan (List Char) := do
  return (← get).rest

def line : Scan Nat := do
  return (← get).line

def isNext (text : String) : Scan Bool := do
  return text.toList.isPrefixOf (← rest)

/-- The next character, which is left in place. -/
def peek? : Scan (Option Char) := do
  return (← rest).head?

/-- Pass a text if it comes next. -/
def accept (text : String) : Scan Bool := do
  let cursor ← get
  if text.toList.isPrefixOf cursor.rest then
    set (cursor.after text.toList (cursor.rest.drop text.length))
    return true
  else return false

def expect (text : String) : Scan Unit := do
  unless ← accept text do fail .grammar

def takeWhile (p : Char → Bool) : Scan (List Char) := do
  let cursor ← get
  let taken := cursor.rest.takeWhile p
  set (cursor.after taken (cursor.rest.dropWhile p))
  return taken

/-- Pass a text and what precedes it, which is returned. -/
def takeThrough (stop : String) : Scan (List Char) := do
  let cursor ← get
  match cutAt stop.toList cursor.rest with
  | none => fail .grammar
  | some (before, rest) =>
      set (cursor.after (before ++ stop.toList) rest)
      return before

def space : Scan Bool := do
  return !(← takeWhile isSpace).isEmpty

def requireSpace : Scan Unit := do
  unless ← space do fail .grammar

def name : Scan (List Char) := do
  let taken ← takeWhile isNameChar
  if isName taken then return taken else fail .grammar

def quotedText : Scan (List Char) := do
  if ← accept "\"" then takeThrough "\""
  else if ← accept "'" then takeThrough "'"
  else fail .grammar

def equalsSign : Scan Unit := do
  let _ ← space
  expect "="
  let _ ← space

/-- Do a scan again and again until it has nothing more to return, at most some number of times. -/
def collect (item? : Scan (Option α)) : Nat → Scan (List α)
  | 0 => return []
  | times + 1 => do
      match ← item? with
      | none => return []
      | some item => return item :: (← collect item? times)

/-- Do a scan that passes a character at least, until it has nothing more to return. -/
def many (item? : Scan (Option α)) : Scan (List α) := do
  collect item? ((← get).size + 1)

def runAll (scan : Scan α) (cs : List Char) : Except Fault α := do
  let (a, cursor) ← scan.run (.start cs)
  if cursor.rest.isEmpty then return a else throw .grammar

end Scan

end RegisterMap.Xml
