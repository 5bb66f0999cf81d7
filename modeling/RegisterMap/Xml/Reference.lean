import RegisterMap.Xml.Scan

/-!
# References

A reference stands between an ampersand and a semicolon.  It is the number of a
character, or the name of an entity; five entities are known to every document.
-/

namespace RegisterMap.Xml

inductive Piece where
  | char (c : Char)
  /-- A character given by its number. -/
  | number (c : Char)
  | entity (name : List Char)
  deriving DecidableEq, Repr

namespace Piece

/-- The character that one of the five entities of every document stands for. -/
def predefined? (name : List Char) : Option Char :=
  match String.ofList name with
  | "lt" => some '<'
  | "gt" => some '>'
  | "amp" => some '&'
  | "quot" => some '"'
  | "apos" => some '\x27'
  | _ => none

def digit? (base : Nat) (c : Char) : Option Nat :=
  if c.isDigit then some (c.toNat - 0x30)
  else if base = 16 ∧ 'a' ≤ c ∧ c ≤ 'f' then some (c.toNat - 0x57)
  else if base = 16 ∧ 'A' ≤ c ∧ c ≤ 'F' then some (c.toNat - 0x37)
  else none

def ofDigits? (base : Nat) (digits : List Char) : Option Piece := do
  guard !digits.isEmpty
  let n ← digits.foldlM (fun value c => (digit? base c).map (value * base + ·)) 0
  guard n.isValidChar
  let c := Char.ofNat n
  guard (isDocumentChar c)
  return number c

/-- What stands between an ampersand and a semicolon. -/
def ofReference? : List Char → Option Piece
  | '#' :: 'x' :: digits => ofDigits? 16 digits
  | '#' :: digits => ofDigits? 10 digits
  | name => if isName name then some (entity name) else none

/--
The pieces of a text.  The first argument holds what of a reference has been
read, the last character first.
-/
def split : Option (List Char) → List Char → Except Fault (List Piece)
  | none, [] => .ok []
  | some _, [] => .error .reference
  | none, c :: cs =>
      if c = '&' then split (some []) cs
      else (split none cs).map (char c :: ·)
  | some read, c :: cs =>
      if c = ';' then
        match ofReference? read.reverse with
        | none => .error .reference
        | some piece => (split none cs).map (piece :: ·)
      else split (some (c :: read)) cs

def ofText (cs : List Char) : Except Fault (List Piece) :=
  split none cs

end Piece

def normalizeLines : List Char → List Char
  | [] => []
  | '\r' :: '\n' :: rest => '\n' :: normalizeLines rest
  | '\r' :: rest => '\n' :: normalizeLines rest
  | c :: rest => c :: normalizeLines rest

end RegisterMap.Xml
