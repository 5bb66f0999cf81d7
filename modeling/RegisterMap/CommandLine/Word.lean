import RegisterMap.CommandLine.UsageError
import RegisterMap.Number.Digit

/-!
# Words of a command line

Each word of a command line is a long setting, a cluster of letters, the mark after
which no word is a setting, or something else.  A word that looks like a negative
number or holds a blank is never taken for a misspelt setting.
-/

namespace RegisterMap.CommandLine

open RegisterMap.Number

/-- What a word is by itself. -/
inductive Word where
  /-- The mark after which no word is a setting. -/
  | endMark
  | plain (text : String)
  | unknown (text : String)
  | long (s : Setting) (value? : Option String)
  /-- A setting by its letter, with what follows the letter. -/
  | short (s : Setting) (tail : List Char)
  deriving DecidableEq, Repr

namespace Word

def areDigits (cs : List Char) : Bool :=
  cs.all fun c => (decimalDigit? c).isSome

/-- True of the text of a number without a sign: digits, or a point with digits after it. -/
def isUnsigned (cs : List Char) : Bool :=
  let whole := cs.takeWhile (· != '.')
  match cs.dropWhile (· != '.') with
  | [] => !whole.isEmpty && areDigits whole
  | _ :: fraction => areDigits whole && !fraction.isEmpty && areDigits fraction

def withoutLineFeed (cs : List Char) : List Char :=
  if cs.getLast? = some '\n' then cs.dropLast else cs

/-- A word that starts with a dash and is no setting; what follows the dash is given. -/
def ofDashed (text : String) (cs : List Char) : Word :=
  if isUnsigned (withoutLineFeed cs) || cs.contains ' ' then .plain text else .unknown text

def splitValue (cs : List Char) : String × Option String :=
  let name := String.ofList (cs.takeWhile (· != '='))
  match cs.dropWhile (· != '=') with
  | [] => (name, none)
  | _ :: value => (name, some (String.ofList value))

def ofText (text : String) : Word :=
  match text.toList with
  | ['-'] => .plain text
  | ['-', '-'] => .endMark
  | '-' :: '-' :: cs =>
      let (name, value?) := splitValue cs
      match Setting.ofName? name with
      | some s => .long s value?
      | none => ofDashed text ('-' :: cs)
  | '-' :: c :: tail =>
      match Setting.ofLetter? c with
      | some s => .short s tail
      | none => ofDashed text (c :: tail)
  | _ => .plain text

def ofTexts : List String → List Word
  | [] => []
  | text :: texts =>
      match ofText text with
      | .endMark => .endMark :: texts.map .plain
      | word => word :: ofTexts texts

end Word

end RegisterMap.CommandLine
