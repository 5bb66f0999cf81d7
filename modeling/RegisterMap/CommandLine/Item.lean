import RegisterMap.CommandLine.Word

/-!
# Items of a command line

What a command line says, in order: settings, parameters with their values, and
words that mean nothing.  A word that cannot be read is an item too, so that what
was said before it still counts.
-/

namespace RegisterMap.CommandLine

/-- Something that a command line says. -/
inductive Item where
  | flag (f : Flag)
  | parameter (p : Parameter) (value : String)
  | stray (text : String)
  | fault (e : UsageError)
  deriving DecidableEq, Repr

/-- The items of a word, and whether the word after it is the value of the last one. -/
structure Reading where
  items : List Item
  usesNext : Bool := false
  deriving DecidableEq, Repr

namespace Reading

/-- Put a flag in front of the items, unless the word cannot be read. -/
def behind (f : Flag) (r : Reading) : Reading :=
  match r.items with
  | .fault _ :: _ => r
  | items => { r with items := .flag f :: items }

def failed (e : UsageError) : Reading := ⟨[.fault e], false⟩

/-- A parameter whose value is the word after it, if that is one. -/
def ofNext (p : Parameter) : Option String → Reading
  | some value => ⟨[.parameter p value], true⟩
  | none => failed (.valueMissing p)

end Reading

/--
Read a setting by its letter and the text after the letter.  The text is the value of
a parameter, perhaps behind an equals sign.  After a flag it starts with another
letter.
-/
def readShort (next? : Option String) : Setting → List Char → Reading
  | .parameter p, [] => .ofNext p next?
  | .parameter p, '=' :: value => ⟨[.parameter p (String.ofList value)], false⟩
  | .parameter p, value => ⟨[.parameter p (String.ofList value)], false⟩
  | .flag f, [] => ⟨[.flag f], false⟩
  | .flag f, '=' :: value => .failed (.valueUnexpected f (String.ofList value))
  | .flag f, '-' :: tail => .failed (.valueUnexpected f (String.ofList ('-' :: tail)))
  | .flag f, c :: tail =>
      match Setting.ofLetter? c with
      | some s => (readShort next? s tail).behind f
      | none => ⟨[.flag f, .stray (String.ofList ('-' :: c :: tail))], false⟩

def readLong (next? : Option String) : Setting → Option String → Reading
  | .parameter p, none => .ofNext p next?
  | .parameter p, some value => ⟨[.parameter p value], false⟩
  | .flag f, none => ⟨[.flag f], false⟩
  | .flag f, some value => .failed (.valueUnexpected f value)

/-- Read a word, given the word after it if that can be a value. -/
def Word.read (next? : Option String) : Word → Reading
  | .endMark => ⟨[.stray "--"], false⟩
  | .plain text => ⟨[.stray text], false⟩
  | .unknown text => ⟨[.stray text], false⟩
  | .long s value? => readLong next? s value?
  | .short s tail => readShort next? s tail

def valueAhead : List Word → Option String
  | .plain text :: _ => some text
  | _ => none

def itemsOf : List Word → List Item
  | [] => []
  | word :: words =>
      let reading := word.read (valueAhead words)
      reading.items ++ itemsOf (words.drop (if reading.usesNext then 1 else 0))
termination_by words => words.length
decreasing_by simp only [List.length_drop, List.length_cons]; omega

end RegisterMap.CommandLine
