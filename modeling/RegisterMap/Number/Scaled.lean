import RegisterMap.Number.Digit
import RegisterMap.Text.Blank
import RegisterMap.Text.Quoted

/-!
# Scaled integers

The integers of a device description: decimal, hexadecimal after `0x` or binary
after `#`, between 0 and 2^64 - 1.  The digits after the mark are a numeral: an
optional sign, an optional repeated mark, and digits with single underscores
between them.
-/

namespace RegisterMap.Number

open RegisterMap.Text

inductive NumeralError where
  | malformed (radix : Radix) (part : String)
  | tooManyDigits (count : Nat)
  | outOfRange (text : String)
  deriving DecidableEq, Repr

namespace NumeralError

/-- The most characters of a malformed numeral that a message shows, quotes included. -/
def shownLength : Nat := 200

/-- The most digits that a decimal numeral may have. -/
def digitLimit : Nat := 4300

def message : NumeralError → String
  | malformed radix part =>
      "invalid literal for int() with base " ++ toString radix.base ++ ": " ++
        String.ofList ((Quoted.encode part.toList).take shownLength)
  | tooManyDigits count =>
      "Exceeds the limit (" ++ toString digitLimit ++
        " digits) for integer string conversion: value has " ++ toString count ++
        " digits; use sys.set_int_max_str_digits() to increase the limit"
  | outOfRange text => "Integer " ++ text ++ " is outside the unsigned 64-bit range"

end NumeralError

namespace Numeral

/-- The blanks around a numeral: all but the four ASCII information separators. -/
def isSpacing (c : Char) : Bool :=
  isBlank c && !(28 ≤ c.toNat && c.toNat ≤ 31)

/-- The sign of a numeral, true for a minus, and what follows it. -/
def splitSign : List Char → Bool × List Char
  | '-' :: rest => (true, rest)
  | '+' :: rest => (false, rest)
  | cs => (false, cs)

/-- What follows a repeated mark of the base: a digit zero, the letter, perhaps an underscore. -/
def afterMark (radix : Radix) : List Char → List Char
  | first :: letter :: rest =>
      if decimalDigit? first = some 0 ∧ radix.mark? = some letter.toLower then
        match rest with
        | '_' :: rest => rest
        | rest => rest
      else first :: letter :: rest
  | cs => cs

/--
The digits at the front of a text, single underscores between them left out, and
the text after them.  The flag tells whether a digit came just before.  There is
no such split if the text starts without a digit or an underscore is not between
two digits.
-/
def splitDigits (radix : Radix) : Bool → List Char → Option (List Nat × List Char)
  | afterDigit, [] => if afterDigit then some ([], []) else none
  | afterDigit, c :: cs =>
      match radix.digit? c with
      | some d => (splitDigits radix true cs).map fun (digits, rest) => (d :: digits, rest)
      | none =>
          if !afterDigit then none
          else if c = '_' then splitDigits radix false cs
          else some ([], c :: cs)

/-- The number that digits stand for, the most significant first. -/
def ofDigits (base : Nat) (digits : List Nat) : Nat :=
  digits.foldl (fun value digit => value * base + digit) 0

def read (radix : Radix) (cs : List Char) : Except NumeralError Int :=
  let (negative, unsigned) := splitSign (cs.dropWhile isSpacing)
  match splitDigits radix false (afterMark radix unsigned) with
  | none => .error (.malformed radix (String.ofList cs))
  | some (digits, rest) =>
      if radix = .decimal ∧ NumeralError.digitLimit < digits.length then
        .error (.tooManyDigits digits.length)
      else if rest.all isSpacing then
        let value : Int := ofDigits radix.base digits
        .ok (if negative then -value else value)
      else .error (.malformed radix (String.ofList cs))

end Numeral

/-- The first number that does not fit in 64 bits. -/
def wordLimit : Nat := UInt64.size

/-- The base that a stripped text announces, and the numeral after its mark. -/
def splitRadix : List Char → Radix × List Char
  | '0' :: 'x' :: rest => (.hexadecimal, rest)
  | '0' :: 'X' :: rest => (.hexadecimal, rest)
  | '#' :: rest => (.binary, rest)
  | cs => (.decimal, cs)

def readScaled (text : String) : Except NumeralError Nat := do
  let (radix, numeral) := splitRadix (strip text.toList)
  match ← Numeral.read radix numeral with
  | .ofNat n => if n < wordLimit then return n else throw (.outOfRange text)
  | .negSucc _ => throw (.outOfRange text)

theorem lt_wordLimit_of_readScaled {text : String} {n : Nat} (h : readScaled text = .ok n) :
    n < wordLimit := by
  unfold readScaled at h
  generalize hs : splitRadix (strip text.toList) = s at h
  obtain ⟨radix, numeral⟩ := s
  cases hr : Numeral.read radix numeral with
  | error e => simp [hr, bind, Except.bind] at h
  | ok v =>
      cases v with
      | ofNat m =>
          simp only [hr, bind, Except.bind] at h
          split at h
          · simp only [pure, Except.pure, Except.ok.injEq] at h
            omega
          · cases h
      | negSucc m => simp [hr, bind, Except.bind, throw, throwThe, MonadExceptOf.throw] at h

end RegisterMap.Number
