/-!
# Hexadecimal text

Two written forms of a number in base 16: the plain one of messages, and the one
of source text, whose digits stand in groups of four.
-/

namespace RegisterMap.Number

/-- The sign of a number and its lowercase hexadecimal digits. -/
def signedHexDigits (n : Int) : List Char × List Char :=
  (if n < 0 then ['-'] else [], Nat.toDigits 16 n.natAbs)

/-- The plain form: a sign if negative, `0x`, and the digits. -/
def plainHex (n : Int) : String :=
  let (sign, digits) := signedHexDigits n
  String.ofList (sign ++ '0' :: 'x' :: digits)

/-- Zeros in front of digits, up to a multiple of four characters with the sign. -/
def padToFours (sign digits : List Char) : List Char :=
  let count := sign.length + digits.length
  sign ++ List.replicate ((count + 3) / 4 * 4 - count) '0' ++ digits

def groupsOfFour : List Char → List (List Char)
  | a :: b :: c :: d :: rest => [a, b, c, d] :: groupsOfFour rest
  | [] => []
  | short => [short]

/-- The form of source text: `0x`, and groups of four digits with underscores between them. -/
def hexLiteral (n : Int) : String :=
  let (sign, digits) := signedHexDigits n
  String.ofList
    ('0' :: 'x' :: List.intercalate ['_'] (groupsOfFour (padToFours sign digits)))

theorem flatten_groupsOfFour (cs : List Char) : (groupsOfFour cs).flatten = cs := by
  fun_induction groupsOfFour cs with
  | case1 a b c d rest ih => simp [ih]
  | case2 => rfl
  | case3 short => simp

end RegisterMap.Number
