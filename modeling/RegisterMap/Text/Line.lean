/-!
# Lines of a text

A text is cut after every line separator.  The pair of a carriage return and a
line feed is one separator.
-/

namespace RegisterMap.Text

def isLineSeparator (c : Char) : Bool :=
  let n := c.toNat
  (10 ≤ n && n ≤ 13) || (28 ≤ n && n ≤ 30) || n == 0x85 || n == 0x2028 || n == 0x2029

/-- The lines of a text, each with the separator that ends it. -/
def linesWithEnds : List Char → List (List Char)
  | [] => []
  | '\r' :: '\n' :: rest => ['\r', '\n'] :: linesWithEnds rest
  | c :: rest =>
      if isLineSeparator c then [c] :: linesWithEnds rest
      else
        match linesWithEnds rest with
        | [] => [[c]]
        | line :: lines => (c :: line) :: lines

/-- Cutting a text into lines loses nothing. -/
theorem flatten_linesWithEnds (cs : List Char) : (linesWithEnds cs).flatten = cs := by
  fun_induction linesWithEnds cs with
  | case1 => rfl
  | case2 rest ih => simp [ih]
  | case3 c rest _ _ ih => simp [ih]
  | case4 c rest _ _ h ih => simpa [h] using ih
  | case5 c rest _ _ line lines h ih => simpa [h] using ih

def withoutEnd (line : List Char) : List Char :=
  line.filter fun c => !isLineSeparator c

def lines (cs : List Char) : List (List Char) :=
  (linesWithEnds cs).map withoutEnd

end RegisterMap.Text
