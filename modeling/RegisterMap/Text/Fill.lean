/-!
# Filled text

Pieces of text on lines of a limited width.  A line takes the next piece as long
as it fits, and a piece that fits on no line stands on one of its own.
-/

namespace RegisterMap.Text

def fillAfter (width : Nat) (line : String) : List String → List String
  | [] => [line]
  | piece :: pieces =>
      if line.length + 1 + piece.length ≤ width then
        fillAfter width (line ++ " " ++ piece) pieces
      else line :: fillAfter width piece pieces

/-- Pieces of text on lines of a width. -/
def fill (width : Nat) : List String → List String
  | [] => []
  | piece :: pieces => fillAfter width piece pieces

/-- A text of a length at least, with blanks after it. -/
def padded (width : Nat) (s : String) : String :=
  s ++ String.ofList (List.replicate (width - s.length) ' ')

end RegisterMap.Text
