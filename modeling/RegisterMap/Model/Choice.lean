import RegisterMap.Text.Literal

/-!
# Closed choices

Some values of a description are one of a few words.  Any other value is refused
with the value and the kind of word that was expected.
-/

namespace RegisterMap.Model

open RegisterMap.Text

structure InvalidChoice where
  kind : String
  value : Literal

namespace InvalidChoice

def message (e : InvalidChoice) : String :=
  e.value.render ++ " is not a valid " ++ e.kind

end InvalidChoice

/-- Read a literal as a word of a kind. -/
def chooseWord (kind : String) (ofWord? : String → Option α) (value : Literal) :
    Except InvalidChoice α :=
  match value with
  | .text s =>
      match ofWord? s with
      | some a => .ok a
      | none => .error ⟨kind, value⟩
  | _ => .error ⟨kind, value⟩

/-- True of two words that differ in the case of ASCII letters at most. -/
def sameWord (a b : String) : Bool :=
  a.toLower == b.toLower

end RegisterMap.Model
