import RegisterMap.Text.Quoted

/-!
# Literals

Values as messages show them: words for the absent value and the truth values,
quoted texts, lists in brackets and records in braces.
-/

namespace RegisterMap.Text

/-- A value that a message can show. -/
inductive Literal where
  | absent
  | truth (value : Bool)
  | number (value : Int)
  | text (value : String)
  | list (items : List Literal)
  | record (entries : List (String × Literal))
  deriving Inhabited

namespace Literal

def ofText? : Option String → Literal
  | none => absent
  | some s => text s

mutual

def render : Literal → String
  | absent => "None"
  | truth true => "True"
  | truth false => "False"
  | number n => toString n
  | text s => quoted s
  | list items => "[" ++ String.intercalate ", " (renderItems items) ++ "]"
  | record entries => "\x7b" ++ String.intercalate ", " (renderEntries entries) ++ "\x7d"

def renderItems : List Literal → List String
  | [] => []
  | item :: items => item.render :: renderItems items

def renderEntries : List (String × Literal) → List String
  | [] => []
  | (name, value) :: entries => (quoted name ++ ": " ++ value.render) :: renderEntries entries

end

end Literal

end RegisterMap.Text
