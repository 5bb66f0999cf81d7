import RegisterMap.CommandLine.Setting
import RegisterMap.Text.Quoted

/-!
# Usage errors

Why a command line asks for nothing that can be done.
-/

namespace RegisterMap.CommandLine

open RegisterMap.Export RegisterMap.Text

inductive UsageError where
  | valueMissing (p : Parameter)
  | valueUnexpected (f : Flag) (value : String)
  | notANumber (p : Parameter) (value : String)
  | notAWord (p : Parameter) (value : String) (words : List String)
  | conflict (later earlier : Setting)
  | required (ps : List Parameter)
  | unrecognized (words : List String)
  | negativeWidth
  deriving DecidableEq, Repr

namespace UsageError

def about (s : Setting) (complaint : String) : String :=
  "argument " ++ s.label ++ ": " ++ complaint

def message : UsageError → String
  | valueMissing p => about (.parameter p) "expected one argument"
  | valueUnexpected f value =>
      about (.flag f) ("ignored explicit argument " ++ quoted value)
  | notANumber p value => about (.parameter p) ("invalid int value: " ++ quoted value)
  | notAWord p value words =>
      about (.parameter p) ("invalid choice: " ++ quoted value ++ " (choose from " ++
        ", ".intercalate (words.map quoted) ++ ")")
  | conflict later earlier => about later ("not allowed with argument " ++ earlier.label)
  | required ps =>
      "the following arguments are required: " ++
        ", ".intercalate (ps.map fun p => (Setting.parameter p).label)
  | unrecognized words => "unrecognized arguments: " ++ " ".intercalate words
  | negativeWidth => "--" ++ Parameter.indentWidth.name ++ " must not be negative"

end UsageError

end RegisterMap.CommandLine
