import RegisterMap.CommandLine.Setting

/-!
# Help

The text that explains the command line.
-/

namespace RegisterMap.CommandLine

open RegisterMap.Text

def programName : String := "svd2swift"

namespace Help

def lineWidth : Nat := 78

/-- The column at which explanations start. -/
def column : Nat := 24

def indented (width : Nat) (s : String) : String :=
  padded width "" ++ s

def purpose : String :=
  "Generate Swift MMIO register interfaces from a System View Description (SVD) file."

def ofFlag : Flag → String
  | .help => "show this help message and exit"
  | .verbose =>
      "Output verbose logs. Can be given multiple times to increase the verbosity. " ++
        "By default only errors are output."
  | .noValidateDerivations =>
      "Don't check that 'derivedFrom' attributes reference existing elements."
  | .indentTabs => "Indent with tabs."
  | .namespaceUnderDevice =>
      "Declare the peripheral instances inside a type named after the device."
  | .instanceMemberPeripherals =>
      "Declare the peripheral instances as instance members instead of static members. " ++
        "Only has an effect together with --namespace-under-device."

def ofParameter : Parameter → String
  | .input => "Path to the device SVD file."
  | .peripheral => "Limit output to the given peripheral. May be given multiple times."
  | .output => "Directory to write the generated Swift files to."
  | .indentWidth => "Indent with N spaces (default: 2)."
  | .accessLevel => "Access level applied to all generated declarations."
  | .deviceName => "Name to use for the device instead of the name in the SVD file."

def ofSetting : Setting → String
  | .flag f => ofFlag f
  | .parameter p => ofParameter p

def groups : List (String × List Setting) :=
  [("options", [.flag .help, .flag .verbose]),
    ("input options", [.parameter .input, .flag .noValidateDerivations]),
    ("selection options", [.parameter .peripheral]),
    ("output options",
      [.parameter .output, .parameter .indentWidth, .flag .indentTabs, .parameter .accessLevel,
        .flag .namespaceUnderDevice, .flag .instanceMemberPeripherals, .parameter .deviceName])]

/-- The pieces of the summary of the command line, which are kept on a line each. -/
def pieces : List String :=
  let optional (s : Setting) : String := s.withPlaceholder (s.spellings.headD "")
  let bracketed (text : String) : String := "[" ++ text ++ "]"
  let required (p : Parameter) : List String :=
    [(Setting.parameter p).spellings.headD "", p.placeholder]
  [bracketed (optional (.flag .help)), bracketed (optional (.flag .verbose))] ++
    required .input ++
    [bracketed (optional (.flag .noValidateDerivations)),
      bracketed (optional (.parameter .peripheral))] ++
    required .output ++
    [bracketed (optional (.parameter .indentWidth) ++ " | " ++ optional (.flag .indentTabs)),
      bracketed (optional (.parameter .accessLevel)),
      bracketed (optional (.flag .namespaceUnderDevice)),
      bracketed (optional (.flag .instanceMemberPeripherals)),
      bracketed (optional (.parameter .deviceName))]

def usage : List String :=
  let opening := "usage: " ++ programName ++ " "
  match fill (lineWidth - opening.length) pieces with
  | [] => []
  | line :: lines => (opening ++ line) :: lines.map (indented opening.length)

def entry (s : Setting) : List String :=
  let heading := indented 2 (", ".intercalate (s.spellings.map s.withPlaceholder))
  let lines := fill (lineWidth - column) ((ofSetting s).splitOn " ")
  match lines with
  | [] => [heading]
  | line :: others =>
      if heading.length + 2 ≤ column then
        (padded column heading ++ line) :: others.map (indented column)
      else heading :: lines.map (indented column)

def group (title : String) (settings : List Setting) : List String :=
  "" :: (title ++ ":") :: settings.flatMap entry

def lines : List String :=
  usage ++ "" :: fill lineWidth (purpose.splitOn " ") ++
    groups.flatMap fun (title, settings) => group title settings

end Help

def textOfLines (lines : List String) : String :=
  String.join (lines.map (· ++ "\n"))

def helpText : String := textOfLines Help.lines

end RegisterMap.CommandLine
