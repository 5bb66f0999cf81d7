import RegisterMap.CommandLine.Response

/-!
# The program

Reads the input file, prints and writes what the response says.
-/

open RegisterMap.CommandLine

namespace RegisterMap.Program

def readContents? (path : Path) : IO (Option (List UInt8)) := do
  try
    let bytes ← IO.FS.readBinFile path.text
    return some bytes.toList
  catch _ => return none

def parentOf (path : Path) : Path :=
  ⟨path.start, path.parts.dropLast⟩

def writeFile (file : File) : IO Unit := do
  IO.FS.createDirAll (parentOf file.path).text
  IO.FS.writeBinFile file.path.text file.contents

end RegisterMap.Program

open RegisterMap.Program

def main (arguments : List String) : IO UInt32 := do
  let command := Command.ofArguments arguments
  let contents? ← match inputOf? command with
    | some path => readContents? path
    | none => pure none
  let directory := Path.ofText (← IO.currentDir).toString
  -- Arguments have only characters here: bytes that are part of none were replaced before.
  let response := respond command [] directory contents?
  IO.print response.outputText
  IO.eprint response.usageText
  for entry in response.log do
    IO.eprintln entry.message
  for file in response.files do
    writeFile file
  return response.exitCode.toUInt32
