/-!
# Paths

A path is where it starts and the parts between its slashes.  Empty parts and
single dots say nothing and are left out, so two spellings of a path that differ
in them alone are the same path.
-/

namespace RegisterMap.CommandLine

inductive Start where
  | here
  | root
  /-- At the root, written with exactly two slashes. -/
  | doubleRoot
  deriving DecidableEq, Repr

def Start.text : Start → String
  | here => ""
  | root => "/"
  | doubleRoot => "//"

def Start.ofText : List Char → Start
  | '/' :: '/' :: '/' :: _ => root
  | '/' :: '/' :: _ => doubleRoot
  | '/' :: _ => root
  | _ => here

/-- A place in a file system. -/
structure Path where
  start : Start
  parts : List String
  deriving DecidableEq, Repr

namespace Path

def splitSlashes : List Char → List (List Char)
  | [] => [[]]
  | c :: cs =>
      if c = '/' then [] :: splitSlashes cs
      else
        match splitSlashes cs with
        | [] => [[c]]
        | part :: parts => (c :: part) :: parts

def isStep (part : List Char) : Bool :=
  !(part.isEmpty || part == ['.'])

def ofText (s : String) : Path :=
  ⟨Start.ofText s.toList, ((splitSlashes s.toList).filter isStep).map String.ofList⟩

/-- The shortest spelling of a path. -/
def text (p : Path) : String :=
  match p.start, p.parts with
  | .here, [] => "."
  | start, parts => start.text ++ "/".intercalate parts

def within (directory p : Path) : Path :=
  match p.start with
  | .here => ⟨directory.start, directory.parts ++ p.parts⟩
  | _ => p

/-! ## Laws -/

theorem within_of_here {p : Path} (h : p.start = .here) (directory : Path) :
    directory.within p = ⟨directory.start, directory.parts ++ p.parts⟩ := by
  simp [within, h]

theorem splitSlashes_of_not_mem {cs : List Char} (h : '/' ∉ cs) : splitSlashes cs = [cs] := by
  induction cs with
  | nil => rfl
  | cons c cs ih =>
      simp only [List.mem_cons, not_or] at h
      simp [splitSlashes, Ne.symm h.1, ih h.2]

end Path

end RegisterMap.CommandLine
