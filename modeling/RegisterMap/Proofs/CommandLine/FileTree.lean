import Mathlib.Data.List.Infix
import Mathlib.Logic.Function.Basic
import RegisterMap.Main
import RegisterMap.Proofs.Swift.Identifier
import RegisterMap.Proofs.Swift.UnitStore

/-!
# Files in a directory

Files are written one after the other, each with the directories that lead to it, unless
something else is in their place.  Units that are named after types are all written to a
directory that takes such files.  It then holds them like a store does: the last unit of
a name, and nothing else is touched.
-/

namespace RegisterMap.CommandLine

open RegisterMap.Swift

/-! ## Paths -/

namespace Path

/-- The entry of a directory with a name. -/
def child (directory : Path) (name : String) : Path :=
  ⟨directory.start, directory.parts ++ [name]⟩

/-- A directory and all directories that lead to it. -/
def way (directory : Path) : List Path :=
  directory.parts.inits.map (Path.mk directory.start)

theorem child_inj {directory : Path} {a b : String} :
    directory.child a = directory.child b ↔ a = b := by
  simp [child]

theorem parentOf_child (directory : Path) (name : String) :
    Program.parentOf (directory.child name) = directory := by
  simp [Program.parentOf, child]

theorem child_ne_of_mem_way {p directory : Path} (h : p ∈ directory.way) (name : String) :
    p ≠ directory.child name := by
  intro heq
  rcases List.mem_map.mp h with ⟨parts, hparts, rfl⟩
  have hlength : parts.length ≤ directory.parts.length :=
    ((List.mem_inits parts directory.parts).mp hparts).length_le
  have hlonger : parts.length = directory.parts.length + 1 := by
    rw [(Path.mk.inj heq).2, List.length_append, List.length_singleton]
  omega

/-- True of a name that an entry of a directory can have. -/
structure IsEntryName (name : String) : Prop where
  nonempty : name ≠ ""
  noSlash : '/' ∉ name.toList
  notHere : name ≠ "."
  notAbove : name ≠ ".."

/-- The name of an entry, taken as a path, stays in its directory. -/
theorem within_ofText_of_isEntryName {name : String} (h : IsEntryName name) (directory : Path) :
    directory.within (.ofText name) = directory.child name := by
  have hstart : Start.ofText name.toList = .here := by
    unfold Start.ofText
    split
    · rename_i rest hslash
      exact absurd (hslash ▸ List.mem_cons_self) h.noSlash
    · rename_i rest _ hslash
      exact absurd (hslash ▸ List.mem_cons_self) h.noSlash
    · rename_i rest _ _ hslash
      exact absurd (hslash ▸ List.mem_cons_self) h.noSlash
    · rfl
  have hstep : isStep name.toList = true := by
    have hempty : name.toList ≠ [] := fun hnil => h.nonempty (String.toList_eq_nil_iff.mp hnil)
    have hdot : name.toList ≠ ['.'] := fun hdot => h.notHere (String.toList_inj.mp hdot)
    simp [isStep, hempty, hdot]
  have htext : ofText name = ⟨.here, [name]⟩ := by
    rw [ofText, hstart, splitSlashes_of_not_mem h.noSlash]
    simp [hstep]
  rw [htext, within_of_here rfl, child]

end Path

/-- True of the name of a file that is named after a type. -/
def IsSourceName (name : String) : Prop :=
  ∃ typeName, IsName typeName ∧ name = typeName ++ ".swift"

theorem IsSourceName.isEntryName {name : String} (h : IsSourceName name) :
    Path.IsEntryName name := by
  rcases h with ⟨typeName, htype, rfl⟩
  have hlonger {name : String} (hname : name.length < 6) : typeName ++ ".swift" ≠ name := by
    intro heq
    have hlength := congrArg String.length heq
    rw [String.length_append] at hlength
    have hsuffix : ".swift".length = 6 := rfl
    omega
  constructor
  case nonempty => exact hlonger (by decide)
  case noSlash =>
    intro hslash
    rw [String.toList_append] at hslash
    rcases List.mem_append.mp hslash with hname | hsuffix
    · exact absurd (List.all_eq_true.mp htype '/' hname) (by decide)
    · exact absurd hsuffix (by decide)
  case notHere => exact hlonger (by decide)
  case notAbove => exact hlonger (by decide)

/-! ## File trees -/

/-- The directories and the files of a file system. -/
structure FileTree where
  isDirectory : Path → Bool
  contents : Path → Option ByteArray

namespace FileTree

/-- The tree with a file in it and the directories that lead to it. -/
def put (tree : FileTree) (file : File) : FileTree where
  isDirectory path := tree.isDirectory path || path ∈ (Program.parentOf file.path).way
  contents := Function.update tree.contents file.path (some file.contents)

/-- Write a file.  It needs its directories, where no file may be, and its own place, where
no directory may be. -/
def write? (tree : FileTree) (file : File) : Option FileTree :=
  if (Program.parentOf file.path).way.all (fun path => (tree.contents path).isNone) &&
      !tree.isDirectory file.path then
    some (tree.put file)
  else none

def writeAll? (tree : FileTree) (files : List File) : Option FileTree :=
  files.foldlM write? tree

/-- True of a directory that takes every file that is named after a type. -/
structure IsWritable (tree : FileTree) (directory : Path) : Prop where
  noFile : ∀ path ∈ directory.way, tree.contents path = none
  noDirectory : ∀ name, IsSourceName name → tree.isDirectory (directory.child name) = false

/-- True of a tree that differs from an earlier one in the units that a directory got. -/
structure Receives (before : FileTree) (directory : Path) (units : List SourceUnit)
    (after : FileTree) : Prop where
  names : (units.map (·.name)).Nodup
  entries : ∀ unit ∈ units, Path.IsEntryName unit.name
  /-- Each unit is a file of its own in the directory. -/
  files : ∀ unit ∈ units, after.contents (directory.child unit.name) = some unit.text.toUTF8
  others : ∀ path, (∀ unit ∈ units, path ≠ directory.child unit.name) →
    after.contents path = before.contents path
  directories : ∀ path, after.isDirectory path =
    (before.isDirectory path || (!units.isEmpty && path ∈ directory.way))

theorem receives_nil (tree : FileTree) (directory : Path) : tree.Receives directory [] tree where
  names := List.nodup_nil
  entries := by simp
  files := by simp
  others := by simp
  directories := by simp

theorem contents_put_self (tree : FileTree) (file : File) :
    (tree.put file).contents file.path = some file.contents :=
  Function.update_self ..

theorem contents_put_of_ne (tree : FileTree) {file : File} {path : Path}
    (h : path ≠ file.path) : (tree.put file).contents path = tree.contents path :=
  Function.update_of_ne h ..

theorem isDirectory_put (tree : FileTree) (file : File) (path : Path) :
    (tree.put file).isDirectory path =
      (tree.isDirectory path || path ∈ (Program.parentOf file.path).way) := rfl

section Child

variable {tree : FileTree} {directory : Path} {name : String}

theorem IsWritable.write? (h : tree.IsWritable directory) (hname : IsSourceName name)
    (contents : ByteArray) :
    tree.write? ⟨directory.child name, contents⟩ =
      some (tree.put ⟨directory.child name, contents⟩) := by
  have hfree : (Program.parentOf (directory.child name)).way.all
      (fun path => (tree.contents path).isNone) = true := by
    rw [Path.parentOf_child, List.all_eq_true]
    intro path hpath
    rw [h.noFile path hpath]
    rfl
  rw [FileTree.write?, hfree, h.noDirectory name hname]
  rfl

/-- A directory that got a file still takes every file. -/
theorem IsWritable.put (h : tree.IsWritable directory) (name : String) (contents : ByteArray) :
    (tree.put ⟨directory.child name, contents⟩).IsWritable directory where
  noFile path hpath := by
    rw [contents_put_of_ne tree (Path.child_ne_of_mem_way hpath name)]
    exact h.noFile path hpath
  noDirectory other hother := by
    have hway : directory.child other ∉ directory.way := fun hmem =>
      Path.child_ne_of_mem_way hmem other rfl
    rw [isDirectory_put, Path.parentOf_child, h.noDirectory other hother]
    simpa using hway

end Child

/-- Writing one more unit as a file is putting it into a store. -/
theorem Receives.put {before tree : FileTree} {directory : Path} {store : UnitStore}
    (h : before.Receives directory store.units tree) {unit : SourceUnit}
    (hname : Path.IsEntryName unit.name) :
    before.Receives directory (store.put unit).units
      (tree.put ⟨directory.child unit.name, unit.text.toUTF8⟩) := by
  have hmem {u : SourceUnit} :
      u ∈ (store.put unit).units ↔ u = unit ∨ u ∈ store.units ∧ u.name ≠ unit.name :=
    UnitStore.mem_units_put_iff h.names
  constructor
  case names => exact UnitStore.nodup_names_put h.names unit
  case entries =>
    intro u hu
    rcases hmem.mp hu with heq | hother
    · rw [heq]
      exact hname
    · exact h.entries u hother.1
  case files =>
    intro u hu
    rcases hmem.mp hu with heq | hother
    · rw [heq]
      exact contents_put_self ..
    · have hpath : directory.child u.name ≠ directory.child unit.name := by
        rw [Ne, Path.child_inj]
        exact hother.2
      rw [contents_put_of_ne tree hpath, h.files u hother.1]
  case others =>
    intro path hpath
    rw [contents_put_of_ne tree (hpath unit (hmem.mpr (.inl rfl)))]
    refine h.others path fun u hu => ?_
    by_cases hsame : u.name = unit.name
    · rw [hsame]
      exact hpath unit (hmem.mpr (.inl rfl))
    · exact hpath u (hmem.mpr (.inr ⟨hu, hsame⟩))
  case directories =>
    intro path
    have hsome : (store.put unit).units.isEmpty = false := by
      have hunit : unit ∈ (store.put unit).units := hmem.mpr (.inl rfl)
      exact List.isEmpty_eq_false_iff_exists_mem.mpr ⟨unit, hunit⟩
    rw [isDirectory_put, Path.parentOf_child, h.directories path, hsome]
    by_cases hway : path ∈ directory.way <;> simp [hway]

/-- Units that are written as files are found as in a store that they are put into. -/
theorem receives_writeAll? {tree : FileTree} {directory : Path}
    (hwritable : tree.IsWritable directory) {units : List SourceUnit}
    (hnames : ∀ unit ∈ units, IsSourceName unit.name) :
    ∃ after,
      tree.writeAll? (units.map fun unit =>
        ⟨directory.within (.ofText unit.name), unit.text.toUTF8⟩) = some after ∧
      tree.Receives directory (UnitStore.ofUnits units).units after := by
  suffices hrun : ∀ (store : UnitStore) (now : FileTree),
      now.IsWritable directory → tree.Receives directory store.units now →
      ∃ after,
        now.writeAll? (units.map fun unit =>
          ⟨directory.within (.ofText unit.name), unit.text.toUTF8⟩) = some after ∧
        tree.Receives directory (units.foldl UnitStore.put store).units after from
    hrun {} tree hwritable (tree.receives_nil directory)
  induction units with
  | nil =>
      intro store now _ h
      exact ⟨now, rfl, h⟩
  | cons unit units ih =>
      intro store now hwritable h
      have hname := hnames unit List.mem_cons_self
      rcases ih (fun u hu => hnames u (List.mem_cons_of_mem unit hu)) (store.put unit) _
          (hwritable.put unit.name unit.text.toUTF8) (h.put hname.isEntryName) with
        ⟨after, hafter, hreceives⟩
      refine ⟨after, ?_, hreceives⟩
      rw [List.map_cons, writeAll?, List.foldlM_cons,
        Path.within_ofText_of_isEntryName hname.isEntryName, hwritable.write? hname]
      exact hafter

end FileTree

end RegisterMap.CommandLine
