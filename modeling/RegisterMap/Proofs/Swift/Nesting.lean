import RegisterMap.Proofs.Swift.LaidLines
import RegisterMap.Proofs.Swift.PlainText

/-!
# Nesting

Source text is read back line by line: a line that ends in an opening brace begins a
block, a closing brace alone on a line ends one, and comments do neither.  Text that
is laid out well keeps every line behind the indentation of the blocks around it and
ends all blocks that it begins.
-/

namespace RegisterMap.Swift

open RegisterMap.Text

/-! ## Lines read back -/

/-- True of a line whose first visible characters are those of a documentation comment. -/
def isComment (line : List Char) : Bool :=
  ['/', '/', '/'].isPrefixOf (line.dropWhile isBlank)

/-- What a line is to the blocks around it. -/
inductive LineKind where
  | blank
  | comment
  | opening
  | closing
  | plain
  deriving DecidableEq, Repr

def lineKind (line : List Char) : LineKind :=
  if line.all isBlank then .blank
  else if isComment line then .comment
  else if strip line = ['\x7d'] then .closing
  else if line.getLast? = some '\x7b' then .opening
  else .plain

/-- True of a line with just a number of indentations in front of its first visible character. -/
def standsAt (indentation : List Char) (depth : Nat) (line : List Char) : Bool :=
  (marginAt indentation depth).isPrefixOf line &&
    (line.drop (marginAt indentation depth).length).head?.any fun c => !isBlank c

/--
The number of open blocks after a line, if the line stands where it should: behind the
indentation of the blocks that are open before and after it.
-/
def depthAfter? (indentation : List Char) (depth : Nat) (line : List Char) : Option Nat :=
  match lineKind line, depth with
  | .blank, depth => some depth
  | .comment, depth | .plain, depth => if standsAt indentation depth line then some depth else none
  | .opening, depth => if standsAt indentation depth line then some (depth + 1) else none
  | .closing, 0 => none
  | .closing, outer + 1 => if standsAt indentation outer line then some outer else none

/-- True of a text in which the line feed ends every line and blocks are nested. -/
structure WellLaid (indentation text : String) : Prop where
  ended : text.toList = (lines text.toList).flatMap (· ++ ['\n'])
  nested : (lines text.toList).foldlM (depthAfter? indentation.toList) 0 = some 0

/-! ## Lines behind a margin -/

theorem dropWhile_isBlank_append {front : List Char} (h : ∀ c ∈ front, isBlank c = true) {c : Char}
    (hc : isBlank c = false) (rest : List Char) :
    (front ++ c :: rest).dropWhile isBlank = c :: rest := by
  rw [List.dropWhile_append_of_pos h, List.dropWhile_cons_of_neg (by simp [hc])]

/-- A margin does not change what a line is. -/
theorem lineKind_append {front : List Char} (h : ∀ c ∈ front, isBlank c = true) {c : Char}
    (hc : isBlank c = false) (rest : List Char) :
    lineKind (front ++ c :: rest) = lineKind (c :: rest) := by
  have hdrop := dropWhile_isBlank_append h hc rest
  have hself : (c :: rest).dropWhile isBlank = c :: rest :=
    List.dropWhile_cons_of_neg (by simp [hc])
  simp only [lineKind, isComment, strip, hdrop, hself, List.all_append, List.all_cons, hc,
    Bool.false_and, Bool.and_false, List.getLast?_append_cons]

theorem standsAt_marginAt (indentation : List Char) (depth : Nat) {c : Char}
    (hc : isBlank c = false) (rest : List Char) :
    standsAt indentation depth (marginAt indentation depth ++ c :: rest) = true := by
  simp [standsAt, hc]

/-! ## Lines by kind -/

/-- True of an indentation of spaces and tabs. -/
def IsIndentation (indentation : String) : Prop :=
  ∀ c ∈ indentation.toList, c = ' ' ∨ c = '\t'

-- The characters of the text are tried, where the library would try all characters there are.
instance : DecidablePred IsIndentation :=
  fun indentation => List.decidableBAll (fun c => c = ' ' ∨ c = '\t') indentation.toList

theorem IsIndentation.isBlank {indentation : String} (h : IsIndentation indentation) {c : Char}
    (hc : c ∈ indentation.toList) : Text.isBlank c = true := by
  rcases h c hc with rfl | rfl <;> decide

theorem IsIndentation.isLineSeparator {indentation : String} (h : IsIndentation indentation)
    {c : Char} (hc : c ∈ indentation.toList) : Text.isLineSeparator c = false := by
  rcases h c hc with rfl | rfl <;> decide

/-- True of a text without line separators. -/
def IsSingle (text : String) : Prop :=
  ∀ c ∈ text.toList, isLineSeparator c = false

instance : DecidablePred IsSingle :=
  fun text => List.decidableBAll (fun c => isLineSeparator c = false) text.toList

/-- True of a single line of a kind that begins with something visible. -/
structure HasKind (kind : LineKind) (line : String) : Prop where
  single : IsSingle line
  visible : ∃ c rest, line.toList = c :: rest ∧ isBlank c = false
  kind : lineKind line.toList = kind

theorem HasKind.isLine {kind : LineKind} {line : String} (h : HasKind kind line) :
    IsLine line := by
  rcases h.visible with ⟨c, rest, hline, hc⟩
  exact ⟨h.single, by simp [hline, hc]⟩

/-- True of a line that neither begins nor ends a block. -/
def IsFlat (line : String) : Prop :=
  line = "" ∨ HasKind .comment line ∨ HasKind .plain line

/-- Lines that lead from a number of open blocks to another one. -/
structure Leads (indentation : String) (lines : List (List Char)) (depth next : Nat) : Prop where
  ended : ∀ line ∈ lines, line = withoutEnd line ++ ['\n']
  depth : (lines.map withoutEnd).foldlM (depthAfter? indentation.toList) depth = some next

namespace Leads

variable {indentation : String} {depth next last : Nat}

theorem nil : Leads indentation [] depth depth :=
  ⟨by simp, rfl⟩

theorem append {xs ys : List (List Char)} (hx : Leads indentation xs depth next)
    (hy : Leads indentation ys next last) : Leads indentation (xs ++ ys) depth last := by
  constructor
  · intro line hline
    rcases List.mem_append.mp hline with hline | hline
    · exact hx.ended line hline
    · exact hy.ended line hline
  · rw [List.map_append, List.foldlM_append, hx.depth]
    exact hy.depth

theorem flatMap {α : Type} {f : α → List (List Char)} {xs : List α}
    (h : ∀ x ∈ xs, Leads indentation (f x) depth depth) :
    Leads indentation (xs.flatMap f) depth depth := by
  induction xs with
  | nil => exact nil
  | cons x xs ih =>
      rw [List.forall_mem_cons] at h
      exact h.1.append (ih h.2)

end Leads

namespace Code

variable {indentation : String} {depth : Nat}

theorem withoutEnd_line {cs : List Char} (h : ∀ c ∈ cs, Text.isLineSeparator c = false) :
    withoutEnd (cs ++ ['\n']) = cs := by
  have hcs : cs.filter (fun c => !Text.isLineSeparator c) = cs :=
    List.filter_eq_self.mpr fun c hc => by simp [h c hc]
  rw [withoutEnd, List.filter_append, hcs]
  exact List.append_nil cs

/-- A line leads to the depth that its kind asks for, if it is laid out where it should be. -/
theorem leads_line (hindent : IsIndentation indentation) {kind : LineKind} {line : String}
    (h : HasKind kind line) {before after at' : Nat}
    (hdepth : ∀ cs, lineKind cs = kind → standsAt indentation.toList at' cs = true →
      depthAfter? indentation.toList before cs = some after) :
    Leads indentation (linesAt indentation at' [.lines line]) before after := by
  rcases h.visible with ⟨c, rest, hline, hc⟩
  have hblank : ∀ c ∈ marginAt indentation.toList at', isBlank c = true :=
    fun c hc => hindent.isBlank (mem_of_mem_marginAt hc)
  have hsingle : ∀ d ∈ marginAt indentation.toList at' ++ line.toList,
      Text.isLineSeparator d = false := by
    intro d hd
    rcases List.mem_append.mp hd with hd | hd
    · exact hindent.isLineSeparator (mem_of_mem_marginAt hd)
    · exact h.single d hd
  have hlines : linesAt indentation at' [.lines line] =
      [marginAt indentation.toList at' ++ line.toList ++ ['\n']] :=
    linesAt_line h.isLine fun _ hc => hindent.isLineSeparator hc
  have hkind : lineKind (marginAt indentation.toList at' ++ line.toList) = kind := by
    rw [hline, lineKind_append hblank hc, ← hline, h.kind]
  have hstands : standsAt indentation.toList at' (marginAt indentation.toList at' ++ line.toList) =
      true := by
    rw [hline]
    exact standsAt_marginAt _ _ hc rest
  rw [hlines]
  constructor
  · intro l hl
    obtain rfl := List.mem_singleton.mp hl
    rw [withoutEnd_line hsingle]
  · rw [List.map_singleton, withoutEnd_line hsingle, List.foldlM_cons, hdepth _ hkind hstands]
    rfl

theorem leads_flat (hindent : IsIndentation indentation) {line : String} (h : IsFlat line) :
    Leads indentation (linesAt indentation depth [.lines line]) depth depth := by
  rcases h with rfl | h | h
  · rw [linesAt_empty]
    exact ⟨by decide, rfl⟩
  · refine leads_line hindent h fun cs hkind hstands => ?_
    simp [depthAfter?, hkind, hstands]
  · refine leads_line hindent h fun cs hkind hstands => ?_
    simp [depthAfter?, hkind, hstands]

theorem leads_opening (hindent : IsIndentation indentation) {line : String}
    (h : HasKind .opening line) :
    Leads indentation (linesAt indentation depth [.lines line]) depth (depth + 1) := by
  refine leads_line hindent h fun cs hkind hstands => ?_
  simp [depthAfter?, hkind, hstands]

theorem hasKind_closing : HasKind .closing "\x7d" :=
  ⟨by decide, ⟨'\x7d', [], rfl, by decide⟩, by decide⟩

theorem leads_closing (hindent : IsIndentation indentation) :
    Leads indentation (linesAt indentation depth [.lines "\x7d"]) (depth + 1) depth := by
  refine leads_line hindent hasKind_closing fun cs hkind hstands => ?_
  simp [depthAfter?, hkind, hstands]

/-! ## Nested code -/

/-- True of code that ends the blocks that it begins, at whatever depth it stands. -/
def Nested (indentation : String) (codes : List Code) : Prop :=
  ∀ depth, Leads indentation (linesAt indentation depth codes) depth depth

namespace Nested

theorem nil : Nested indentation [] :=
  fun _ => .nil

theorem append {front back : List Code} (hfront : Nested indentation front)
    (hback : Nested indentation back) : Nested indentation (front ++ back) := by
  intro depth
  rw [linesAt_append]
  exact (hfront depth).append (hback depth)

theorem cons {code : Code} {codes : List Code} (hcode : Nested indentation [code])
    (hcodes : Nested indentation codes) : Nested indentation (code :: codes) :=
  hcode.append hcodes

theorem flatten {pieces : List (List Code)} (h : ∀ piece ∈ pieces, Nested indentation piece) :
    Nested indentation pieces.flatten := by
  induction pieces with
  | nil => exact nil
  | cons piece pieces ih =>
      rw [List.forall_mem_cons] at h
      exact h.1.append (ih h.2)

theorem lines (hindent : IsIndentation indentation) {lines : List String} (hne : lines ≠ [])
    (h : ∀ line ∈ lines, IsFlat line) : Nested indentation [.lines (joinLines lines)] := by
  intro depth
  rw [linesAt_joinLines hne]
  exact .flatMap fun line hline => leads_flat hindent (h line hline)

theorem block (hindent : IsIndentation indentation) (front : List String) {last : String}
    {body : List Code} (hfront : ∀ line ∈ front, IsFlat line) (hlast : HasKind .opening last)
    (hbody : Nested indentation body) :
    Nested indentation [.block (joinLines (front ++ [last])) body] := by
  intro depth
  have hheading : Leads indentation
      (linesAt indentation depth [.lines (joinLines (front ++ [last]))]) depth (depth + 1) := by
    rw [linesAt_joinLines (by simp), List.flatMap_append, List.flatMap_singleton]
    exact (Leads.flatMap fun line hline => leads_flat hindent (hfront line hline)).append
      (leads_opening hindent hlast)
  rw [linesAt_block]
  exact (hheading.append (hbody (depth + 1))).append (leads_closing hindent)

theorem blankLine (hindent : IsIndentation indentation) : Nested indentation [blankLine] :=
  fun _ => leads_flat hindent (.inl rfl)

theorem spaced (hindent : IsIndentation indentation) {pieces : List (List Code)}
    (h : ∀ piece ∈ pieces, Nested indentation piece) : Nested indentation (spaced pieces) := by
  refine flatten fun piece hpiece => ?_
  rcases eq_or_mem_of_mem_intersperse hpiece with rfl | hpiece
  · exact blankLine hindent
  · exact h piece hpiece

end Nested

/-- Nested code makes a text that is laid out well. -/
theorem Nested.wellLaid {codes : List Code} (h : Nested indentation codes) :
    WellLaid indentation (text indentation codes) := by
  have hlines : Text.lines (text indentation codes).toList =
      (linesAt indentation 0 codes).map withoutEnd := rfl
  refine ⟨?_, ?_⟩
  · have hended : ((linesAt indentation 0 codes).map withoutEnd).flatMap (· ++ ['\n']) =
        (linesAt indentation 0 codes).flatten := by
      rw [List.flatMap_map, ← List.flatMap_id']
      exact List.flatMap_congr fun line hline => ((h 0).ended line hline).symm
    rw [hlines, hended]
    exact (flatten_linesWithEnds _).symm
  · rw [hlines]
    exact (h 0).depth

end Code

end RegisterMap.Swift
