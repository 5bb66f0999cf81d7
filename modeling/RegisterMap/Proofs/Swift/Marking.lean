import Mathlib.Data.List.Forall2
import RegisterMap.Proofs.Swift.SourceLine

/-!
# Marked declarations

A mark goes in front of every declaration of a text: behind the spaces and tabs of the
lines that begin with the word of a declaration, and nowhere else.  Code is marked as a
whole if its lines are, at whatever depth it is laid out.
-/

namespace RegisterMap.Swift

open RegisterMap.Text

/-! ## Marked text -/

def declarationWords : List String :=
  ["struct", "enum", "typealias", "var", "let", "static let"]

def beginsDeclaration (cs : List Char) : Bool :=
  declarationWords.any fun word => word.toList.isPrefixOf cs

/-- True of the characters of an indentation. -/
def isMargin (c : Char) : Bool :=
  c == ' ' || c == '\t'

/-- A line with a mark behind its indentation, if a declaration begins there. -/
def markLine (mark line : List Char) : List Char :=
  if beginsDeclaration (line.dropWhile isMargin) then
    line.takeWhile isMargin ++ mark ++ line.dropWhile isMargin
  else line

/-- A text with a mark in front of each of its declarations. -/
def markText (mark text : String) : String :=
  String.ofList ((linesWithEnds text.toList).flatMap (markLine mark.toList))

def SourceUnit.marked (mark : String) (unit : SourceUnit) : SourceUnit :=
  { unit with text := markText mark unit.text }

/-- A subject with a mark in front of its modifiers. -/
def Subject.marked (mark : String) (subject : Subject) : Subject :=
  { subject with modifiers := mark ++ subject.modifiers }

/-! ## Beginnings of lines -/

theorem declarationWords_eq : declarationWords.map String.toList =
    [['s', 't', 'r', 'u', 'c', 't'], ['e', 'n', 'u', 'm'],
      ['t', 'y', 'p', 'e', 'a', 'l', 'i', 'a', 's'], ['v', 'a', 'r'], ['l', 'e', 't'],
      ['s', 't', 'a', 't', 'i', 'c', ' ', 'l', 'e', 't']] := by
  decide

theorem beginsDeclaration_eq (cs : List Char) :
    beginsDeclaration cs = (declarationWords.map String.toList).any (List.isPrefixOf · cs) := by
  rw [beginsDeclaration, List.any_map]
  rfl

theorem beginsDeclaration_append {cs : List Char} (h : beginsDeclaration cs = true)
    (more : List Char) : beginsDeclaration (cs ++ more) = true := by
  rcases List.any_eq_true.mp h with ⟨word, hword, hprefix⟩
  refine List.any_eq_true.mpr ⟨word, hword, ?_⟩
  rw [List.isPrefixOf_iff_prefix] at hprefix ⊢
  exact hprefix.trans (List.prefix_append cs more)

theorem beginsDeclaration_more {line : String} (h : beginsDeclaration line.toList = true)
    (more : String) : beginsDeclaration (line ++ more).toList = true := by
  rw [String.toList_append]
  exact beginsDeclaration_append h more.toList

theorem isMargin_eq_false {c : Char} (h : isBlank c = false) : isMargin c = false := by
  by_contra hmargin
  rw [Bool.not_eq_false, isMargin, Bool.or_eq_true, beq_iff_eq, beq_iff_eq] at hmargin
  rcases hmargin with rfl | rfl <;> cases h

theorem markLine_append {mark front : List Char} (hfront : ∀ c ∈ front, isMargin c = true)
    {c : Char} (hc : isMargin c = false) (rest : List Char) :
    markLine mark (front ++ c :: rest) =
      if beginsDeclaration (c :: rest) then front ++ mark ++ c :: rest
      else front ++ c :: rest := by
  have hdrop : (front ++ c :: rest).dropWhile isMargin = c :: rest := by
    rw [List.dropWhile_append_of_pos hfront, List.dropWhile_cons_of_neg (by simp [hc])]
  have htake : (front ++ c :: rest).takeWhile isMargin = front := by
    rw [List.takeWhile_append_of_pos hfront, List.takeWhile_cons_of_neg (by simp [hc]),
      List.append_nil]
  rw [markLine, hdrop, htake]

/-- True of a line that declares something. -/
structure IsDeclaration (line : String) : Prop where
  kind : ∃ kind, HasKind kind line
  begins : beginsDeclaration line.toList = true

/-- True of a line, empty or not, that declares nothing. -/
structure IsOther (line : String) : Prop where
  kind : line = "" ∨ ∃ kind, HasKind kind line
  begins : beginsDeclaration (line.toList ++ ['\n']) = false

theorem IsFlat.exists_kind {line : String} (h : IsFlat line) :
    line = "" ∨ ∃ kind, HasKind kind line := by
  rcases h with h | h | h
  · exact .inl h
  · exact .inr ⟨_, h⟩
  · exact .inr ⟨_, h⟩

theorem IsFlat.isDeclaration {line : String} (h : IsFlat line)
    (hbegins : beginsDeclaration line.toList = true) : IsDeclaration line := by
  refine ⟨h.exists_kind.resolve_left ?_, hbegins⟩
  rintro rfl
  exact absurd hbegins (by decide)

theorem isOther_empty : IsOther "" :=
  ⟨.inl rfl, by decide⟩

/-- No word of a declaration begins like an attribute. -/
theorem isOther_attribute {line : String} (h : IsFlat line)
    (hat : line.toList.head? = some '@') : IsOther line := by
  refine ⟨h.exists_kind, ?_⟩
  rcases List.head?_eq_some_iff.mp hat with ⟨rest, hline⟩
  rw [beginsDeclaration_eq, declarationWords_eq, hline]
  rfl

theorem isOther_comment {description : Option String} {line : String}
    (h : line ∈ docComment description) : IsOther line := by
  refine ⟨.inr ⟨_, hasKind_comment h⟩, ?_⟩
  rcases mem_docComment h with ⟨cs, rfl, -⟩
  rw [beginsDeclaration_eq, declarationWords_eq, String.toList_append]
  rfl

theorem isOther_closing : IsOther "\x7d" :=
  ⟨.inr ⟨_, Code.hasKind_closing⟩, by decide⟩

/-! ## Marked code -/

namespace Code

/-- True of code and of the same code with marks, whatever depth they are laid out at. -/
def Marks (indentation mark : String) (codes marked : List Code) : Prop :=
  ∀ depth, linesAt indentation depth marked =
    (linesAt indentation depth codes).map (markLine mark.toList)

/-- True of a piece of text and of the same piece with marks. -/
def MarksText (indentation mark text marked : String) : Prop :=
  Marks indentation mark [.lines text] [.lines marked]

end Code

/-- True of a mark that is seen and does not end the line. -/
structure IsMark (mark : String) : Prop where
  single : IsSingle mark
  visible : StartsVisible mark

variable {indentation mark : String}

theorem all_isMargin_marginAt (hindent : IsIndentation indentation) (depth : Nat) :
    ∀ c ∈ marginAt indentation.toList depth, isMargin c = true := by
  intro c hc
  rcases hindent c (mem_of_mem_marginAt hc) with rfl | rfl <;> rfl

theorem IsOther.marksText (hindent : IsIndentation indentation) {line : String}
    (h : IsOther line) : Code.MarksText indentation mark line line := by
  intro depth
  rcases h.kind with rfl | ⟨kind, hkind⟩
  · rw [Code.linesAt_empty]
    rfl
  · rcases hkind.visible with ⟨c, rest, hline, hc⟩
    have hbegins := h.begins
    rw [hline, List.cons_append] at hbegins
    rw [Code.linesAt_line hkind.isLine fun _ hc => hindent.isLineSeparator hc, List.map_singleton,
      hline, List.append_assoc, List.cons_append,
      markLine_append (all_isMargin_marginAt hindent depth) (isMargin_eq_false hc), hbegins]
    rfl

theorem IsDeclaration.marksText (hindent : IsIndentation indentation) (hmark : IsMark mark)
    {line : String} (h : IsDeclaration line) :
    Code.MarksText indentation mark line (mark ++ line) := by
  intro depth
  rcases h.kind with ⟨kind, hkind⟩
  rcases hkind.visible with ⟨c, rest, hline, hc⟩
  have hmarked : IsLine (mark ++ line) := by
    rcases (hmark.visible.append line).exists_cons with ⟨d, more, heq, hd⟩
    exact ⟨isSingle_append.mpr ⟨hmark.single, hkind.single⟩, by simp [heq, hd]⟩
  have hbegins := beginsDeclaration_append h.begins ['\n']
  rw [hline, List.cons_append] at hbegins
  have hplain : marginAt indentation.toList depth ++ (c :: rest) ++ ['\n'] =
      marginAt indentation.toList depth ++ c :: (rest ++ ['\n']) := by simp
  rw [Code.linesAt_line hmarked fun _ hc => hindent.isLineSeparator hc,
    Code.linesAt_line hkind.isLine fun _ hc => hindent.isLineSeparator hc, List.map_singleton,
    String.toList_append, hline, hplain,
    markLine_append (all_isMargin_marginAt hindent depth) (isMargin_eq_false hc), hbegins]
  simp

/-! ## Code put together -/

namespace Code.Marks

open Code

variable {front front' back back' : List Code}

theorem append (hfront : Marks indentation mark front front')
    (hback : Marks indentation mark back back') :
    Marks indentation mark (front ++ back) (front' ++ back') := by
  intro depth
  rw [linesAt_append, linesAt_append, List.map_append, hfront depth, hback depth]

theorem block {heading heading' : String} {body body' : List Code}
    (hindent : IsIndentation indentation) (hheading : MarksText indentation mark heading heading')
    (hbody : Marks indentation mark body body') :
    Marks indentation mark [.block heading body] [.block heading' body'] := by
  intro depth
  have hclosing : MarksText indentation mark "\x7d" "\x7d" := isOther_closing.marksText hindent
  rw [linesAt_block, linesAt_block, List.map_append, List.map_append, hheading depth,
    hbody (depth + 1), ← hclosing depth]

theorem spaced {pieces pieces' : List (List Code)} (hindent : IsIndentation indentation)
    (h : List.Forall₂ (Marks indentation mark) pieces pieces') :
    Marks indentation mark (spaced pieces) (spaced pieces') := by
  have hblank : Marks indentation mark [blankLine] [blankLine] := isOther_empty.marksText hindent
  induction h with
  | nil => exact fun _ => rfl
  | cons hpiece hpieces ih =>
      cases hpieces with
      | nil => simpa [Code.spaced] using hpiece
      | cons hnext hpieces =>
          simp only [Code.spaced] at ih ⊢
          rw [List.intercalate_cons_cons, List.intercalate_cons_cons]
          exact (hpiece.append hblank).append ih

theorem declarations {texts texts' : List String} (hindent : IsIndentation indentation)
    (h : List.Forall₂ (MarksText indentation mark) texts texts') :
    Marks indentation mark (declarations texts) (declarations texts') := by
  refine spaced hindent ?_
  rw [List.forall₂_map_left_iff, List.forall₂_map_right_iff]
  exact h

/-- Laid out in a unit, marked code is the text of the code with marks. -/
theorem text (h : Marks indentation mark front front') :
    text indentation front' = markText mark (text indentation front) := by
  have hlines := h 0
  rw [text_eq_textAt, text_eq_textAt, markText, ← linesAt, List.flatMap_def, ← hlines, linesAt,
    flatten_linesWithEnds, String.ofList_toList]

end Code.Marks

namespace Code.MarksText

open Code

theorem flatMap_linesAt {lines lines' : List String}
    (h : List.Forall₂ (MarksText indentation mark) lines lines') (depth : Nat) :
    (lines'.flatMap fun line => linesAt indentation depth [.lines line]) =
      (lines.flatMap fun line => linesAt indentation depth [.lines line]).map
        (markLine mark.toList) := by
  induction h with
  | nil => rfl
  | cons hline _ ih => rw [List.flatMap_cons, List.flatMap_cons, List.map_append, hline depth, ih]

theorem joinLines {lines lines' : List String} (hne : lines ≠ [])
    (h : List.Forall₂ (MarksText indentation mark) lines lines') :
    MarksText indentation mark (joinLines lines) (joinLines lines') := by
  intro depth
  have hne' : lines' ≠ [] := by
    rintro rfl
    cases h
    exact hne rfl
  rw [linesAt_joinLines hne, linesAt_joinLines hne', flatMap_linesAt h]

/-- The last of some documented lines is a declaration, and those above it are not. -/
theorem documented (hindent : IsIndentation indentation) (hmark : IsMark mark)
    (description : Option String) {front : List String} (hfront : ∀ line ∈ front, IsOther line)
    {line : String} (hline : IsDeclaration line) :
    MarksText indentation mark
      (Swift.joinLines (docComment description ++ (front ++ [line])))
      (Swift.joinLines (docComment description ++ (front ++ [mark ++ line]))) := by
  have hothers : ∀ line ∈ docComment description ++ front, IsOther line :=
    List.forall_mem_append.mpr ⟨fun _ h => isOther_comment h, hfront⟩
  have hlast : List.Forall₂ (MarksText indentation mark) [line] [mark ++ line] :=
    .cons (hline.marksText hindent hmark) .nil
  refine joinLines (by simp) ?_
  rw [← List.append_assoc, ← List.append_assoc]
  refine List.rel_append ?_ hlast
  exact List.forall₂_same.mpr fun l hl => (hothers l hl).marksText hindent

end Code.MarksText

end RegisterMap.Swift
