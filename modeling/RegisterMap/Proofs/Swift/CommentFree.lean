import RegisterMap.Proofs.Swift.SourceLine

/-!
# Source text without comments

The lines of a text that are not comments.  A description adds comments only, line by
line, so these lines are the same whatever is described.
-/

namespace RegisterMap.Swift

open RegisterMap.Text

/-- The lines of a text, with their ends, apart from those that are comments. -/
def withoutComments (text : String) : List (List Char) :=
  (linesWithEnds text.toList).filter fun line => !isComment line

namespace Code

variable {indentation : String} {depth : Nat}

/-- The lines of code at some depth, apart from those that are comments. -/
def codeLinesAt (indentation : String) (depth : Nat) (codes : List Code) : List (List Char) :=
  (linesAt indentation depth codes).filter fun line => !isComment line

theorem withoutComments_text (indentation : String) (codes : List Code) :
    withoutComments (text indentation codes) = codeLinesAt indentation 0 codes := rfl

theorem codeLinesAt_append (front back : List Code) :
    codeLinesAt indentation depth (front ++ back) =
      codeLinesAt indentation depth front ++ codeLinesAt indentation depth back := by
  rw [codeLinesAt, linesAt_append, List.filter_append]
  rfl

theorem codeLinesAt_cons (code : Code) (codes : List Code) :
    codeLinesAt indentation depth (code :: codes) =
      codeLinesAt indentation depth [code] ++ codeLinesAt indentation depth codes :=
  codeLinesAt_append [code] codes

theorem codeLinesAt_block (heading : String) (body : List Code) :
    codeLinesAt indentation depth [.block heading body] =
      codeLinesAt indentation depth [.lines heading] ++ codeLinesAt indentation (depth + 1) body ++
        codeLinesAt indentation depth [.lines "\x7d"] := by
  rw [codeLinesAt, linesAt_block, List.filter_append, List.filter_append]
  rfl

theorem codeLinesAt_spaced (pieces : List (List Code)) :
    codeLinesAt indentation depth (spaced pieces) =
      List.intercalate (codeLinesAt indentation depth [blankLine])
        (pieces.map (codeLinesAt indentation depth)) :=
  map_spaced codeLinesAt_append pieces

theorem codeLinesAt_declarations (texts : List String) :
    codeLinesAt indentation depth (declarations texts) =
      List.intercalate (codeLinesAt indentation depth [blankLine])
        (texts.map fun text => codeLinesAt indentation depth [.lines text]) := by
  rw [declarations, codeLinesAt_spaced, List.map_map]
  rfl

theorem isComment_append {front : List Char} (h : ∀ c ∈ front, isBlank c = true)
    (rest : List Char) : isComment (front ++ '/' :: '/' :: '/' :: rest) = true := by
  have hslash : isBlank '/' = false := by decide
  rw [isComment, dropWhile_isBlank_append h hslash]
  rfl

/-- A description leaves no line but comments. -/
theorem codeLinesAt_docComment (hindent : IsIndentation indentation)
    {description : Option String} {line : String} (h : line ∈ docComment description) :
    codeLinesAt indentation depth [.lines line] = [] := by
  have hline := (hasKind_comment h).isLine
  rcases mem_docComment h with ⟨cs, rfl, -⟩
  have hlines : linesAt indentation depth [.lines ("/// " ++ String.ofList cs)] =
      [marginAt indentation.toList depth ++ ("/// " ++ String.ofList cs).toList ++ ['\n']] :=
    linesAt_line hline fun _ hc => hindent.isLineSeparator hc
  have hcomment : isComment (marginAt indentation.toList depth ++
      ("/// " ++ String.ofList cs).toList ++ ['\n']) = true := by
    rw [List.append_assoc, String.toList_append]
    exact isComment_append (fun c hc => hindent.isBlank (mem_of_mem_marginAt hc)) _
  rw [codeLinesAt, hlines, List.filter_cons_of_neg (by simpa using hcomment), List.filter_nil]

theorem codeLinesAt_documented (hindent : IsIndentation indentation)
    (description : Option String) {lines : List String} (hne : lines ≠ []) :
    codeLinesAt indentation depth [.lines (joinLines (docComment description ++ lines))] =
      codeLinesAt indentation depth [.lines (joinLines lines)] := by
  have hcomments : ((docComment description).flatMap fun line =>
      linesAt indentation depth [.lines line]).filter (fun line => !isComment line) = [] := by
    rw [List.filter_flatMap, List.flatMap_eq_nil_iff]
    exact fun line hline => codeLinesAt_docComment hindent hline
  rw [codeLinesAt, linesAt_joinLines (List.append_ne_nil_of_right_ne_nil _ hne),
    List.flatMap_append, List.filter_append, hcomments, List.nil_append, ← linesAt_joinLines hne]
  rfl

theorem codeLinesAt_joinLines {lines : List String} (hne : lines ≠ []) :
    codeLinesAt indentation depth [.lines (joinLines lines)] =
      lines.flatMap fun line => codeLinesAt indentation depth [.lines line] := by
  rw [codeLinesAt, linesAt_joinLines hne, List.filter_flatMap]
  rfl

/-- A statement is no comment, so it stays. -/
theorem codeLinesAt_line {line : String} (hcode : IsCode line) (hvisible : StartsVisible line) :
    codeLinesAt "" 0 [.lines line] = [line.toList ++ ['\n']] := by
  obtain ⟨c, rest, hline, hc⟩ := hvisible.exists_cons
  have hlines : linesAt "" 0 [.lines line] = [line.toList ++ ['\n']] :=
    linesAt_line ⟨hcode.isPlain.single, by simp [hline, hc]⟩ (List.forall_mem_nil _)
  have hslash := (hcode.ne_of_mem (hline ▸ List.mem_cons_self)).2.2
  have hcomment : isComment (line.toList ++ ['\n']) = false := by
    rw [hline]
    exact isComment_eq_false hc hslash _
  rw [codeLinesAt, hlines, List.filter_cons_of_pos (by simp [hcomment]), List.filter_nil]

end Code

end RegisterMap.Swift
