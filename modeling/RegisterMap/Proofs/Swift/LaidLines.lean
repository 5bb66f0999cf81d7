import RegisterMap.Proofs.Swift.Layout

/-!
# Lines of code laid out

The lines that code adds to a unit, at the depth at which it stands.  They depend on
nothing that was written before, so those of a piece of code come from the lines of
its parts: a block has those of its heading, those of its body one level deeper, and
the brace that closes it.
-/

namespace RegisterMap.Swift

open RegisterMap.Text

/-- What stands in front of the lines at some depth. -/
def marginAt (indentation : List Char) (depth : Nat) : List Char :=
  (List.replicate depth indentation).flatten

theorem mem_of_mem_marginAt {indentation : List Char} {depth : Nat} {c : Char}
    (h : c ∈ marginAt indentation depth) : c ∈ indentation := by
  rcases List.mem_flatten.mp h with ⟨piece, hpiece, hc⟩
  obtain ⟨-, rfl⟩ := List.mem_replicate.mp hpiece
  exact hc

/-! ## What was written before -/

namespace Writer

/-- A writer with some more text in front of its own. -/
def onto (front : String) (w : Writer) : Writer :=
  { w with pending := front ++ w.pending }

theorem appendLine_onto (front : String) (w : Writer) (line : List Char) :
    (w.onto front).appendLine line = (w.appendLine line).onto front := by
  simp [appendLine, onto, margin, String.append_assoc]

theorem foldl_appendLine_onto (front : String) (w : Writer) (lines : List (List Char)) :
    lines.foldl appendLine (w.onto front) = (lines.foldl appendLine w).onto front := by
  induction lines generalizing w with
  | nil => rfl
  | cons line lines ih => rw [List.foldl_cons, List.foldl_cons, appendLine_onto, ih]

theorem append_onto (front : String) (w : Writer) (text : String) :
    (w.onto front).append text = (w.append text).onto front :=
  foldl_appendLine_onto front w _

/-- A writer that has written nothing yet. -/
def start (indentation : String) (depth : Nat) : Writer :=
  { indentation, depth }

theorem fresh_start (indentation : String) (depth : Nat) : (start indentation depth).Fresh :=
  ⟨rfl, .inl rfl⟩

/-- At the start of a line, a writer is told by what it has written. -/
theorem eq_onto_start {w : Writer} (hw : w.Fresh) :
    w = (start w.indentation w.depth).onto w.pending := by
  rcases w with ⟨indentation, pending, depth, atLineStart⟩
  obtain rfl : atLineStart = true := hw.1
  simp [onto, start]

end Writer

namespace Code

open Writer

mutual

theorem write_onto (front : String) (w : Writer) :
    (code : Code) → write (w.onto front) code = (write w code).onto front
  | lines text => append_onto front w _
  | block heading body => by
      have hheading : ((w.onto front).append (heading ++ "\n")).indent =
          (w.append (heading ++ "\n")).indent.onto front := by
        rw [append_onto]
        rfl
      rw [write, write, hheading, writeAll_onto, ← append_onto]
      rfl

theorem writeAll_onto (front : String) (w : Writer) :
    (codes : List Code) → writeAll (w.onto front) codes = (writeAll w codes).onto front
  | [] => rfl
  | code :: codes => by rw [writeAll, writeAll, write_onto, writeAll_onto]

end

/-! ## Lines at a depth -/

variable {indentation : String} {depth : Nat}

/-- The text of code at some depth. -/
def textAt (indentation : String) (depth : Nat) (codes : List Code) : String :=
  (writeAll (start indentation depth) codes).pending

/-- The lines of code at some depth, each with its end. -/
def linesAt (indentation : String) (depth : Nat) (codes : List Code) : List (List Char) :=
  linesWithEnds (textAt indentation depth codes).toList

theorem text_eq_textAt (indentation : String) (codes : List Code) :
    text indentation codes = textAt indentation 0 codes := rfl

theorem textAt_lines (text : String) :
    textAt indentation depth [.lines text] =
      ((start indentation depth).append (text ++ "\n")).pending := rfl

theorem writeAll_start (indentation : String) (depth : Nat) (codes : List Code) :
    writeAll (start indentation depth) codes =
      (start indentation depth).onto (textAt indentation depth codes) := by
  have hfresh := fresh_writeAll (fresh_start indentation depth) codes
  have hself := eq_onto_start hfresh
  rwa [indentation_writeAll, depth_writeAll] at hself

theorem textAt_append (front back : List Code) :
    textAt indentation depth (front ++ back) =
      textAt indentation depth front ++ textAt indentation depth back := by
  rw [textAt, writeAll_append, writeAll_start, writeAll_onto]
  rfl

theorem textAt_block (heading : String) (body : List Code) :
    textAt indentation depth [.block heading body] =
      textAt indentation depth [.lines heading] ++ textAt indentation (depth + 1) body ++
        textAt indentation depth [.lines "\x7d"] := by
  have hheading : ((start indentation depth).append (heading ++ "\n")).indent =
      (start indentation (depth + 1)).onto (textAt indentation depth [.lines heading]) :=
    congrArg indent (writeAll_start indentation depth [.lines heading])
  have hbody : writeAll ((start indentation depth).append (heading ++ "\n")).indent body =
      ((start indentation (depth + 1)).onto (textAt indentation (depth + 1) body)).onto
        (textAt indentation depth [.lines heading]) := by
    rw [hheading, writeAll_onto, writeAll_start]
  change (Writer.append { writeAll ((start indentation depth).append (heading ++ "\n")).indent body
    with depth := depth } "\x7d\n").pending = _
  rw [hbody, String.append_assoc]
  change ((((start indentation depth).onto (textAt indentation (depth + 1) body)).onto
    (textAt indentation depth [.lines heading])).append "\x7d\n").pending = _
  rw [append_onto, append_onto]
  rfl

theorem ended_textAt (indentation : String) (depth : Nat) (codes : List Code) :
    textAt indentation depth codes = "" ∨
      ∃ earlier, textAt indentation depth codes = earlier ++ "\n" :=
  (fresh_writeAll (fresh_start indentation depth) codes).2

theorem linesWithEnds_textAt_append (indentation : String) (depth : Nat) (codes : List Code)
    (more : List Char) :
    linesWithEnds ((textAt indentation depth codes).toList ++ more) =
      linesAt indentation depth codes ++ linesWithEnds more := by
  rw [linesAt]
  rcases ended_textAt indentation depth codes with hempty | ⟨earlier, hearlier⟩
  · rw [hempty]
    rfl
  · rw [hearlier, String.toList_append]
    have hcut := linesWithEnds_append_newline earlier.toList more
    rwa [← List.singleton_append, ← List.append_assoc] at hcut

theorem linesAt_append (front back : List Code) :
    linesAt indentation depth (front ++ back) =
      linesAt indentation depth front ++ linesAt indentation depth back := by
  rw [linesAt, textAt_append, String.toList_append, linesWithEnds_textAt_append]
  rfl

theorem linesAt_block (heading : String) (body : List Code) :
    linesAt indentation depth [.block heading body] =
      linesAt indentation depth [.lines heading] ++ linesAt indentation (depth + 1) body ++
        linesAt indentation depth [.lines "\x7d"] := by
  rw [linesAt, textAt_block, String.toList_append, String.toList_append, List.append_assoc,
    linesWithEnds_textAt_append, linesWithEnds_textAt_append, List.append_assoc]
  rfl

/-! ## Lines of a piece of text -/

/-- A line feed in a text ends a line, whatever stands around it. -/
theorem linesAt_lines_append_newline (front back : String) :
    linesAt indentation depth [.lines (front ++ "\n" ++ back)] =
      linesAt indentation depth [.lines front] ++ linesAt indentation depth [.lines back] := by
  have hcut := append_append_newline (start indentation depth) front (back ++ "\n")
  rw [← String.append_assoc] at hcut
  rw [← linesAt_append, linesAt, textAt_lines, hcut]
  rfl

theorem linesAt_joinLines {lines : List String} (h : lines ≠ []) :
    linesAt indentation depth [.lines (joinLines lines)] =
      lines.flatMap fun line => linesAt indentation depth [.lines line] := by
  induction lines with
  | nil => exact absurd rfl h
  | cons line lines ih =>
      cases lines with
      | nil => simp [joinLines, String.intercalate_singleton]
      | cons next lines =>
          have hjoin : joinLines (line :: next :: lines) =
              line ++ "\n" ++ joinLines (next :: lines) :=
            String.intercalate_cons_of_ne_nil (by simp)
          rw [hjoin, linesAt_lines_append_newline, ih (by simp)]
          rfl

theorem toList_margin_start (indentation : String) (depth : Nat) :
    (start indentation depth).margin.toList = marginAt indentation.toList depth := by
  simp only [margin, start, marginAt, String.toList_join, List.flatMap_replicate]

/-- One visible line goes behind the margin. -/
theorem linesAt_line {line : String} (hline : IsLine line)
    (hmargin : ∀ c ∈ indentation.toList, isLineSeparator c = false) :
    linesAt indentation depth [.lines line] =
      [marginAt indentation.toList depth ++ line.toList ++ ['\n']] := by
  have hpending := pending_append_line (fresh_start indentation depth) hline
  have htext : (textAt indentation depth [.lines line]).toList =
      marginAt indentation.toList depth ++ line.toList ++ ['\n'] := by
    rw [textAt_lines, hpending, ← toList_margin_start]
    simp [start]
  rw [linesAt, htext]
  refine linesWithEnds_append_end ?_
  intro c hc
  rcases List.mem_append.mp hc with hc | hc
  · exact hmargin c (mem_of_mem_marginAt hc)
  · exact hline.1 c hc

theorem linesAt_empty : linesAt indentation depth [.lines ""] = [['\n']] := by
  rw [linesAt, textAt_lines]
  simp [append, appendLine, start, linesWithEnds, isLineSeparator, isBlank]

end Code

end RegisterMap.Swift
