import Mathlib.Data.List.Infix
import RegisterMap.Proofs.Text.Line
import RegisterMap.Swift.Declaration
import RegisterMap.Swift.Layout

/-!
# Code laid out

What a writer holds after some code, worked out from the code alone.  Laying code
out never fails, for every block leaves the level that it went to, and it makes
exactly one unit.  Every line of the code stands in the text of the unit, behind
the indentation of its level.
-/

namespace RegisterMap.Swift

open RegisterMap.Text

/-! ## Runs of a writer -/

namespace Writer

theorem run_append_of_ok {w w' : Writer} {xs : List LayoutStep} {units : List SourceUnit}
    (h : w.run xs = .ok (units, w')) (ys : List LayoutStep) :
    w.run (xs ++ ys) = (w'.run ys).map fun rest => (units ++ rest.1, rest.2) := by
  induction xs generalizing w units with
  | nil =>
      cases h
      rw [List.nil_append]
      cases w'.run ys <;> rfl
  | cons x xs ih =>
      rw [List.cons_append]
      simp only [run, bind, Except.bind] at h ⊢
      cases hx : w.step x with
      | error e => simp [hx] at h
      | ok first =>
          rcases first with ⟨unit?, v⟩
          simp only [hx] at h ⊢
          cases hxs : v.run xs with
          | error e => simp [hxs] at h
          | ok rest =>
              rcases rest with ⟨others, v'⟩
              simp only [hxs, pure, Except.pure, Except.ok.injEq, Prod.mk.injEq] at h
              rcases h with ⟨rfl, rfl⟩
              rw [ih hxs]
              cases v'.run ys with
              | error e => rfl
              | ok last => simp [Except.map, pure, Except.pure]

theorem run_append_text (w : Writer) (text : String) (steps : List LayoutStep) :
    w.run (.append text :: steps) = (w.append text).run steps := by
  simp only [run, step, bind, Except.bind]
  cases (w.append text).run steps <;> rfl

theorem run_indent (w : Writer) (steps : List LayoutStep) :
    w.run (.indent :: steps) = w.indent.run steps := by
  simp only [run, step, bind, Except.bind]
  cases w.indent.run steps <;> rfl

theorem run_outdent {w : Writer} {depth : Nat} (h : w.depth = depth + 1)
    (steps : List LayoutStep) :
    w.run (.outdent :: steps) = { w with depth := depth }.run steps := by
  simp only [run, step, outdent, h, bind, Except.bind, pure, Except.pure]
  cases { w with depth := depth }.run steps <;> rfl

theorem run_flush {w : Writer} (h : w.depth = 0) (unitName : String) :
    w.run [.flush unitName] =
      .ok ([⟨unitName, w.pending⟩], { w with pending := "", atLineStart := true }) := by
  simp [run, step, flush, h, bind, Except.bind, pure, Except.pure]

end Writer

/-! ## Code -/

namespace Code

mutual

/-- The writer after some code. -/
def write (w : Writer) : Code → Writer
  | lines text => w.append (text ++ "\n")
  | block heading body =>
      { writeAll (w.append (heading ++ "\n")).indent body with depth := w.depth }.append "\x7d\n"

def writeAll (w : Writer) : List Code → Writer
  | [] => w
  | code :: codes => writeAll (write w code) codes

end

mutual

theorem depth_write (w : Writer) : (code : Code) → (write w code).depth = w.depth
  | lines _ => w.depth_append _
  | block _ _ => Writer.depth_append _ _

theorem depth_writeAll (w : Writer) : (codes : List Code) → (writeAll w codes).depth = w.depth
  | [] => rfl
  | code :: codes => (depth_writeAll (write w code) codes).trans (depth_write w code)

end

mutual

theorem run_steps (w : Writer) : (code : Code) → w.run code.steps = .ok ([], write w code)
  | lines text => by rw [steps, Writer.run_append_text]; rfl
  | block heading body => by
      have hbody := run_stepsOfAll (w.append (heading ++ "\n")).indent body
      have hdepth : (writeAll (w.append (heading ++ "\n")).indent body).depth = w.depth + 1 := by
        rw [depth_writeAll, Writer.indent, Writer.depth_append]
      rw [steps, Writer.run_append_text, Writer.run_indent, Writer.run_append_of_ok hbody,
        Writer.run_outdent hdepth, Writer.run_append_text]
      rfl

theorem run_stepsOfAll (w : Writer) :
    (codes : List Code) → w.run (stepsOfAll codes) = .ok ([], writeAll w codes)
  | [] => rfl
  | code :: codes => by
      rw [stepsOfAll, Writer.run_append_of_ok (run_steps w code), run_stepsOfAll]
      rfl

end

def text (indentation : String) (codes : List Code) : String :=
  (writeAll { indentation } codes).pending

/-- Code is laid out as exactly one unit. -/
theorem toUnit_eq (indentation unitName : String) (codes : List Code) :
    toUnit indentation unitName codes = .ok [⟨unitName, text indentation codes⟩] := by
  have hrun := run_stepsOfAll { indentation } codes
  have hdepth : (writeAll { indentation } codes).depth = 0 := depth_writeAll _ codes
  simp only [toUnit, Writer.run_append_of_ok hrun, Writer.run_flush hdepth, Except.map, bind,
    Except.bind, pure, Except.pure, List.nil_append, text]

end Code

/-! ## Lines of a text -/

/-- True of a text that is one line, with something to see in it. -/
def IsLine (line : String) : Prop :=
  (∀ c ∈ line.toList, isLineSeparator c = false) ∧ line.toList.all isBlank = false

/-- True of a text that holds a line behind some levels of indentation. -/
def HasLine (indentation line text : String) : Prop :=
  ∃ before depth after,
    text = before ++ String.join (List.replicate depth indentation) ++ (line ++ "\n") ++ after ∧
      (before = "" ∨ ∃ earlier, before = earlier ++ "\n")

theorem HasLine.append {indentation line text : String} (h : HasLine indentation line text)
    (more : String) : HasLine indentation line (text ++ more) := by
  rcases h with ⟨before, depth, after, rfl, hbefore⟩
  exact ⟨before, depth, after ++ more, by simp only [String.append_assoc], hbefore⟩

namespace Writer

/-- True of a writer at the start of a line. -/
def Fresh (w : Writer) : Prop :=
  w.atLineStart = true ∧ (w.pending = "" ∨ ∃ earlier, w.pending = earlier ++ "\n")

theorem append_append_newline (w : Writer) (front back : String) :
    w.append (front ++ "\n" ++ back) = (w.append (front ++ "\n")).append back := by
  have hcut := linesWithEnds_append_newline front.toList back.toList
  simp only [append, String.toList_append, List.append_assoc, ← List.foldl_append]
  exact congrArg (List.foldl appendLine w) hcut

theorem pending_append (w : Writer) (text : String) :
    ∃ added, (w.append text).pending = w.pending ++ added := by
  unfold append
  generalize linesWithEnds text.toList = lines
  induction lines generalizing w with
  | nil => exact ⟨"", by simp⟩
  | cons line lines ih =>
      rcases ih (w.appendLine line) with ⟨added, h⟩
      rw [List.foldl_cons, h]
      exact ⟨_, by simp only [appendLine, String.append_assoc]; rfl⟩

@[simp] theorem indentation_append (w : Writer) (text : String) :
    (w.append text).indentation = w.indentation := by
  unfold append
  generalize linesWithEnds text.toList = lines
  induction lines generalizing w with
  | nil => rfl
  | cons line lines ih => rw [List.foldl_cons, ih, appendLine]

theorem fresh_append (w : Writer) (text : String) : (w.append (text ++ "\n")).Fresh := by
  rcases exists_linesWithEnds_append_end text.toList with ⟨lines, line, hlines⟩
  have hlist : (text ++ "\n").toList = text.toList ++ ['\n'] := by simp
  rw [append, hlist, hlines, List.foldl_concat]
  refine ⟨by simp [appendLine], .inr ?_⟩
  simp only [appendLine, String.ofList_append, ← String.append_assoc]
  exact ⟨_, rfl⟩

/-- A line goes behind the indentation if the writer is at the start of a line. -/
theorem pending_append_line {w : Writer} (hw : w.Fresh) {line : String} (hline : IsLine line) :
    (w.append (line ++ "\n")).pending = w.pending ++ w.margin ++ (line ++ "\n") := by
  have hlist : (line ++ "\n").toList = line.toList ++ ['\n'] := by simp
  have hblank : (line.toList ++ ['\n']).all isBlank = false := by
    simp only [List.all_append, hline.2, Bool.false_and]
  rw [append, hlist, linesWithEnds_append_end hline.1, List.foldl_cons, List.foldl_nil,
    appendLine, hw.1, hblank, ← hlist, String.ofList_toList]
  rfl

theorem hasLine_append {w : Writer} (hw : w.Fresh) (front : List String) {line : String}
    (hline : IsLine line) :
    HasLine w.indentation line (w.append (joinLines (front ++ [line]) ++ "\n")).pending := by
  cases front with
  | nil =>
      rw [List.nil_append, joinLines, String.intercalate_singleton, pending_append_line hw hline]
      exact ⟨w.pending, w.depth, "", by simp [margin], hw.2⟩
  | cons first front =>
      have hfresh := fresh_append w (joinLines (first :: front))
      rw [joinLines, String.intercalate_append_of_ne_nil (by simp) (by simp),
        String.intercalate_singleton, String.append_assoc, append_append_newline,
        ← joinLines, pending_append_line hfresh hline]
      refine ⟨_, w.depth, "", ?_, hfresh.2⟩
      simp [margin, depth_append]

end Writer

namespace Code

mutual

@[simp] theorem indentation_write (w : Writer) :
    (code : Code) → (write w code).indentation = w.indentation
  | lines _ => w.indentation_append _
  | block heading body => by
      rw [write, Writer.indentation_append]
      exact (indentation_writeAll _ body).trans (w.indentation_append _)

@[simp] theorem indentation_writeAll (w : Writer) :
    (codes : List Code) → (writeAll w codes).indentation = w.indentation
  | [] => rfl
  | code :: codes =>
      (indentation_writeAll (write w code) codes).trans (indentation_write w code)

end

mutual

theorem pending_write (w : Writer) :
    (code : Code) → ∃ added, (write w code).pending = w.pending ++ added
  | lines text => w.pending_append (text ++ "\n")
  | block heading body => by
      rcases w.pending_append (heading ++ "\n") with ⟨first, hfirst⟩
      rcases pending_writeAll (w.append (heading ++ "\n")).indent body with ⟨inner, hinner⟩
      obtain ⟨last, hlast⟩ := Writer.pending_append
        { writeAll (w.append (heading ++ "\n")).indent body with depth := w.depth } "\x7d\n"
      refine ⟨first ++ inner ++ last, ?_⟩
      rw [write, hlast, hinner, Writer.indent, hfirst]
      simp only [String.append_assoc]

theorem pending_writeAll (w : Writer) :
    (codes : List Code) → ∃ added, (writeAll w codes).pending = w.pending ++ added
  | [] => ⟨"", by simp [writeAll]⟩
  | code :: codes => by
      rcases pending_write w code with ⟨first, hfirst⟩
      rcases pending_writeAll (write w code) codes with ⟨rest, hrest⟩
      exact ⟨first ++ rest, by rw [writeAll, hrest, hfirst, String.append_assoc]⟩

end

theorem fresh_write (w : Writer) (code : Code) : (write w code).Fresh := by
  cases code with
  | lines text => exact w.fresh_append text
  | block heading body => exact Writer.fresh_append _ "\x7d"

theorem fresh_writeAll {w : Writer} (hw : w.Fresh) (codes : List Code) :
    (writeAll w codes).Fresh := by
  induction codes generalizing w with
  | nil => exact hw
  | cons code codes ih => exact ih (fresh_write w code)

theorem writeAll_append (w : Writer) (front back : List Code) :
    writeAll w (front ++ back) = writeAll (writeAll w front) back := by
  induction front generalizing w with
  | nil => rfl
  | cons code front ih => exact ih (write w code)

/-- Code that shows a line: as the last of some lines, or of those above a block, or inside. -/
inductive Shows (line : String) : Code → Prop
  | lines (front : List String) : Shows line (.lines (joinLines (front ++ [line])))
  | heading (front : List String) (body : List Code) :
      Shows line (.block (joinLines (front ++ [line])) body)
  | inside (heading : String) {body : List Code} {code : Code} :
      code ∈ body → Shows line code → Shows line (.block heading body)

theorem hasLine_writeAll_of_mem {w : Writer} (hw : w.Fresh) {line : String} {code : Code}
    {codes : List Code} (hmem : code ∈ codes)
    (hcode : ∀ v : Writer, v.Fresh → HasLine v.indentation line (write v code).pending) :
    HasLine w.indentation line (writeAll w codes).pending := by
  rcases List.append_of_mem hmem with ⟨front, back, rfl⟩
  rw [writeAll_append, writeAll]
  rcases pending_writeAll (write (writeAll w front) code) back with ⟨added, hadded⟩
  have hline := hcode (writeAll w front) (fresh_writeAll hw front)
  rw [indentation_writeAll] at hline
  rw [hadded]
  exact hline.append added

theorem Shows.hasLine {line : String} (hline : IsLine line) {code : Code} (h : Shows line code)
    (w : Writer) (hw : w.Fresh) : HasLine w.indentation line (write w code).pending := by
  induction h generalizing w with
  | lines front => exact Writer.hasLine_append hw front hline
  | heading front body =>
      obtain ⟨added, hadded⟩ := pending_writeAll
        (w.append (joinLines (front ++ [line]) ++ "\n")).indent body
      obtain ⟨last, hlast⟩ := Writer.pending_append
        { writeAll (w.append (joinLines (front ++ [line]) ++ "\n")).indent body with
          depth := w.depth } "\x7d\n"
      rw [write, hlast, hadded]
      exact ((Writer.hasLine_append hw front hline).append added).append last
  | @inside heading body code hmem _ ih =>
      have hfresh : (w.append (heading ++ "\n")).indent.Fresh := w.fresh_append heading
      have hbody := hasLine_writeAll_of_mem hfresh hmem ih
      obtain ⟨last, hlast⟩ := Writer.pending_append
        { writeAll (w.append (heading ++ "\n")).indent body with depth := w.depth } "\x7d\n"
      rw [write, hlast]
      refine HasLine.append ?_ last
      simpa [Writer.indent] using hbody

theorem hasLine_text (indentation : String) {line : String} (hline : IsLine line) {code : Code}
    {codes : List Code} (hmem : code ∈ codes) (hcode : Shows line code) :
    HasLine indentation line (text indentation codes) :=
  hasLine_writeAll_of_mem (w := { indentation }) ⟨rfl, .inl rfl⟩ hmem (hcode.hasLine hline)

/-! ## Pieces put together -/

theorem mem_intersperse_of_mem {α : Type} {sep a : α} {xs : List α} (h : a ∈ xs) :
    a ∈ xs.intersperse sep := by
  fun_induction List.intersperse sep xs with
  | case1 => exact h
  | case2 x => exact h
  | case3 x y ys ih => grind

theorem mem_spaced {pieces : List (List Code)} {piece : List Code} (hpiece : piece ∈ pieces)
    {code : Code} (hcode : code ∈ piece) : code ∈ spaced pieces :=
  List.mem_flatten.mpr ⟨piece, mem_intersperse_of_mem hpiece, hcode⟩

/-- What is put together from pieces of code has the same pieces when they are spaced. -/
theorem map_spaced {α : Type} {f : List Code → List α}
    (happend : ∀ front back, f (front ++ back) = f front ++ f back) (pieces : List (List Code)) :
    f (spaced pieces) = List.intercalate (f [blankLine]) (pieces.map f) := by
  induction pieces with
  | nil => simpa [spaced] using happend [] []
  | cons piece pieces ih =>
      cases pieces with
      | nil => simp [spaced]
      | cons next pieces =>
          rw [spaced] at ih ⊢
          rw [List.intercalate_cons_cons, happend, happend, ih]
          simp only [List.map_cons, List.intercalate_cons_cons]

theorem shows_documented (subject : Subject) (line : String) :
    Shows line (.lines (subject.documented [line])) :=
  .lines (docComment subject.description)

end Code

end RegisterMap.Swift
