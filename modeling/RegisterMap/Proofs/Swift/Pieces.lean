import RegisterMap.Proofs.Swift.WriterRun
import RegisterMap.Proofs.Text.Line

/-!
# Text appended in pieces

A writer cuts what it is given into lines on its own, so a text in two pieces comes
out like the whole text if the line on which the pieces meet does.  It does not where
the front piece ends in the blanks that begin a line: such a piece gets no margin,
having nothing to see, and what comes behind it is no longer at the start of a line.
-/

namespace RegisterMap.Swift

open RegisterMap.Text

/-- True of pieces that meet inside the blanks that begin a line with something to see in it. -/
structure Writer.CutsMargin (w : Writer) (front back : String) : Prop where
  margin : w.margin ≠ ""
  opened : ∃ before blanks, front.toList = before ++ blanks ∧ blanks ≠ [] ∧
    beginsLine w.atLineStart before = true ∧
    ∀ c ∈ blanks, isBlank c = true ∧ isLineSeparator c = false
  visible : (back.toList.takeWhile fun c => !isLineSeparator c).all isBlank = false

namespace Writer

variable {w v : Writer} {front back : String} {x y : List Char}

/-! ## The line on which the pieces meet -/

/-- A line in two parts, unless only its back part shows that the margin belongs before it. -/
theorem appendLine_appendLine (hx : x.getLast? ≠ some '\n') (hy : y ≠ [])
    (hcut : v.margin ≠ "" → v.atLineStart = true → x.all isBlank = true → y.all isBlank = true) :
    (v.appendLine x).appendLine y = v.appendLine (x ++ y) := by
  have hend : (x.getLast? == some '\n') = false := by simpa using hx
  have hlast : (x ++ y).getLast? = y.getLast? := List.getLast?_append_of_ne_nil x hy
  have hblank : (if (v.atLineStart && !(x ++ y).all isBlank) = true then v.margin else "") =
      if (v.atLineStart && !x.all isBlank) = true then v.margin else "" := by
    by_cases hmargin : v.margin = ""
    · simp [hmargin]
    · have hyblank := hcut hmargin
      rw [List.all_append]
      cases hstart : v.atLineStart <;> cases hfront : x.all isBlank <;> simp_all
  simp only [appendLine, hend, hlast, hblank, Bool.false_and, Bool.false_eq_true, if_false,
    String.append_empty, String.ofList_append, String.append_assoc]

/-- A line in two parts, if the front part is blank and the margin belongs before it. -/
theorem appendLine_append_of_blank (hstart : v.atLineStart = true) (hx : x.all isBlank = true)
    (hend : x.getLast? ≠ some '\n') (hy : y.all isBlank = false) :
    v.appendLine (x ++ y) =
      ((({ v with pending := "" }.appendLine x).appendLine y).onto v.margin).onto v.pending := by
  have hflag : (x.getLast? == some '\n') = false := by simpa using hend
  have hlast : (x ++ y).getLast? = y.getLast? := by
    refine List.getLast?_append_of_ne_nil x ?_
    rintro rfl
    cases hy
  simp only [appendLine, onto, hstart, hx, hy, hflag, hlast, List.all_append]
  simp [String.append_assoc]

/-! ## Two pieces -/

theorem margin_foldl_appendLine (w : Writer) (lines : List (List Char)) :
    (lines.foldl appendLine w).margin = w.margin := by
  induction lines generalizing w with
  | nil => rfl
  | cons line lines ih => exact ih (w.appendLine line)

theorem margin_append (w : Writer) (text : String) : (w.append text).margin = w.margin :=
  margin_foldl_appendLine w _

theorem atLineStart_append (w : Writer) (text : String) :
    (w.append text).atLineStart = beginsLine w.atLineStart text.toList := by
  rcases w.indented_append text with ⟨-, -, -, hflag⟩
  exact hflag

theorem atLineStart_append_append (w : Writer) (front back : String) :
    ((w.append front).append back).atLineStart = (w.append (front ++ back)).atLineStart := by
  simp only [atLineStart_append, String.toList_append, beginsLine_append]

/-- A text is cut where a line begins. -/
theorem append_append_of_beginsLine (h : beginsLine w.atLineStart front.toList = true)
    (back : String) : w.append (front ++ back) = (w.append front).append back := by
  have hcut : linesWithEnds (front.toList ++ back.toList) =
      linesWithEnds front.toList ++ linesWithEnds back.toList := by
    by_cases hfront : front.toList = []
    · rw [hfront]
      rfl
    · rw [beginsLine_of_ne_nil hfront, beq_iff_eq] at h
      obtain ⟨earlier, hearlier⟩ := List.getLast?_eq_some_iff.mp h
      rw [hearlier, List.append_assoc]
      exact linesWithEnds_append_newline earlier back.toList
  simp only [append, String.toList_append, hcut, List.foldl_append]

/-- Blanks at the start of a line, in a piece of their own, lose the margin of the line. -/
theorem pending_append_blanks (hstart : v.atLineStart = true) (hfront : front.toList ≠ [])
    (hblanks : ∀ c ∈ front.toList, isBlank c = true ∧ isLineSeparator c = false)
    (hvisible : (back.toList.takeWhile fun c => !isLineSeparator c).all isBlank = false) :
    ∃ tail, (v.append (front ++ back)).pending = v.pending ++ v.margin ++ tail ∧
      ((v.append front).append back).pending = v.pending ++ tail := by
  have hplain : ∀ c ∈ front.toList, isLineSeparator c = false := fun c hc => (hblanks c hc).2
  have hblank : front.toList.all isBlank = true :=
    List.all_eq_true.mpr fun c hc => (hblanks c hc).1
  have hend : front.toList.getLast? ≠ some '\n' := fun hlast =>
    absurd (hplain _ (List.mem_of_getLast? hlast)) (by decide)
  obtain ⟨first, others, hback⟩ : ∃ first others, linesWithEnds back.toList = first :: others := by
    refine List.exists_cons_of_ne_nil fun hnil => ?_
    rw [linesWithEnds_eq_nil_iff.mp hnil] at hvisible
    cases hvisible
  have hfirst : first.all isBlank = false := (all_isBlank_head hback).trans hvisible
  have hwhole := appendLine_append_of_blank hstart hblank hend hfirst
  have hpieces : (v.appendLine front.toList).appendLine first =
      (({ v with pending := "" }.appendLine front.toList).appendLine first).onto v.pending := by
    rw [← appendLine_onto, ← appendLine_onto]
    simp [onto]
  generalize ({ v with pending := "" }.appendLine front.toList).appendLine first = u
    at hwhole hpieces
  refine ⟨(others.foldl appendLine u).pending, ?_, ?_⟩
  · rw [append, String.toList_append, linesWithEnds_plain_append hplain hback, List.foldl_cons,
      hwhole, foldl_appendLine_onto, foldl_appendLine_onto]
    simp only [onto, String.append_assoc]
  · have honly : v.append front = v.appendLine front.toList := by
      rw [append, linesWithEnds_plain hfront hplain]
      rfl
    rw [honly, append, hback, List.foldl_cons, hpieces, foldl_appendLine_onto]
    rfl

/-- Pieces that cut a margin lose it. -/
theorem pending_of_cutsMargin (h : w.CutsMargin front back) :
    ∃ head tail, (w.append (front ++ back)).pending = head ++ w.margin ++ tail ∧
      ((w.append front).append back).pending = head ++ tail := by
  rcases h.opened with ⟨before, blanks, hsplit, hne, hbegins, hblanks⟩
  obtain rfl : front = String.ofList before ++ String.ofList blanks := by
    rw [← String.ofList_append, ← hsplit, String.ofList_toList]
  rw [← String.toList_ofList (l := before)] at hbegins
  rw [← String.toList_ofList (l := blanks)] at hne hblanks
  have hstart := (atLineStart_append w (String.ofList before)).trans hbegins
  rcases pending_append_blanks hstart hne hblanks h.visible with ⟨tail, hwhole, hpieces⟩
  rw [margin_append] at hwhole
  refine ⟨(w.append (String.ofList before)).pending, tail, ?_, ?_⟩
  · rw [String.append_assoc, append_append_of_beginsLine hbegins, hwhole]
  · rw [append_append_of_beginsLine hbegins, hpieces]

/-- Pieces that cut no margin come out like the whole text. -/
theorem append_append_of_not_cutsMargin (h : ¬ w.CutsMargin front back) :
    (w.append front).append back = w.append (front ++ back) := by
  rcases linesWithEnds_append front.toList back.toList with
    heq | ⟨lines, last, first, others, hfront, hback, heq, hlast, hopen⟩
  · simp only [append, String.toList_append, heq, List.foldl_append]
  · have hfront' : front.toList = lines.flatten ++ last := by
      rw [← flatten_linesWithEnds front.toList, hfront, List.flatten_concat]
    have hlines : ∀ line ∈ lines, line ≠ [] := by
      intro line hline
      have hmem : line ∈ linesWithEnds front.toList := by simp [hfront, hline]
      exact ne_nil_of_mem_linesWithEnds hmem
    have hlastmem : last ∈ linesWithEnds front.toList := by simp [hfront]
    have hfirstmem : first ∈ linesWithEnds back.toList := by simp [hback]
    have hlastne := ne_nil_of_mem_linesWithEnds hlastmem
    have hfirst := ne_nil_of_mem_linesWithEnds hfirstmem
    have hmeet : ((lines.foldl appendLine w).appendLine last).appendLine first =
        (lines.foldl appendLine w).appendLine (last ++ first) := by
      refine appendLine_appendLine hlast hfirst ?_
      intro hmargin hstart hblank
      by_contra hvisible
      rw [Bool.not_eq_true] at hvisible
      -- What can be seen behind the blanks is on their line, so they do not begin a pair.
      have hplain : ∀ c ∈ last, isLineSeparator c = false := by
        refine hopen.resolve_left fun hpair => ?_
        rw [hpair] at hvisible
        cases hvisible
      rcases w.indented_foldl_appendLine hlines with ⟨-, -, -, hflag⟩
      rw [margin_foldl_appendLine] at hmargin
      rw [hflag] at hstart
      refine h ⟨hmargin, ⟨lines.flatten, last, hfront', hlastne, hstart, ?_⟩, ?_⟩
      · intro c hc
        exact ⟨List.all_eq_true.mp hblank c hc, hplain c hc⟩
      · rw [← all_isBlank_head hback, hvisible]
    simp only [append, String.toList_append, heq, hfront, hback, List.foldl_append,
      List.foldl_cons, List.foldl_nil, hmeet]

theorem length_append_append_le (w : Writer) (front back : String) :
    ((w.append front).append back).pending.length ≤ (w.append (front ++ back)).pending.length := by
  by_cases h : w.CutsMargin front back
  · rcases pending_of_cutsMargin h with ⟨head, tail, hwhole, hpieces⟩
    rw [hwhole, hpieces]
    simp only [String.length_append]
    omega
  · rw [append_append_of_not_cutsMargin h]

theorem length_append_append_lt (h : w.CutsMargin front back) :
    ((w.append front).append back).pending.length < (w.append (front ++ back)).pending.length := by
  rcases pending_of_cutsMargin h with ⟨head, tail, hwhole, hpieces⟩
  have hmargin : w.margin.length ≠ 0 := by
    intro hzero
    exact h.margin (String.length_eq_zero_iff.mp hzero)
  rw [hwhole, hpieces]
  simp only [String.length_append]
  omega

/-! ## Any number of pieces -/

theorem CutsMargin.of_append {first : String} (h : (w.append first).CutsMargin front back) :
    w.CutsMargin (first ++ front) back := by
  rcases h.opened with ⟨before, blanks, hfront, hne, hstart, hblanks⟩
  have hmargin := h.margin
  rw [margin_append] at hmargin
  rw [atLineStart_append, ← beginsLine_append] at hstart
  have hopened : (first ++ front).toList = (first.toList ++ before) ++ blanks := by
    rw [String.toList_append, hfront, List.append_assoc]
  exact ⟨hmargin, ⟨first.toList ++ before, blanks, hopened, hne, hstart, hblanks⟩, h.visible⟩

/-- A margin that is cut behind two pieces is cut by the back one, or by the front one already. -/
theorem CutsMargin.append_cases {first : String} (h : w.CutsMargin (first ++ front) back) :
    (w.append first).CutsMargin front back ∨ w.CutsMargin first (front ++ back) := by
  rcases h.opened with ⟨before, blanks, hboth, hne, hstart, hblanks⟩
  rw [String.toList_append, List.append_eq_append_iff] at hboth
  have hback {earlier : List Char} (hbefore : before = first.toList ++ earlier)
      (hfront : front.toList = earlier ++ blanks) : (w.append first).CutsMargin front back := by
    refine ⟨?_, ⟨earlier, blanks, hfront, hne, ?_, hblanks⟩, h.visible⟩
    · rw [margin_append]
      exact h.margin
    · rw [atLineStart_append, ← beginsLine_append, ← hbefore]
      exact hstart
  rcases hboth with ⟨earlier, hbefore, hfront⟩ | ⟨opening, hfirst, hsplit⟩
  · exact .inl (hback hbefore hfront)
  · by_cases hopening : opening = []
    · refine .inl (@hback [] ?_ ?_)
      · rw [hfirst, hopening, List.append_nil, List.append_nil]
      · rw [hsplit, hopening]
        rfl
    · right
      refine ⟨h.margin, ⟨before, opening, hfirst, hopening, hstart, ?_⟩, ?_⟩
      · intro c hc
        exact hblanks c (by simp [hsplit, hc])
      · have hplain : ∀ c ∈ front.toList, (!isLineSeparator c) = true := by
          intro c hc
          have hblank := hblanks c (by simp [hsplit, hc])
          simp [hblank.2]
        rw [String.toList_append, List.takeWhile_append_of_pos hplain, List.all_append, h.visible,
          Bool.and_false]

/-- True of pieces of which none ends where it would cut a margin. -/
def KeepsMargins (w : Writer) (pieces : List String) : Prop :=
  ∀ front back, pieces = front ++ back → ¬ w.CutsMargin (String.join front) (String.join back)

theorem not_cutsMargin_empty (w : Writer) (back : String) : ¬ w.CutsMargin "" back := by
  intro h
  rcases h.opened with ⟨before, blanks, hempty, hne, -, -⟩
  exact hne (List.append_eq_nil_iff.mp hempty.symm).2

theorem keepsMargins_nil (w : Writer) : w.KeepsMargins [] := by
  intro front back hpieces
  rw [(List.append_eq_nil_iff.mp hpieces.symm).1]
  exact w.not_cutsMargin_empty _

theorem keepsMargins_cons {first : String} {pieces : List String} :
    w.KeepsMargins (first :: pieces) ↔
      ¬ w.CutsMargin first (String.join pieces) ∧ (w.append first).KeepsMargins pieces := by
  constructor
  · intro h
    constructor
    · have hfirst := h [first] pieces rfl
      simpa [String.join] using hfirst
    · intro front back hpieces hcut
      refine h (first :: front) back (by rw [hpieces]; rfl) ?_
      rw [String.join_cons]
      exact hcut.of_append
  · intro ⟨hfirst, hrest⟩ front back hpieces
    cases front with
    | nil => exact w.not_cutsMargin_empty _
    | cons piece front =>
        obtain ⟨rfl, rfl⟩ := List.cons.inj hpieces
        intro hcut
        rw [String.join_cons] at hcut
        rcases hcut.append_cases with hcut | hcut
        · exact hrest front back rfl hcut
        · rw [← String.join_append] at hcut
          exact hfirst hcut

/-- Pieces that keep all margins come out like the whole text, all others shorter. -/
theorem foldl_append_cases (w : Writer) (pieces : List String) :
    w.KeepsMargins pieces ∧ pieces.foldl append w = w.append (String.join pieces) ∨
      ¬ w.KeepsMargins pieces ∧
        (pieces.foldl append w).pending.length <
          (w.append (String.join pieces)).pending.length := by
  induction pieces generalizing w with
  | nil => exact .inl ⟨w.keepsMargins_nil, rfl⟩
  | cons first pieces ih =>
      rw [keepsMargins_cons, List.foldl_cons, String.join_cons]
      have hle := w.length_append_append_le first (String.join pieces)
      by_cases hcut : w.CutsMargin first (String.join pieces)
      · have hlt := length_append_append_lt hcut
        rcases ih (w.append first) with ⟨-, heq⟩ | ⟨-, hshorter⟩
        · rw [heq]
          exact .inr ⟨fun h => h.1 hcut, hlt⟩
        · exact .inr ⟨fun h => h.1 hcut, by omega⟩
      · rcases ih (w.append first) with ⟨hkeeps, heq⟩ | ⟨hnot, hshorter⟩
        · rw [heq, append_append_of_not_cutsMargin hcut]
          exact .inl ⟨⟨hcut, hkeeps⟩, rfl⟩
        · exact .inr ⟨fun h => hnot h.2, by omega⟩

theorem atLineStart_foldl_append (w : Writer) (pieces : List String) :
    (pieces.foldl append w).atLineStart = (w.append (String.join pieces)).atLineStart := by
  induction pieces generalizing w with
  | nil => rfl
  | cons first pieces ih =>
      rw [List.foldl_cons, ih, atLineStart_append_append, String.join_cons]

/--
What is appended in pieces comes out like the whole text exactly if no piece ends inside
the blanks in front of what can be seen in a line.  A margin is missing otherwise.
-/
theorem append_append_eq_iff (w : Writer) (front back : String) :
    ((w.append front).append back).atLineStart = (w.append (front ++ back)).atLineStart ∧
      (((w.append front).append back).pending = (w.append (front ++ back)).pending ↔
        ¬ w.CutsMargin front back) ∧
      (w.CutsMargin front back →
        ∃ head tail, (w.append (front ++ back)).pending = head ++ w.margin ++ tail ∧
          ((w.append front).append back).pending = head ++ tail) ∧
      ∀ pieces : List String,
        (pieces.foldl append w).atLineStart = (w.append (String.join pieces)).atLineStart ∧
          ((pieces.foldl append w).pending = (w.append (String.join pieces)).pending ↔
            w.KeepsMargins pieces) ∧
          (w.atLineStart = true → IsLines (String.join pieces).toList → w.KeepsMargins pieces →
            (pieces.foldl append w).pending.toList = w.pending.toList ++
              indentedLines w.indentation.toList w.depth (String.join pieces).toList) := by
  refine ⟨w.atLineStart_append_append front back, ?_, pending_of_cutsMargin, fun pieces => ?_⟩
  · constructor
    · intro heq hcut
      have hlt := length_append_append_lt hcut
      rw [heq] at hlt
      omega
    · intro hkeeps
      rw [append_append_of_not_cutsMargin hkeeps]
  · refine ⟨w.atLineStart_foldl_append pieces, ?_, ?_⟩
    · rcases w.foldl_append_cases pieces with ⟨hkeeps, heq⟩ | ⟨hnot, hlt⟩
      · simp [hkeeps, heq]
      · constructor
        · intro heq
          rw [heq] at hlt
          omega
        · intro hkeeps
          exact absurd hkeeps hnot
    · intro hstart hlines hkeeps
      rcases w.foldl_append_cases pieces with ⟨-, heq⟩ | ⟨hnot, -⟩
      · rw [heq, (append_isLines hstart hlines).2]
      · exact absurd hkeeps hnot

/-- Blanks in a piece of their own take the margin from the text behind them. -/
theorem append_blanks_append_loses_margin :
    let w := ((LayoutState.start "  ").afterAll [.indent]).writer
    ((w.append "  ").append "x").pending = "  x" ∧ (w.append ("  " ++ "x")).pending = "    x" ∧
      w.CutsMargin "  " "x" := by
  refine ⟨by decide, by decide, by decide, ⟨[], [' ', ' '], ?_⟩, by decide⟩
  exact ⟨rfl, by simp, rfl, by simp; decide⟩

end Writer

end RegisterMap.Swift
