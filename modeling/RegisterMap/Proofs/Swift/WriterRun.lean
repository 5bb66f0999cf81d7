import Mathlib.Data.List.DropRight
import RegisterMap.Proofs.Swift.LaidLines

/-!
# Runs of a writer that writes on

A writer that passes over the steps it refuses is told by the steps that it took.
Its depth is that of the indents and outdents among them.  A unit holds the texts
that were appended since the unit before, one after the other, with copies of the
indentation at starts of lines: as many as the depth had levels, if the texts are
made of whole lines.
-/

namespace RegisterMap.Swift

open RegisterMap.Text

/-! ## Texts with an indentation -/

/-- True if the text behind some characters begins a line. -/
def beginsLine (atStart : Bool) (cs : List Char) : Bool :=
  cs.foldl (fun _ c => c == '\n') atStart

/--
`Indented indentation atStart cs shown` says that `shown` is `cs` with copies of the
indentation between its characters, all of them behind a line feed of `cs` or, if the
text starts a line, in front.
-/
inductive Indented (indentation : List Char) : Bool → List Char → List Char → Prop
  | nil {atStart : Bool} : Indented indentation atStart [] []
  | char {atStart : Bool} {c : Char} {cs shown : List Char} :
      Indented indentation (c == '\n') cs shown →
      Indented indentation atStart (c :: cs) (c :: shown)
  | margin (copies : Nat) {c : Char} {cs shown : List Char} :
      Indented indentation (c == '\n') cs shown →
      Indented indentation true (c :: cs) (marginAt indentation copies ++ c :: shown)

/-- True of a text that is made of whole lines: each ends in a line feed, and in nothing else. -/
def IsLines (cs : List Char) : Prop :=
  cs.getLast? = some '\n' ∧ ∀ c ∈ cs, isLineSeparator c = true → c = '\n'

/-- The lines of a text of whole lines, without their ends. -/
def wholeLines (cs : List Char) : List (List Char) :=
  (cs.splitOn '\n').dropLast

/-- Whole lines with some levels of indentation in front of each that is not blank. -/
def indentedLines (indentation : List Char) (depth : Nat) (cs : List Char) : List Char :=
  (wholeLines cs).flatMap fun line =>
    (if line.all isBlank then [] else marginAt indentation depth) ++ line ++ ['\n']

section

variable {indentation cs ds shown more : List Char} {atStart : Bool}

theorem beginsLine_append (atStart : Bool) (cs ds : List Char) :
    beginsLine atStart (cs ++ ds) = beginsLine (beginsLine atStart cs) ds := by
  simp [beginsLine]

theorem beginsLine_of_ne_nil (h : cs ≠ []) :
    beginsLine atStart cs = (cs.getLast? == some '\n') := by
  obtain rfl | ⟨front, c, rfl⟩ := List.eq_nil_or_concat' cs
  · exact absurd rfl h
  · simp [beginsLine]

theorem Indented.plain (cs : List Char) : Indented indentation atStart cs cs := by
  induction cs generalizing atStart with
  | nil => exact .nil
  | cons c cs ih => exact .char ih

theorem Indented.append (h : Indented indentation atStart cs shown)
    (hmore : Indented indentation (beginsLine atStart cs) ds more) :
    Indented indentation atStart (cs ++ ds) (shown ++ more) := by
  induction h with
  | nil => exact hmore
  | char _ ih => exact .char (ih hmore)
  | margin copies _ ih =>
      rw [List.append_assoc]
      exact .margin copies (ih hmore)

/-- A text of whole lines is cut at its line feeds. -/
theorem linesWithEnds_eq_map_wholeLines (h : cs = [] ∨ IsLines cs) :
    linesWithEnds cs = (wholeLines cs).map (· ++ ['\n']) := by
  induction cs with
  | nil => rfl
  | cons c cs ih =>
      rcases h.resolve_left (List.cons_ne_nil c cs) with ⟨hend, hfeeds⟩
      have hrest : cs = [] ∨ IsLines cs := by
        cases cs with
        | nil => exact .inl rfl
        | cons d cs => exact .inr ⟨by simpa using hend, fun e he => hfeeds e (.tail c he)⟩
      have hpieces := List.splitOn_ne_nil '\n' cs
      by_cases hfeed : c = '\n'
      · subst hfeed
        have hcut := linesWithEnds_append_newline [] cs
        rw [List.nil_append] at hcut
        rw [hcut, ih hrest, wholeLines, wholeLines, List.splitOn_cons_eq_if_modifyHead,
          if_pos (beq_self_eq_true _), List.dropLast_cons_of_ne_nil hpieces]
        rfl
      · have hplain : isLineSeparator c = false := by
          by_contra hseparator
          exact hfeed (hfeeds c List.mem_cons_self (by simpa using hseparator))
        have hmore : cs ≠ [] := by
          rintro rfl
          exact hfeed (by simpa using hend)
        have hlines := ih hrest
        rw [wholeLines] at hlines
        rw [wholeLines, List.splitOn_cons_eq_if_modifyHead, if_neg (by simpa using hfeed)]
        match hsplit : cs.splitOn '\n' with
        | [] => exact absurd hsplit hpieces
        | [piece] =>
            rw [hsplit] at hlines
            exact absurd (linesWithEnds_eq_nil_iff.mp hlines) hmore
        | piece :: next :: pieces =>
            rw [hsplit] at hlines
            exact linesWithEnds_cons hplain hlines

end

/-! ## Texts appended -/

namespace Writer

variable {w : Writer}

theorem toList_margin (w : Writer) : w.margin.toList = marginAt w.indentation.toList w.depth := by
  simp only [margin, marginAt, String.toList_join, List.flatMap_replicate]

theorem indented_appendLine (w : Writer) {line : List Char} (hline : line ≠ []) :
    ∃ added, (w.appendLine line).pending = w.pending ++ String.ofList added ∧
      Indented w.indentation.toList w.atLineStart line added ∧
      (w.appendLine line).atLineStart = beginsLine w.atLineStart line := by
  rw [beginsLine_of_ne_nil hline]
  by_cases hmargin : (w.atLineStart && !line.all isBlank) = true
  · have hstart : w.atLineStart = true := by
      rw [Bool.and_eq_true] at hmargin
      exact hmargin.1
    refine ⟨marginAt w.indentation.toList w.depth ++ line, ?_, ?_, rfl⟩
    · have hpadding : w.margin = String.ofList (marginAt w.indentation.toList w.depth) := by
        rw [← toList_margin, String.ofList_toList]
      simp only [appendLine, hmargin, if_true, hpadding, String.ofList_append,
        String.append_assoc]
    · cases line with
      | nil => exact absurd rfl hline
      | cons c line =>
          rw [hstart]
          exact .margin w.depth (.plain line)
  · refine ⟨line, ?_, .plain line, rfl⟩
    simp only [appendLine, if_neg hmargin, String.append_empty]

theorem indented_foldl_appendLine (w : Writer) {lines : List (List Char)}
    (hlines : ∀ line ∈ lines, line ≠ []) :
    ∃ added, (lines.foldl appendLine w).pending = w.pending ++ String.ofList added ∧
      Indented w.indentation.toList w.atLineStart lines.flatten added ∧
      (lines.foldl appendLine w).atLineStart = beginsLine w.atLineStart lines.flatten := by
  induction lines generalizing w with
  | nil => exact ⟨[], by simp, .nil, rfl⟩
  | cons line lines ih =>
      rcases w.indented_appendLine (hlines line List.mem_cons_self) with
        ⟨first, hfirst, hshown, hflag⟩
      rcases ih (w.appendLine line) fun l hl => hlines l (.tail line hl) with
        ⟨rest, hrest, hshowns, hflags⟩
      rw [hflag] at hshowns hflags
      refine ⟨first ++ rest, ?_, hshown.append hshowns, ?_⟩
      · rw [List.foldl_cons, hrest, hfirst, String.ofList_append, String.append_assoc]
      · rw [List.foldl_cons, hflags, List.flatten_cons, beginsLine_append]

/-- What is appended comes behind what is there, with copies of the indentation. -/
theorem indented_append (w : Writer) (text : String) :
    ∃ added, (w.append text).pending = w.pending ++ String.ofList added ∧
      Indented w.indentation.toList w.atLineStart text.toList added ∧
      (w.append text).atLineStart = beginsLine w.atLineStart text.toList := by
  have hne : ∀ line ∈ linesWithEnds text.toList, line ≠ [] := fun _ => ne_nil_of_mem_linesWithEnds
  have hlines := w.indented_foldl_appendLine hne
  rwa [flatten_linesWithEnds] at hlines

/-- Whole lines at the start of a line go behind the indentation, the blank ones apart. -/
theorem append_isLines (hstart : w.atLineStart = true) {text : String}
    (htext : IsLines text.toList) :
    (w.append text).atLineStart = true ∧
      (w.append text).pending.toList =
        w.pending.toList ++ indentedLines w.indentation.toList w.depth text.toList := by
  rw [append, linesWithEnds_eq_map_wholeLines (.inr htext), indentedLines]
  generalize wholeLines text.toList = lines
  induction lines generalizing w with
  | nil => exact ⟨hstart, by simp⟩
  | cons line lines ih =>
      have hflag : (w.appendLine (line ++ ['\n'])).atLineStart = true := by simp [appendLine]
      have hfirst : (w.appendLine (line ++ ['\n'])).pending.toList = w.pending.toList ++
          ((if line.all isBlank then [] else marginAt w.indentation.toList w.depth) ++ line ++
            ['\n']) := by
        have hfeed : isBlank '\n' = true := rfl
        cases hblank : line.all isBlank <;> simp [appendLine, hstart, hblank, hfeed, toList_margin]
      rcases ih hflag with ⟨hflags, hrest⟩
      refine ⟨hflags, ?_⟩
      rw [List.map_cons, List.foldl_cons, hrest, hfirst, List.flatMap_cons, List.append_assoc]
      rfl

end Writer

/-! ## Steps taken and refused -/

def LayoutStep.isFlush : LayoutStep → Bool
  | .flush _ => true
  | _ => false

def LayoutStep.appended? : LayoutStep → Option String
  | .append text => some text
  | _ => none

namespace LayoutState

/-- A writer that has done nothing yet, over an empty store. -/
def start (indentation : String) : LayoutState :=
  { writer := { indentation } }

/-- The steps that are not refused, each with the depth at which it is taken. -/
def taken (state : LayoutState) : List LayoutStep → List (Nat × LayoutStep)
  | [] => []
  | s :: steps =>
      match state.take s with
      | .error _ => taken state steps
      | .ok next => (state.writer.depth, s) :: taken next steps

/-- The texts that were appended since the last flush, each with the depth at which it was. -/
def unitTexts (log : List (Nat × LayoutStep)) : List (Nat × String) :=
  (log.rtakeWhile fun entry => !entry.2.isFlush).filterMap fun entry =>
    entry.2.appended?.map (entry.1, ·)

def joinTexts (texts : List (Nat × String)) : List Char :=
  texts.flatMap fun text => text.2.toList

variable {state next : LayoutState} {s : LayoutStep}

theorem take_outdent_of_pos {depth : Nat} (h : state.writer.depth = depth + 1) :
    state.take .outdent = .ok { state with writer := { state.writer with depth := depth } } := by
  simp only [take, Writer.step, Writer.outdent, h]
  rfl

theorem take_outdent_of_zero (h : state.writer.depth = 0) :
    state.take .outdent = .error .unmatchedOutdent := by
  simp only [take, Writer.step, Writer.outdent, h]
  rfl

theorem take_flush_of_zero (h : state.writer.depth = 0) (unitName : String) :
    state.take (.flush unitName) = .ok
      ⟨{ state.writer with pending := "", atLineStart := true },
        state.store.put ⟨unitName, state.writer.pending⟩⟩ := by
  simp only [take, Writer.step, Writer.flush, h]
  rfl

theorem take_flush_of_pos (h : state.writer.depth ≠ 0) (unitName : String) :
    state.take (.flush unitName) = .error (.unbalanced state.writer.depth unitName) := by
  simp only [take, Writer.step, Writer.flush, if_neg h]
  rfl

/-- What a step that is taken does. -/
theorem take_cases (h : state.take s = .ok next) :
    (∃ text, s = .append text ∧ next = ⟨state.writer.append text, state.store⟩) ∨
      (s = .indent ∧ next = ⟨state.writer.indent, state.store⟩) ∨
      (∃ depth, s = .outdent ∧ state.writer.depth = depth + 1 ∧
        next = { state with writer := { state.writer with depth := depth } }) ∨
      ∃ unitName, s = .flush unitName ∧ state.writer.depth = 0 ∧
        next = ⟨{ state.writer with pending := "", atLineStart := true },
          state.store.put ⟨unitName, state.writer.pending⟩⟩ := by
  cases s with
  | append text => exact .inl ⟨text, rfl, (Except.ok.inj h).symm⟩
  | indent => exact .inr (.inl ⟨rfl, (Except.ok.inj h).symm⟩)
  | outdent =>
      cases hdepth : state.writer.depth with
      | zero =>
          rw [take_outdent_of_zero hdepth] at h
          cases h
      | succ depth =>
          rw [take_outdent_of_pos hdepth] at h
          exact .inr (.inr (.inl ⟨depth, rfl, rfl, (Except.ok.inj h).symm⟩))
  | flush unitName =>
      by_cases hdepth : state.writer.depth = 0
      · rw [take_flush_of_zero hdepth] at h
        exact .inr (.inr (.inr ⟨unitName, rfl, hdepth, (Except.ok.inj h).symm⟩))
      · rw [take_flush_of_pos hdepth] at h
        cases h

/-- Which steps are refused, and with which error. -/
theorem take_eq_error_iff {e : LayoutError} :
    state.take s = .error e ↔
      s = .outdent ∧ state.writer.depth = 0 ∧ e = .unmatchedOutdent ∨
      ∃ unitName, s = .flush unitName ∧ state.writer.depth ≠ 0 ∧
        e = .unbalanced state.writer.depth unitName := by
  constructor
  · intro h
    cases s with
    | append text => cases h
    | indent => cases h
    | outdent =>
        cases hdepth : state.writer.depth with
        | zero =>
            rw [take_outdent_of_zero hdepth] at h
            exact .inl ⟨rfl, rfl, (Except.error.inj h).symm⟩
        | succ depth =>
            rw [take_outdent_of_pos hdepth] at h
            cases h
    | flush unitName =>
        by_cases hdepth : state.writer.depth = 0
        · rw [take_flush_of_zero hdepth] at h
          cases h
        · rw [take_flush_of_pos hdepth] at h
          exact .inr ⟨unitName, rfl, hdepth, (Except.error.inj h).symm⟩
  · rintro (⟨rfl, hdepth, rfl⟩ | ⟨unitName, rfl, hdepth, rfl⟩)
    · exact take_outdent_of_zero hdepth
    · exact take_flush_of_pos hdepth unitName

theorem after_of_ok (h : state.take s = .ok next) : state.after s = next := by
  rw [after, h]
  rfl

theorem after_of_error {e : LayoutError} (h : state.take s = .error e) :
    state.after s = state := by
  rw [after, h]
  rfl

theorem afterAll_concat (state : LayoutState) (steps : List LayoutStep) (s : LayoutStep) :
    state.afterAll (steps ++ [s]) = (state.afterAll steps).after s :=
  List.foldl_concat after state s steps

theorem taken_concat (state : LayoutState) (steps : List LayoutStep) (s : LayoutStep) :
    state.taken (steps ++ [s]) = state.taken steps ++ (state.afterAll steps).taken [s] := by
  induction steps generalizing state with
  | nil => rfl
  | cons first steps ih =>
      rw [List.cons_append, taken, taken]
      cases hfirst : state.take first with
      | error e =>
          have hafter : state.afterAll (first :: steps) = state.afterAll steps :=
            congrArg (afterAll · steps) (after_of_error hfirst)
          rw [hafter]
          exact ih state
      | ok next =>
          have hafter : state.afterAll (first :: steps) = next.afterAll steps :=
            congrArg (afterAll · steps) (after_of_ok hfirst)
          rw [hafter, List.cons_append]
          exact congrArg _ (ih next)

/-! ## What the steps tell -/

/-- True of a state that is the one the taken steps tell. -/
structure Follows (indentation : String) (steps : List LayoutStep)
    (log : List (Nat × LayoutStep)) (state : LayoutState) : Prop where
  keeps : state.writer.indentation = indentation
  depth : state.writer.depth + (log.map Prod.snd).count .outdent = steps.count .indent
  atLineStart : state.writer.atLineStart = beginsLine true (joinTexts (unitTexts log))
  pending : Indented indentation.toList true (joinTexts (unitTexts log))
    state.writer.pending.toList
  lines : (∀ text ∈ unitTexts log, IsLines text.2.toList) →
    state.writer.atLineStart = true ∧
      state.writer.pending.toList = (unitTexts log).flatMap fun text =>
        indentedLines indentation.toList text.1 text.2.toList

variable {indentation : String} {steps : List LayoutStep} {log : List (Nat × LayoutStep)}

theorem unitTexts_concat_append (log : List (Nat × LayoutStep)) (depth : Nat) (text : String) :
    unitTexts (log ++ [(depth, .append text)]) = unitTexts log ++ [(depth, text)] := by
  simp [unitTexts, LayoutStep.isFlush, LayoutStep.appended?]

theorem unitTexts_concat_flush (log : List (Nat × LayoutStep)) (depth : Nat) (unitName : String) :
    unitTexts (log ++ [(depth, .flush unitName)]) = [] := by
  simp [unitTexts, LayoutStep.isFlush]

theorem unitTexts_concat_other (log : List (Nat × LayoutStep)) (depth : Nat)
    (hflush : s.isFlush = false) (happend : s.appended? = none) :
    unitTexts (log ++ [(depth, s)]) = unitTexts log := by
  simp [unitTexts, hflush, happend]

theorem follows_start (indentation : String) : Follows indentation [] [] (start indentation) where
  keeps := rfl
  depth := rfl
  atLineStart := rfl
  pending := .nil
  lines := fun _ => ⟨rfl, rfl⟩

theorem Follows.refused (h : Follows indentation steps log state) {e : LayoutError}
    (hs : state.take s = .error e) : Follows indentation (steps ++ [s]) log state := by
  have hindent : s ≠ .indent := by
    rintro rfl
    cases hs
  refine { h with depth := ?_ }
  rw [h.depth, List.count_append, List.count_singleton]
  simp [hindent]

theorem Follows.append (h : Follows indentation steps log state) (text : String) :
    Follows indentation (steps ++ [.append text])
      (log ++ [(state.writer.depth, .append text)])
      ⟨state.writer.append text, state.store⟩ := by
  have hjoin : joinTexts (unitTexts log ++ [(state.writer.depth, text)]) =
      joinTexts (unitTexts log) ++ text.toList := by
    simp [joinTexts]
  rcases state.writer.indented_append text with ⟨added, hadded, hshown, hflag⟩
  rw [h.keeps, h.atLineStart] at hshown
  refine ⟨?_, ?_, ?_, ?_, ?_⟩
  · rw [Writer.indentation_append, h.keeps]
  · have hdepth := h.depth
    simp only [Writer.depth_append, List.map_append, List.count_append]
    simpa using hdepth
  · rw [unitTexts_concat_append, hjoin, beginsLine_append, ← h.atLineStart]
    exact hflag
  · rw [unitTexts_concat_append, hjoin, hadded, String.toList_append, String.toList_ofList]
    exact h.pending.append hshown
  · rw [unitTexts_concat_append]
    intro hlines
    have hbefore := h.lines fun t ht => hlines t (List.mem_append_left _ ht)
    have htext : IsLines text.toList :=
      hlines (state.writer.depth, text) (List.mem_append_right _ (List.mem_singleton_self _))
    rcases Writer.append_isLines hbefore.1 htext with ⟨hstart, hpending⟩
    refine ⟨hstart, ?_⟩
    rw [hpending, hbefore.2, h.keeps, List.flatMap_append, List.flatMap_singleton]

theorem Follows.indent (h : Follows indentation steps log state) :
    Follows indentation (steps ++ [.indent]) (log ++ [(state.writer.depth, .indent)])
      ⟨state.writer.indent, state.store⟩ := by
  have htexts := unitTexts_concat_other (s := .indent) log state.writer.depth rfl rfl
  refine ⟨h.keeps, ?_, ?_, ?_, ?_⟩
  · have hdepth := h.depth
    have hindents : [LayoutStep.indent].count .indent = 1 := rfl
    have houtdents : [LayoutStep.indent].count .outdent = 0 := rfl
    simp only [Writer.indent, List.map_append, List.map_cons, List.map_nil, List.count_append]
    omega
  all_goals rw [htexts]
  · exact h.atLineStart
  · exact h.pending
  · exact h.lines

theorem Follows.outdent (h : Follows indentation steps log state) {depth : Nat}
    (hdepth : state.writer.depth = depth + 1) :
    Follows indentation (steps ++ [.outdent]) (log ++ [(state.writer.depth, .outdent)])
      { state with writer := { state.writer with depth := depth } } := by
  have htexts := unitTexts_concat_other (s := .outdent) log state.writer.depth rfl rfl
  refine ⟨h.keeps, ?_, ?_, ?_, ?_⟩
  · have hlevel := h.depth
    have hindents : [LayoutStep.outdent].count .indent = 0 := rfl
    have houtdents : [LayoutStep.outdent].count .outdent = 1 := rfl
    simp only [List.map_append, List.map_cons, List.map_nil, List.count_append]
    omega
  all_goals rw [htexts]
  · exact h.atLineStart
  · exact h.pending
  · exact h.lines

theorem Follows.flush (h : Follows indentation steps log state) (unitName : String) :
    Follows indentation (steps ++ [.flush unitName])
      (log ++ [(state.writer.depth, .flush unitName)])
      ⟨{ state.writer with pending := "", atLineStart := true },
        state.store.put ⟨unitName, state.writer.pending⟩⟩ := by
  have htexts := unitTexts_concat_flush log state.writer.depth unitName
  refine ⟨h.keeps, ?_, ?_, ?_, ?_⟩
  · have hdepth := h.depth
    simp only [List.map_append, List.count_append]
    simpa using hdepth
  all_goals rw [htexts]
  · rfl
  · exact .nil
  · exact fun _ => ⟨rfl, rfl⟩

theorem Follows.step (h : Follows indentation steps log state) (hs : state.take s = .ok next) :
    Follows indentation (steps ++ [s]) (log ++ [(state.writer.depth, s)]) next := by
  rcases take_cases hs with ⟨text, rfl, rfl⟩ | ⟨rfl, rfl⟩ | ⟨depth, rfl, hdepth, rfl⟩ |
    ⟨unitName, rfl, -, rfl⟩
  · exact h.append text
  · exact h.indent
  · exact h.outdent hdepth
  · exact h.flush unitName

theorem follows_afterAll (indentation : String) (steps : List LayoutStep) :
    Follows indentation steps ((start indentation).taken steps)
      ((start indentation).afterAll steps) := by
  induction steps using List.reverseRecOn with
  | nil => exact follows_start indentation
  | append_singleton steps s ih =>
      rw [afterAll_concat, taken_concat, taken]
      cases hs : ((start indentation).afterAll steps).take s with
      | error e =>
          rw [after_of_error hs]
          simpa [taken] using ih.refused hs
      | ok next =>
          rw [after_of_ok hs]
          exact ih.step hs

/--
After any steps, the depth is that of the indents and of the outdents that were taken.
An outdent is refused exactly at depth zero and a flush exactly at any other; a step
that is refused changes nothing.  A flush that is taken puts one unit into the store,
which nothing else changes.  The unit holds the texts appended since the last flush,
in their order, with copies of the indentation at its start and behind line feeds
only.  If the texts are whole lines, there are as many copies as the depth at which
a text was appended, in front of each of its lines that is not blank.
-/
theorem afterAll_start_spec (indentation : String) (steps : List LayoutStep) :
    let state := (start indentation).afterAll steps
    let log := (start indentation).taken steps
    let texts := unitTexts log
    state.writer.depth + (log.map Prod.snd).count .outdent = steps.count .indent ∧
      (∀ s e, state.take s = .error e ↔
        s = .outdent ∧ state.writer.depth = 0 ∧ e = .unmatchedOutdent ∨
        ∃ unitName, s = .flush unitName ∧ state.writer.depth ≠ 0 ∧
          e = .unbalanced state.writer.depth unitName) ∧
      (∀ s e, state.take s = .error e → state.after s = state) ∧
      (∀ unitName, state.writer.depth = 0 →
        ∃ text, state.after (.flush unitName) =
            ⟨{ indentation }, state.store.put ⟨unitName, text⟩⟩ ∧
          Indented indentation.toList true (joinTexts texts) text.toList ∧
          ((∀ t ∈ texts, IsLines t.2.toList) →
            text.toList = texts.flatMap fun t =>
              indentedLines indentation.toList t.1 t.2.toList)) ∧
      ∀ s, s.isFlush = false → (state.after s).store = state.store := by
  intro state log texts
  have hfollows : Follows indentation steps log state := follows_afterAll indentation steps
  refine ⟨hfollows.depth, fun s e => take_eq_error_iff, fun s e => after_of_error, ?_, ?_⟩
  · intro unitName hdepth
    refine ⟨state.writer.pending, ?_, hfollows.pending, fun hlines => (hfollows.lines hlines).2⟩
    rw [after_of_ok (take_flush_of_zero hdepth unitName)]
    simp only [hfollows.keeps, hdepth]
  · intro s hs
    cases htake : state.take s with
    | error e => rw [after_of_error htake]
    | ok next =>
        rw [after_of_ok htake]
        rcases take_cases htake with ⟨text, rfl, rfl⟩ | ⟨rfl, rfl⟩ | ⟨depth, rfl, -, rfl⟩ |
          ⟨unitName, rfl, -, -⟩
        · rfl
        · rfl
        · rfl
        · cases hs

end LayoutState

end RegisterMap.Swift
