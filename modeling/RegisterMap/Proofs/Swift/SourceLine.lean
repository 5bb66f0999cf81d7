import RegisterMap.Proofs.Swift.Nesting

/-!
# Source lines

What the lines of source text are to the blocks around them: the lines of a
description are comments whatever it holds, a heading ends in its brace, and a line
without braces and slashes can be neither.
-/

namespace RegisterMap.Swift

open RegisterMap.Text

/-! ## Visible beginnings -/

/-- True of a text that begins with something visible. -/
def StartsVisible (text : String) : Prop :=
  (text.toList.head?.any fun c => !isBlank c) = true

instance : DecidablePred StartsVisible :=
  fun text => inferInstanceAs (Decidable ((text.toList.head?.any fun c => !isBlank c) = true))

theorem StartsVisible.exists_cons {text : String} (h : StartsVisible text) :
    ∃ c rest, text.toList = c :: rest ∧ isBlank c = false := by
  unfold StartsVisible at h
  cases htext : text.toList with
  | nil => simp [htext] at h
  | cons c rest => exact ⟨c, rest, rfl, by simpa [htext] using h⟩

theorem StartsVisible.append {s : String} (h : StartsVisible s) (t : String) :
    StartsVisible (s ++ t) := by
  rcases h.exists_cons with ⟨c, rest, hs, hc⟩
  simp [StartsVisible, hs, hc]

/-! ## Statements -/

theorem mem_of_mem_strip {c : Char} {cs : List Char} (h : c ∈ strip cs) : c ∈ cs := by
  have hend := (List.dropWhile_sublist (p := isBlank)).mem (List.mem_reverse.mp h)
  exact (List.dropWhile_sublist (p := isBlank)).mem (List.mem_reverse.mp hend)

theorem isSingle_append {s t : String} : IsSingle (s ++ t) ↔ IsSingle s ∧ IsSingle t := by
  simp only [IsSingle, String.toList_append, List.forall_mem_append]

theorem isSingle_intercalate {sep : String} {pieces : List String} (hsep : IsSingle sep)
    (hpieces : ∀ piece ∈ pieces, IsSingle piece) : IsSingle (String.intercalate sep pieces) := by
  intro c hc
  rw [String.toList_intercalate] at hc
  rcases mem_intercalate hc with hc | ⟨piece, hpiece, hc⟩
  · exact hsep c hc
  · rcases List.mem_map.mp hpiece with ⟨text, htext, rfl⟩
    exact hpieces text htext c hc

theorem IsPlain.single {text : String} (h : IsPlain text) : IsSingle text :=
  fun c hc => isLineSeparator_of_isPlainChar (List.all_eq_true.mp h c hc)

theorem IsName.isSingle {name : String} (h : IsName name) : IsSingle name :=
  h.isCode.isPlain.single

theorem IsSingle.identifier {name : String} (h : IsSingle name) :
    IsSingle (Swift.identifier name) := by
  have hquote : IsSingle "`" := by decide
  unfold Swift.identifier
  split
  · exact isSingle_append.mpr ⟨isSingle_append.mpr ⟨hquote, h⟩, hquote⟩
  · exact h

theorem IsCode.ne_of_mem {text : String} (h : IsCode text) {c : Char} (hc : c ∈ text.toList) :
    c ≠ '\x7b' ∧ c ≠ '\x7d' ∧ c ≠ '/' := by
  have hcode := List.all_eq_true.mp h c hc
  simp only [isCodeChar, Bool.and_eq_true, bne_iff_ne] at hcode
  exact ⟨hcode.1.1.2, hcode.1.2, hcode.2⟩

theorem isComment_eq_false {c : Char} (hc : isBlank c = false) (hslash : c ≠ '/')
    (rest : List Char) : isComment (c :: rest) = false := by
  have hne : ('/' == c) = false := beq_false_of_ne hslash.symm
  rw [isComment, List.dropWhile_cons_of_neg (by simp [hc]), List.isPrefixOf, hne, Bool.false_and]

/-- A line without braces and slashes neither changes the depth nor is it a comment. -/
theorem hasKind_plain {line : String} (hcode : IsCode line) (hvisible : StartsVisible line) :
    HasKind .plain line := by
  refine ⟨hcode.isPlain.single, hvisible.exists_cons, ?_⟩
  rcases hvisible.exists_cons with ⟨c, rest, hline, hc⟩
  have hslash := (hcode.ne_of_mem (hline ▸ List.mem_cons_self)).2.2
  have hcomment : isComment line.toList = false := by
    rw [hline, isComment_eq_false hc hslash]
  have hclosing : strip line.toList ≠ ['\x7d'] := by
    intro hstrip
    have hmem : '\x7d' ∈ strip line.toList := hstrip ▸ List.mem_singleton_self _
    exact (hcode.ne_of_mem (mem_of_mem_strip hmem)).2.1 rfl
  have hopening : line.toList.getLast? ≠ some '\x7b' := by
    intro hlast
    exact (hcode.ne_of_mem (List.mem_of_getLast? hlast)).1 rfl
  have hblank : line.toList.all isBlank = false := by simp [hline, hc]
  simp [lineKind, hblank, hcomment, hclosing, hopening]

theorem isFlat_of_isCode {line : String} (hcode : IsCode line) (hvisible : StartsVisible line) :
    IsFlat line :=
  .inr (.inr (hasKind_plain hcode hvisible))

/-! ## Headings -/

theorem strip_concat {c d : Char} (hc : isBlank c = false) (hd : isBlank d = false)
    (cs : List Char) : strip (c :: (cs ++ [d])) = c :: (cs ++ [d]) := by
  rw [strip, List.dropWhile_cons_of_neg (by simp [hc]), stripEnd, List.reverse_cons,
    List.reverse_append, List.reverse_singleton, List.singleton_append, List.cons_append,
    List.dropWhile_cons_of_neg (by simp [hd])]
  simp

/-- Words, a name of any characters, and a brace open a block. -/
theorem hasKind_opening (lead : String) {name : String} (hcode : IsCode lead)
    (hvisible : StartsVisible lead) (hname : IsSingle name) :
    HasKind .opening (lead ++ name ++ " \x7b") := by
  have hbrace : isBlank '\x7b' = false := by decide
  have hend : IsSingle " \x7b" := by decide
  rcases hvisible.exists_cons with ⟨c, rest, hlead, hc⟩
  have hline : (lead ++ name ++ " \x7b").toList =
      c :: (rest ++ name.toList ++ [' '] ++ ['\x7b']) := by
    rw [String.toList_append, String.toList_append, hlead]
    simp
  have hslash := (hcode.ne_of_mem (hlead ▸ List.mem_cons_self)).2.2
  have hstrip := strip_concat hc hbrace (rest ++ name.toList ++ [' '])
  have hcomment := isComment_eq_false hc hslash (rest ++ name.toList ++ [' '] ++ ['\x7b'])
  refine ⟨?_, ((hvisible.append _).append _).exists_cons, ?_⟩
  · exact isSingle_append.mpr ⟨isSingle_append.mpr ⟨hcode.isPlain.single, hname⟩, hend⟩
  · simp only [hline, lineKind, hcomment, hstrip]
    simp [hc, List.getLast?_cons, List.getLast?_append]

/-! ## Comments -/

theorem mem_docComment {description : Option String} {line : String}
    (h : line ∈ docComment description) :
    ∃ cs : List Char, line = "/// " ++ String.ofList cs ∧ ∀ c ∈ cs, isLineSeparator c = false := by
  cases description with
  | none => cases h
  | some text =>
      rcases List.mem_filterMap.mp h with ⟨cs, hcs, hline⟩
      rcases List.mem_map.mp hcs with ⟨cut, hcut, rfl⟩
      rcases List.mem_map.mp hcut with ⟨ended, -, rfl⟩
      rw [Option.ite_none_left_eq_some, Option.some.injEq] at hline
      refine ⟨_, hline.2.symm, fun c hc => ?_⟩
      have hmem := mem_of_mem_strip hc
      simp only [withoutEnd, List.mem_filter] at hmem
      simpa using hmem.2

/-- Each line of a description is a comment. -/
theorem hasKind_comment {description : Option String} {line : String}
    (h : line ∈ docComment description) : HasKind .comment line := by
  rcases mem_docComment h with ⟨cs, rfl, hcs⟩
  have hline : ("/// " ++ String.ofList cs).toList = '/' :: '/' :: '/' :: ' ' :: cs := by simp
  have hslash : isBlank '/' = false := by decide
  refine ⟨?_, ⟨_, _, hline, hslash⟩, ?_⟩
  · have hfront : IsSingle "/// " := by decide
    refine isSingle_append.mpr ⟨hfront, ?_⟩
    rwa [IsSingle, String.toList_ofList]
  · rw [hline]
    simp [lineKind, isComment, hslash]

theorem isFlat_docComment {description : Option String} :
    ∀ line ∈ docComment description, IsFlat line :=
  fun _ hline => .inr (.inl (hasKind_comment hline))

/-! ## Documented lines -/

namespace Code

variable {indentation : String}

theorem forall_isFlat_documented {description : Option String} {lines : List String}
    (h : ∀ line ∈ lines, IsFlat line) : ∀ line ∈ docComment description ++ lines, IsFlat line :=
  List.forall_mem_append.mpr ⟨isFlat_docComment, h⟩

theorem Nested.documented (hindent : IsIndentation indentation) (subject : Subject)
    {lines : List String} (hne : lines ≠ []) (h : ∀ line ∈ lines, IsFlat line) :
    Nested indentation [.lines (subject.documented lines)] :=
  .lines hindent (List.append_ne_nil_of_right_ne_nil _ hne) (forall_isFlat_documented h)

theorem Nested.documentedBlock (hindent : IsIndentation indentation) (subject : Subject)
    (front : List String) {last : String} {body : List Code} (hfront : ∀ line ∈ front, IsFlat line)
    (hlast : HasKind .opening last) (hbody : Nested indentation body) :
    Nested indentation [.block (subject.documented (front ++ [last])) body] := by
  rw [Subject.documented, ← List.append_assoc]
  exact .block hindent _ (forall_isFlat_documented hfront) hlast hbody

theorem Nested.declarations (hindent : IsIndentation indentation) {texts : List String}
    (h : ∀ text ∈ texts, Nested indentation [.lines text]) :
    Nested indentation (declarations texts) := by
  refine .spaced hindent fun piece hpiece => ?_
  rcases List.mem_map.mp hpiece with ⟨text, htext, rfl⟩
  exact h text htext

end Code

end RegisterMap.Swift
