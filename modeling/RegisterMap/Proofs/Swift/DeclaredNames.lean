import RegisterMap.Proofs.Swift.CommentFree

/-!
# Names that source text declares

The declaration of an instance or a property ends in a line with the word for it and
then its name, as source text writes it.  Comments and attributes stand before that
line.  The names that some code declares are those of all declarations in it, whatever
blocks they stand in.
-/

namespace RegisterMap.Swift

open RegisterMap.Text

/-! ## Words of a line -/

/-- What stands between the spaces of a line. -/
def words : List Char → List (List Char)
  | [] => [[]]
  | ' ' :: rest => [] :: words rest
  | c :: rest =>
      match words rest with
      | [] => [[c]]
      | word :: others => (c :: word) :: others

/-- The words that declare instances and properties. -/
def declaringWords : List (List Char) := ["let".toList, "var".toList]

/-- The word behind the first one that declares something, up to a colon. -/
def declaredWord? : List (List Char) → Option String
  | word :: next :: others =>
      if word ∈ declaringWords then some (String.ofList (next.takeWhile (· != ':')))
      else declaredWord? (next :: others)
  | _ => none

theorem words_append_space {word : List Char} (hword : ' ' ∉ word) (rest : List Char) :
    words (word ++ ' ' :: rest) = word :: words rest := by
  induction word with
  | nil => rfl
  | cons c word ih =>
      rw [List.mem_cons, not_or] at hword
      have hne : c ≠ ' ' := Ne.symm hword.1
      rw [List.cons_append, words, ih hword.2]
      exact hne

theorem words_ne_nil (line : List Char) : words line ≠ [] := by
  fun_cases words line <;> simp_all

/-- True of modifiers: no name is looked for behind a word of them. -/
def PassedOver (modifiers : String) : Prop :=
  ∀ line, declaredWord? (words (modifiers.toList ++ line)) = declaredWord? (words line)

theorem passedOver_empty : PassedOver "" := fun _ => rfl

theorem passedOver_word {word : String} (hspace : ' ' ∉ word.toList)
    (hword : word.toList ∉ declaringWords) : PassedOver (word ++ " ") := by
  intro line
  have hspaced : (word ++ " ").toList ++ line = word.toList ++ ' ' :: line := by
    simp [String.toList_append]
  rw [hspaced, words_append_space hspace]
  cases hline : words line with
  | nil => exact absurd hline (words_ne_nil line)
  | cons next others => rw [declaredWord?, if_neg hword]

theorem PassedOver.append {s t : String} (hs : PassedOver s) (ht : PassedOver t) :
    PassedOver (s ++ t) := by
  intro line
  rw [String.toList_append, List.append_assoc, hs, ht]

/-- What stands behind the name in a declaration: a space, or a colon and a space. -/
theorem declaredWord?_line {modifiers keyword name mark : String}
    (hmodifiers : PassedOver modifiers) (hkeyword : keyword.toList ∈ declaringWords)
    (hname : ∀ c ∈ name.toList, c ≠ ' ' ∧ c ≠ ':') (hmark : mark = "" ∨ mark = ":")
    (rest : String) :
    declaredWord? (words (modifiers ++ (keyword ++ " ") ++ name ++ (mark ++ " " ++ rest)).toList) =
      some name := by
  have hspace : ' ' ∉ keyword.toList := by
    have hall : ∀ word ∈ declaringWords, ' ' ∉ word := by decide
    exact hall _ hkeyword
  have hnext : ' ' ∉ name.toList ++ mark.toList := by
    rw [List.mem_append, not_or]
    refine ⟨fun hc => (hname _ hc).1 rfl, ?_⟩
    rcases hmark with rfl | rfl <;> decide
  have hplain : ∀ c ∈ name.toList, (c != ':') = true := fun c hc => bne_iff_ne.mpr (hname c hc).2
  have hcut : (name.toList ++ mark.toList).takeWhile (· != ':') = name.toList := by
    rw [List.takeWhile_append_of_pos hplain]
    rcases hmark with rfl | rfl <;> simp
  have hline : (modifiers ++ (keyword ++ " ") ++ name ++ (mark ++ " " ++ rest)).toList =
      modifiers.toList ++ (keyword.toList ++ ' ' :: ((name.toList ++ mark.toList) ++
        ' ' :: rest.toList)) := by
    simp [String.toList_append]
  rw [hline, hmodifiers, words_append_space hspace, words_append_space hnext, declaredWord?,
    if_pos hkeyword, hcut, String.ofList_toList]

/-! ## Names of declarations -/

/-- The last line of a text that is no comment. -/
def lastCodeLine? (text : String) : Option (List Char) :=
  (Code.codeLinesAt "" 0 [.lines text]).getLast?.map withoutEnd

/-- The name of the instance or property that a text declares. -/
def declaredName? (text : String) : Option String :=
  (lastCodeLine? text).bind fun line => declaredWord? (words line)

theorem lastCodeLine?_documented {line : String} (hcode : IsCode line)
    (hvisible : StartsVisible line) (subject : Subject) (front : List String) :
    lastCodeLine? (subject.documented (front ++ [line])) = some line.toList := by
  have hne : front ++ [line] ≠ [] := by simp
  rw [lastCodeLine?, Subject.documented, Code.codeLinesAt_documented (by decide) _ hne,
    Code.codeLinesAt_joinLines hne, List.flatMap_append, List.flatMap_singleton,
    Code.codeLinesAt_line hcode hvisible, List.getLast?_append, List.getLast?_singleton]
  exact congrArg some (Code.withoutEnd_line hcode.isPlain.single)

/-! ## Names of code -/

namespace Code

mutual

/-- The names that code declares, those in its blocks among them. -/
def declaredNames : Code → List String
  | lines text => (declaredName? text).toList
  | block _ body => namesOfAll body

def namesOfAll : List Code → List String
  | [] => []
  | code :: codes => code.declaredNames ++ namesOfAll codes

end

theorem namesOfAll_append (front back : List Code) :
    namesOfAll (front ++ back) = namesOfAll front ++ namesOfAll back := by
  induction front with
  | nil => rfl
  | cons code front ih => rw [List.cons_append, namesOfAll, namesOfAll, ih, List.append_assoc]

theorem namesOfAll_blankLine : namesOfAll [blankLine] = [] := by
  rw [namesOfAll, blankLine, declaredNames, declaredName?, lastCodeLine?, codeLinesAt,
    linesAt_empty]
  rfl

theorem nil_intercalate {α : Type} (pieces : List (List α)) :
    List.intercalate [] pieces = pieces.flatten := by
  induction pieces with
  | nil => rfl
  | cons piece pieces ih =>
      cases pieces with
      | nil => simp
      | cons next pieces =>
          rw [List.intercalate_cons_cons, List.append_nil, ih, ← List.flatten_cons]

theorem namesOfAll_spaced (pieces : List (List Code)) :
    namesOfAll (spaced pieces) = pieces.flatMap namesOfAll := by
  rw [map_spaced namesOfAll_append, namesOfAll_blankLine, nil_intercalate, List.flatMap_def]

/-- Spaces between declarations declare nothing. -/
theorem namesOfAll_declarations (texts : List String) :
    namesOfAll (declarations texts) = texts.filterMap declaredName? := by
  rw [declarations, namesOfAll_spaced, List.flatMap_map]
  induction texts with
  | nil => rfl
  | cons text texts ih =>
      rw [List.flatMap_cons, ih, List.filterMap_cons, namesOfAll, namesOfAll, declaredNames]
      cases declaredName? text <;> rfl

end Code

end RegisterMap.Swift
