import Mathlib.Data.List.Basic
import RegisterMap.Text.Blank
import RegisterMap.Text.Line

/-!
# Lines put together

A line feed ends a line whatever comes before it, so a text is cut there, and a
text without separators is one line.  Where one text is put behind another, the two
lines that meet are one line or two, and all others stay as they are.
-/

namespace RegisterMap.Text

theorem linesWithEnds_eq_nil_iff {cs : List Char} : linesWithEnds cs = [] ↔ cs = [] := by
  constructor
  · intro h
    have hflat := flatten_linesWithEnds cs
    rw [h] at hflat
    exact hflat.symm
  · intro heq
    subst heq
    rfl

theorem linesWithEnds_cons_of_separator {c : Char} {cs : List Char}
    (hc : isLineSeparator c = true) (hpair : ∀ rest, c = '\r' → cs ≠ '\n' :: rest) :
    linesWithEnds (c :: cs) = [c] :: linesWithEnds cs := by
  rw [linesWithEnds.eq_3 _ _ hpair, if_pos hc]

theorem linesWithEnds_cons {c : Char} {cs line : List Char} {lines : List (List Char)}
    (hc : isLineSeparator c = false) (hcs : linesWithEnds cs = line :: lines) :
    linesWithEnds (c :: cs) = (c :: line) :: lines := by
  rw [linesWithEnds.eq_3 _ _ (by rintro rest rfl; cases hc), if_neg (by simp [hc]), hcs]

private theorem cut_cons {c : Char} (hc : isLineSeparator c = false) {front back : List Char}
    (hcut : linesWithEnds (front ++ '\n' :: back) =
      linesWithEnds (front ++ ['\n']) ++ linesWithEnds back) :
    linesWithEnds (c :: (front ++ '\n' :: back)) =
      linesWithEnds (c :: (front ++ ['\n'])) ++ linesWithEnds back := by
  cases hfront : linesWithEnds (front ++ ['\n']) with
  | nil => simp [linesWithEnds_eq_nil_iff] at hfront
  | cons line lines =>
      rw [hfront, List.cons_append] at hcut
      rw [linesWithEnds_cons hc hcut, linesWithEnds_cons hc hfront, List.cons_append]

/-- A text is cut behind each of its line feeds. -/
theorem linesWithEnds_append_newline (front back : List Char) :
    linesWithEnds (front ++ '\n' :: back) =
      linesWithEnds (front ++ ['\n']) ++ linesWithEnds back := by
  fun_induction linesWithEnds front with
  | case1 => simp [linesWithEnds, isLineSeparator]
  | case2 rest ih => simp [linesWithEnds, ih]
  | case3 c rest hpair hc ih =>
      by_cases hreturn : c = '\r' ∧ rest = []
      · -- The line feed completes a pair that the text in front has begun.
        rcases hreturn with ⟨rfl, rfl⟩
        simp [linesWithEnds]
      · have hnot : ∀ tail more, c = '\r' → rest ++ '\n' :: tail ≠ '\n' :: more := by
          rintro tail more rfl hmore
          cases rest with
          | nil => exact hreturn ⟨rfl, rfl⟩
          | cons d rest =>
              rcases List.cons.inj hmore with ⟨rfl, -⟩
              exact hpair rest rfl rfl
        rw [List.cons_append, List.cons_append, linesWithEnds_cons_of_separator hc (hnot back),
          linesWithEnds_cons_of_separator hc (hnot []), ih, List.cons_append]
  | case4 c rest _ hc _ ih => exact cut_cons (by simpa using hc) ih
  | case5 c rest _ hc _ _ _ ih => exact cut_cons (by simpa using hc) ih

/--
A text put behind another one begins with a line of its own, or its first line goes on
with the last one of the other text, which then has no end yet or only the first
character of a pair.
-/
theorem linesWithEnds_append (front back : List Char) :
    linesWithEnds (front ++ back) = linesWithEnds front ++ linesWithEnds back ∨
      ∃ lines last first others, linesWithEnds front = lines ++ [last] ∧
        linesWithEnds back = first :: others ∧
        linesWithEnds (front ++ back) = lines ++ (last ++ first) :: others ∧
        last.getLast? ≠ some '\n' ∧ (first = ['\n'] ∨ ∀ c ∈ last, isLineSeparator c = false) := by
  fun_induction linesWithEnds front with
  | case1 => exact .inl rfl
  | case2 rest ih =>
      rcases ih with heq | ⟨lines, last, first, others, hfront, hback, heq, hlast⟩
      · exact .inl (by simp [linesWithEnds, heq])
      · refine .inr ⟨['\r', '\n'] :: lines, last, first, others, ?_, hback, ?_, hlast⟩
        · rw [hfront, List.cons_append]
        · simp [linesWithEnds, heq]
  | case3 c rest hpair hc ih =>
      by_cases hreturn : c = '\r' ∧ rest = [] ∧ ∃ more, back = '\n' :: more
      · -- The line feed completes a pair that the text in front has begun.
        rcases hreturn with ⟨rfl, rfl, more, rfl⟩
        exact .inr ⟨[], ['\r'], ['\n'], linesWithEnds more, rfl,
          by simp [linesWithEnds, isLineSeparator], by simp [linesWithEnds], by decide, .inl rfl⟩
      · have hnot : ∀ more, c = '\r' → rest ++ back ≠ '\n' :: more := by
          rintro more rfl hmore
          cases rest with
          | nil => exact hreturn ⟨rfl, rfl, more, hmore⟩
          | cons d rest =>
              obtain ⟨rfl, -⟩ := List.cons.inj hmore
              exact hpair rest rfl rfl
        rw [List.cons_append, linesWithEnds_cons_of_separator hc hnot]
        rcases ih with heq | ⟨lines, last, first, others, hfront, hback, heq, hlast⟩
        · exact .inl (by rw [heq, List.cons_append])
        · exact .inr ⟨[c] :: lines, last, first, others, by rw [hfront, List.cons_append], hback,
            by rw [heq, List.cons_append], hlast⟩
  | case4 c rest hpair hc hrest ih =>
      obtain rfl := linesWithEnds_eq_nil_iff.mp hrest
      have hplain : isLineSeparator c = false := by simpa using hc
      have hfeed : c ≠ '\n' := by
        rintro rfl
        cases hplain
      cases hback : linesWithEnds back with
      | nil =>
          obtain rfl := linesWithEnds_eq_nil_iff.mp hback
          exact .inl (by simp [linesWithEnds, hplain])
      | cons first others =>
          exact .inr ⟨[], [c], first, others, rfl, rfl, linesWithEnds_cons hplain hback,
            by simpa using hfeed, .inr (by simpa using hplain)⟩
  | case5 c rest hpair hc line lines hrest ih =>
      have hplain : isLineSeparator c = false := by simpa using hc
      have hfeed : c ≠ '\n' := by
        rintro rfl
        cases hplain
      rw [hrest] at ih
      rcases ih with heq | ⟨before, last, first, others, hfront, hback, heq, hlast, hopen⟩
      · exact .inl (linesWithEnds_cons hplain heq)
      · cases before with
        | nil =>
            obtain ⟨rfl, rfl⟩ := List.cons.inj hfront
            refine .inr ⟨[], c :: line, first, others, rfl, hback,
              linesWithEnds_cons hplain heq, ?_, ?_⟩
            · cases line with
              | nil => simpa using hfeed
              | cons d line => rwa [List.getLast?_cons_cons]
            · exact hopen.imp_right fun hline => List.forall_mem_cons.mpr ⟨hplain, hline⟩
        | cons next before =>
            obtain ⟨rfl, rfl⟩ := List.cons.inj hfront
            exact .inr ⟨(c :: line) :: before, last, first, others, rfl, hback,
              linesWithEnds_cons hplain heq, hlast, hopen⟩

/-- Without a separator, what stands in front belongs to the first line. -/
theorem linesWithEnds_plain_append {cs back line : List Char} {lines : List (List Char)}
    (h : ∀ c ∈ cs, isLineSeparator c = false) (hback : linesWithEnds back = line :: lines) :
    linesWithEnds (cs ++ back) = (cs ++ line) :: lines := by
  induction cs with
  | nil => exact hback
  | cons c cs ih => exact linesWithEnds_cons (h c (by simp)) (ih fun d hd => h d (by simp [hd]))

theorem linesWithEnds_append_end {cs : List Char} (h : ∀ c ∈ cs, isLineSeparator c = false) :
    linesWithEnds (cs ++ ['\n']) = [cs ++ ['\n']] :=
  linesWithEnds_plain_append h rfl

theorem linesWithEnds_plain {cs : List Char} (hcs : cs ≠ [])
    (h : ∀ c ∈ cs, isLineSeparator c = false) : linesWithEnds cs = [cs] := by
  obtain ⟨front, c, rfl⟩ := (List.eq_nil_or_concat' cs).resolve_left hcs
  refine linesWithEnds_plain_append (fun d hd => h d (by simp [hd])) ?_
  have hlast : isLineSeparator c = false := h c (by simp)
  simp [linesWithEnds, hlast]

theorem ne_nil_of_mem_linesWithEnds {cs line : List Char} (h : line ∈ linesWithEnds cs) :
    line ≠ [] := by
  fun_induction linesWithEnds cs with
  | case1 => cases h
  | case2 rest ih =>
      rcases List.mem_cons.mp h with rfl | h
      · simp
      · exact ih h
  | case3 c rest _ _ ih =>
      rcases List.mem_cons.mp h with rfl | h
      · simp
      · exact ih h
  | case4 c rest _ _ _ ih => simp_all
  | case5 c rest _ _ first lines hrest ih =>
      rcases List.mem_cons.mp h with rfl | h
      · simp
      · exact ih (by simp [hrest, h])

theorem exists_linesWithEnds_append_end (cs : List Char) :
    ∃ lines line, linesWithEnds (cs ++ ['\n']) = lines ++ [line ++ ['\n']] := by
  obtain hnil | ⟨lines, last, hlast⟩ := List.eq_nil_or_concat' (linesWithEnds (cs ++ ['\n']))
  · simp [linesWithEnds_eq_nil_iff] at hnil
  obtain rfl | ⟨line, c, rfl⟩ := List.eq_nil_or_concat' last
  · have hmem : [] ∈ linesWithEnds (cs ++ ['\n']) := by simp [hlast]
    exact absurd rfl (ne_nil_of_mem_linesWithEnds hmem)
  have hflat := flatten_linesWithEnds (cs ++ ['\n'])
  rw [hlast, List.flatten_concat, ← List.append_assoc] at hflat
  rcases List.append_inj' hflat rfl with ⟨-, hc⟩
  obtain rfl := (List.cons.inj hc).1
  exact ⟨lines, line, hlast⟩

/-! ## Blank lines -/

theorem isBlank_of_isLineSeparator {c : Char} (h : isLineSeparator c = true) :
    isBlank c = true := by
  simp only [isLineSeparator, Bool.or_eq_true, Bool.and_eq_true, decide_eq_true_eq,
    beq_iff_eq] at h
  simp only [isBlank, Bool.or_eq_true, Bool.and_eq_true, decide_eq_true_eq, beq_iff_eq]
  omega

/-- A line is blank exactly if it has nothing to see in front of its end. -/
theorem all_isBlank_head {cs line : List Char} {lines : List (List Char)}
    (h : linesWithEnds cs = line :: lines) :
    line.all isBlank = (cs.takeWhile fun c => !isLineSeparator c).all isBlank := by
  fun_induction linesWithEnds cs generalizing line lines with
  | case1 => cases h
  | case2 rest ih =>
      obtain ⟨rfl, -⟩ := List.cons.inj h
      rfl
  | case3 c rest hpair hc ih =>
      obtain ⟨rfl, -⟩ := List.cons.inj h
      simp [hc, isBlank_of_isLineSeparator hc]
  | case4 c rest hpair hc hrest ih =>
      obtain ⟨rfl, -⟩ := List.cons.inj h
      obtain rfl := linesWithEnds_eq_nil_iff.mp hrest
      simp [hc]
  | case5 c rest hpair hc first others hrest ih =>
      obtain ⟨rfl, -⟩ := List.cons.inj h
      simp [hc, ih hrest]

end RegisterMap.Text
