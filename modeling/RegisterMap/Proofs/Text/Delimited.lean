import Mathlib.Data.List.Basic

/-!
# Texts that show where they end

Some values are written so that a reader of the text knows where each of them ends,
whatever follows.  Values that are written like that one after the other can be told
from the text.
-/

namespace RegisterMap.Text

/-- A run of characters of a kind ends where the first of another kind stands. -/
theorem append_cons_inj {test : Char → Bool} {a b s t : List Char} {c d : Char}
    (ha : ∀ x ∈ a, test x = true) (hb : ∀ x ∈ b, test x = true) (hc : test c = false)
    (hd : test d = false) (h : a ++ c :: s = b ++ d :: t) : a = b ∧ c = d ∧ s = t := by
  have hfront : ∀ {e : Char} {run rest : List Char}, (∀ x ∈ run, test x = true) →
      test e = false → (run ++ e :: rest).takeWhile test = run := by
    intro e run rest hrun he
    rw [List.takeWhile_append_of_pos hrun, List.takeWhile_cons_of_neg (by simp [he]),
      List.append_nil]
  have hruns := congrArg (List.takeWhile test) h
  rw [hfront ha hc, hfront hb hd] at hruns
  subst hruns
  rw [List.append_cancel_left_eq, List.cons.injEq] at h
  exact ⟨rfl, h⟩

/-- True of a text that starts with a character of a kind. -/
def StartsWith (kind : Char → Prop) (text : String) : Prop :=
  ∃ c rest, text.toList = c :: rest ∧ kind c

theorem StartsWith.append {kind : Char → Prop} {text : String} (h : StartsWith kind text)
    (rest : String) : StartsWith kind (text ++ rest) := by
  obtain ⟨c, chars, hchars, hc⟩ := h
  exact ⟨c, chars ++ rest.toList, by rw [String.toList_append, hchars]; rfl, hc⟩

theorem StartsWith.ne {kind kind' : Char → Prop} (hdisjoint : ∀ c, kind c → ¬kind' c)
    {text text' : String} (h : StartsWith kind text) (h' : StartsWith kind' text') :
    text ≠ text' := by
  rintro rfl
  obtain ⟨c, _, hchars, hc⟩ := h
  obtain ⟨d, _, hchars', hd⟩ := h'
  rw [hchars, List.cons.injEq] at hchars'
  exact hdisjoint c hc (hchars'.1 ▸ hd)

/-- True of a way to write values after which one knows where the value ends. -/
def SelfDelimiting {α : Type} (write : α → String) : Prop :=
  ∀ ⦃a b : α⦄ ⦃s t : String⦄, write a ++ s = write b ++ t → a = b ∧ s = t

namespace SelfDelimiting

variable {α β : Type} {f : α → String} {g : β → String}

theorem const (text : String) : SelfDelimiting fun _ : Unit => text := by
  intro a b s t h
  exact ⟨rfl, (String.append_right_inj text).mp h⟩

theorem behind (text : String) (hf : SelfDelimiting f) : SelfDelimiting fun a => text ++ f a := by
  intro a b s t h
  rw [String.append_assoc, String.append_assoc, String.append_right_inj] at h
  exact hf h

theorem pair (hf : SelfDelimiting f) (hg : SelfDelimiting g) :
    SelfDelimiting fun x : α × β => f x.1 ++ g x.2 := by
  intro x y s t h
  rw [String.append_assoc, String.append_assoc] at h
  obtain ⟨hfirst, hrest⟩ := hf h
  obtain ⟨hsecond, hrest⟩ := hg hrest
  exact ⟨Prod.ext hfirst hsecond, hrest⟩

/-- A value that may be left out in front of one that is never written like it. -/
theorem optional {kind : Char → Prop} (hf : SelfDelimiting f) (hg : SelfDelimiting g)
    (hstart : ∀ a, StartsWith kind (f a)) (hother : ∀ b, StartsWith (¬kind ·) (g b)) :
    SelfDelimiting fun x : Option α × β => x.1.elim "" f ++ g x.2 := by
  have hne : ∀ a b s t, f a ++ s ≠ g b ++ t := fun a b s t =>
    ((hstart a).append s).ne (fun _ hc hnot => hnot hc) ((hother b).append t)
  rintro ⟨a?, b⟩ ⟨a'?, b'⟩ s t h
  cases a? with
  | none =>
      cases a'? with
      | none =>
          obtain ⟨rfl, hrest⟩ := hg (by simpa using h)
          exact ⟨rfl, hrest⟩
      | some a' =>
          refine absurd ?_ (hne a' b (g b' ++ t) s)
          simpa [String.append_assoc] using h.symm
  | some a =>
      cases a'? with
      | none =>
          refine absurd ?_ (hne a b' (g b ++ s) t)
          simpa [String.append_assoc] using h
      | some a' =>
          obtain ⟨heq, hrest⟩ := hf.pair hg (a := (a, b)) (b := (a', b')) h
          obtain ⟨rfl, rfl⟩ := Prod.mk.inj heq
          exact ⟨rfl, hrest⟩

/-- A text of one kind of characters in front of a value that starts with another kind. -/
theorem run_append_inj {test : Char → Bool} (hg : SelfDelimiting g)
    (hother : ∀ b, StartsWith (test · = false) (g b)) {run run' : String}
    (hrun : ∀ x ∈ run.toList, test x = true) (hrun' : ∀ x ∈ run'.toList, test x = true)
    {b d : β} {s t : String} (h : run ++ (g b ++ s) = run' ++ (g d ++ t)) :
    run = run' ∧ b = d ∧ s = t := by
  obtain ⟨c, rest, hchars, hc⟩ := hother b
  obtain ⟨c', rest', hchars', hc'⟩ := hother d
  have hlists := congrArg String.toList h
  simp only [String.toList_append, hchars, hchars', List.cons_append] at hlists
  obtain ⟨heq, -⟩ := append_cons_inj hrun hrun' hc hc' hlists
  obtain rfl := String.toList_inj.mp heq
  exact ⟨rfl, hg ((String.append_right_inj run).mp h)⟩

/-- A value that is written without some character, and then this character. -/
theorem endingWith {c : Char} (hinj : Function.Injective f) (hfree : ∀ a, c ∉ (f a).toList) :
    SelfDelimiting fun a => f a ++ String.singleton c := by
  intro a b s t h
  have hrun : ∀ a, ∀ x ∈ (f a).toList, (x != c) = true := by
    intro a x hx
    rw [bne_iff_ne]
    rintro rfl
    exact hfree a hx
  have hend : ∀ _ : Unit, StartsWith (fun x => (x != c) = false) (String.singleton c) :=
    fun _ => ⟨c, [], by simp, by simp⟩
  rw [String.append_assoc, String.append_assoc] at h
  obtain ⟨heq, -, hrest⟩ := (const (String.singleton c)).run_append_inj hend (hrun a) (hrun b)
    (b := ()) (d := ()) h
  exact ⟨hinj heq, hrest⟩

end SelfDelimiting

end RegisterMap.Text
