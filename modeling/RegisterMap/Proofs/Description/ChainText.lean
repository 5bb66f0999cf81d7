import RegisterMap.Description.Location
import RegisterMap.Proofs.Number.Decimal
import RegisterMap.Proofs.Text.Quoted

/-!
# Texts of element chains

The text of a chain puts names and references between brackets and other marks, and
both may hold such marks themselves.  They stand in quotes that show where they end, so
the text tells the chain all the same: its tags, its places and what its elements are
called.
-/

namespace RegisterMap.Description

open RegisterMap.Number RegisterMap.Text

/-! ## Identities -/

theorem selfDelimiting_ofText? :
    SelfDelimiting fun text? : Option String => (Literal.ofText? text?).render := by
  have hne : ∀ text s t, "None" ++ s ≠ quoted text ++ t := by
    intro text s t
    obtain ⟨quote, rest, hquoted, hquote⟩ := exists_quoted_eq_cons text
    have hword : StartsWith (¬Quoted.IsQuote ·) "None" := ⟨'N', ['o', 'n', 'e'], rfl, by
      simp [Quoted.IsQuote]⟩
    have htext : StartsWith Quoted.IsQuote (quoted text) := ⟨quote, rest, hquoted, hquote⟩
    exact (hword.append s).ne (fun _ hnot hc => hnot hc) (htext.append t)
  rintro (_ | text) (_ | text') s t h
  · exact ⟨rfl, (String.append_right_inj "None").mp h⟩
  · exact absurd h (hne text' s t)
  · exact absurd h.symm (hne text t s)
  · obtain ⟨rfl, hrest⟩ := selfDelimiting_quoted h
    exact ⟨rfl, hrest⟩

/-- What a reference adds to the record of an element, behind the entry of its name. -/
def derivedFromEntry (base : String) : String :=
  ", " ++ (quoted "derived_from" ++ ": " ++ quoted base)

theorem selfDelimiting_derivedFrom :
    SelfDelimiting fun x : Option String × Unit => x.1.elim "" derivedFromEntry ++ "\x7d" := by
  have hentry : SelfDelimiting derivedFromEntry :=
    (selfDelimiting_quoted.behind (quoted "derived_from" ++ ": ")).behind ", "
  have hcomma : StartsWith (· = ',') ", " := ⟨',', [' '], rfl, rfl⟩
  exact hentry.optional (.const "\x7d") (fun _ => hcomma.append _)
    fun _ => ⟨'\x7d', [], rfl, by decide⟩

theorem Identity.render_literal (identity : Identity) :
    identity.literal.render = "\x7b" ++ (quoted "name" ++ ": ") ++
      ((Literal.ofText? identity.name).render ++
        (identity.derivedFrom.elim "" derivedFromEntry ++ "\x7d")) := by
  rcases identity with ⟨name, derivedFrom⟩
  cases derivedFrom <;>
    simp [literal, Literal.render, Literal.renderEntries, derivedFromEntry, String.append_assoc,
      String.intercalate_cons_cons]

theorem Identity.selfDelimiting :
    SelfDelimiting fun identity : Identity => identity.literal.render := by
  have hwritten := (selfDelimiting_ofText?.pair selfDelimiting_derivedFrom).behind
    ("\x7b" ++ (quoted "name" ++ ": "))
  intro a b s t h
  simp only [Identity.render_literal] at h
  obtain ⟨heq, hrest⟩ :=
    hwritten (a := (a.name, a.derivedFrom, ())) (b := (b.name, b.derivedFrom, ())) h
  simp only [Prod.mk.injEq, and_true] at heq
  rcases a with ⟨name, derivedFrom⟩
  rcases b with ⟨name', derivedFrom'⟩
  obtain ⟨rfl, rfl⟩ := heq
  exact ⟨rfl, hrest⟩

/-! ## Links -/

/-- The text of an index behind a tag. -/
def indexText (index : Nat) : String :=
  "(" ++ (toString index ++ String.singleton ')')

theorem selfDelimiting_indexText : SelfDelimiting indexText := by
  refine (SelfDelimiting.endingWith (fun _ _ => eq_of_toString_eq) fun index hmem => ?_).behind "("
  exact absurd (isDigit_of_mem_toString hmem) (by decide)

/-- The text of a link behind its tag. -/
def linkTail (x : Option Nat × Option Identity × Unit) : String :=
  x.1.elim "" indexText ++
    (x.2.1.elim "" (fun identity => " " ++ identity.literal.render) ++ "]")

theorem startsWith_identityTail (x : Option Identity × Unit) :
    StartsWith (fun c => c = ' ' ∨ c = ']')
      (x.1.elim "" (fun identity => " " ++ identity.literal.render) ++ "]") := by
  rcases x with ⟨_ | identity, -⟩
  · exact ⟨']', [], by simp, .inr rfl⟩
  · have hblank : StartsWith (fun c => c = ' ' ∨ c = ']') " " := ⟨' ', [], rfl, .inl rfl⟩
    exact (hblank.append _).append _

theorem selfDelimiting_linkTail : SelfDelimiting linkTail := by
  have hidentity : SelfDelimiting fun x : Option Identity × Unit =>
      x.1.elim "" (fun identity => " " ++ identity.literal.render) ++ "]" := by
    have hblank : StartsWith (· = ' ') " " := ⟨' ', [], rfl, rfl⟩
    exact (Identity.selfDelimiting.behind " ").optional (.const "]") (fun _ => hblank.append _)
      fun _ => ⟨']', [], rfl, by decide⟩
  have hopen : StartsWith (· = '(') "(" := ⟨'(', [], rfl, rfl⟩
  refine selfDelimiting_indexText.optional hidentity (fun _ => hopen.append _) fun x => ?_
  obtain ⟨c, rest, hchars, hc⟩ := startsWith_identityTail x
  refine ⟨c, rest, hchars, ?_⟩
  rcases hc with rfl | rfl <;> decide

theorem startsWith_linkTail (x : Option Nat × Option Identity × Unit) :
    StartsWith (·.isAlpha = false) (linkTail x) := by
  rcases x with ⟨_ | index, x⟩
  · obtain ⟨c, rest, hchars, hc⟩ := startsWith_identityTail x
    refine ⟨c, rest, by simpa [linkTail] using hchars, ?_⟩
    rcases hc with rfl | rfl <;> decide
  · have hopen : StartsWith (·.isAlpha = false) "(" := ⟨'(', [], rfl, by decide⟩
    exact (hopen.append _).append _

namespace Link

/-- True of a link with a tag of ASCII letters. -/
def Lettered (link : Link) : Prop :=
  ∀ c ∈ link.tag.toList, c.isAlpha = true

theorem text_eq (link : Link) :
    link.text = "[" ++ (link.tag ++ linkTail (link.index, link.identity, ())) := by
  rcases link with ⟨tag, _ | index, _ | identity⟩ <;>
    simp [text, linkTail, indexText, String.append_assoc]

/-- The text of a link tells the link, whatever follows. -/
theorem text_append_inj {a b : Link} (ha : a.Lettered) (hb : b.Lettered) {s t : String}
    (h : a.text ++ s = b.text ++ t) : a = b ∧ s = t := by
  simp only [text_eq, String.append_assoc, String.append_right_inj] at h
  obtain ⟨htag, htail, hrest⟩ :=
    selfDelimiting_linkTail.run_append_inj startsWith_linkTail ha hb h
  simp only [Prod.mk.injEq, and_true] at htail
  rcases a with ⟨tag, index, identity⟩
  rcases b with ⟨tag', index', identity'⟩
  obtain rfl := htag
  obtain ⟨rfl, rfl⟩ := htail
  exact ⟨rfl, hrest⟩

end Link

/-! ## Chains -/

namespace Location

/-- The text behind the first link of a chain. -/
def restText : List Link → String
  | [] => ""
  | link :: chain => " in " ++ chainText (link :: chain)

theorem chainText_cons (link : Link) (chain : List Link) :
    chainText (link :: chain) = link.text ++ restText chain := by
  cases chain <;> simp [chainText, restText, String.intercalate_cons_cons, String.append_assoc]

/-- A chain of links with lettered tags can be told from its text. -/
theorem chainText_inj {chain chain' : List Link} (hchain : ∀ link ∈ chain, link.Lettered)
    (hchain' : ∀ link ∈ chain', link.Lettered) (h : chainText chain = chainText chain') :
    chain = chain' := by
  have hempty : ∀ (link : Link) chain, chainText (link :: chain) ≠ "" := by
    intro link chain heq
    rw [chainText_cons, link.text_eq] at heq
    simp at heq
  induction chain generalizing chain' with
  | nil =>
      cases chain' with
      | nil => rfl
      | cons link' chain' => exact absurd h.symm (hempty link' chain')
  | cons link chain ih =>
      cases chain' with
      | nil => exact absurd h (hempty link chain)
      | cons link' chain' =>
          rw [List.forall_mem_cons] at hchain hchain'
          rw [chainText_cons, chainText_cons] at h
          obtain ⟨rfl, hrest⟩ := Link.text_append_inj hchain.1 hchain'.1 h
          congr 1
          cases chain <;> cases chain' <;> simp only [restText] at hrest
          · rfl
          · simp at hrest
          · simp at hrest
          · exact ih hchain.2 hchain'.2 ((String.append_right_inj " in ").mp hrest)

end Location

end RegisterMap.Description
