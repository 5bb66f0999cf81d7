import RegisterMap.Proofs.Number.HexLiteral
import RegisterMap.Proofs.Text.Delimited
import RegisterMap.Text.Quoted

/-!
# Quoted texts can be read back

Every character of a quoted text is written so that a reader knows which one it is
and where the next one starts, and only the closing quote looks like one.  So a quoted
text shows where it ends, whatever is quoted and whatever follows.
-/

namespace RegisterMap.Text.Quoted

open RegisterMap.Number

/-! ## Characters -/

/-- The character of a code point in hexadecimal digits. -/
def ofHexDigits (cs : List Char) : Char :=
  Char.ofNat (Numeral.ofDigits Radix.hexadecimal.base (cs.filterMap Radix.hexadecimal.digit?))

/-- Read the written form of one character off the front of a text. -/
def unescape : List Char → Option (Char × List Char)
  | [] => none
  | '\\' :: 'n' :: rest => some ('\n', rest)
  | '\\' :: 'r' :: rest => some ('\r', rest)
  | '\\' :: 't' :: rest => some ('\t', rest)
  | '\\' :: 'x' :: rest => some (ofHexDigits (rest.take 2), rest.drop 2)
  | '\\' :: 'u' :: rest => some (ofHexDigits (rest.take 4), rest.drop 4)
  | '\\' :: 'U' :: rest => some (ofHexDigits (rest.take 8), rest.drop 8)
  | '\\' :: c :: rest => some (c, rest)
  | c :: rest => some (c, rest)

theorem filterMap_digit? {cs : List Char} {digits : List Nat}
    (h : Radix.hexadecimal.Digits cs digits) :
    cs.filterMap Radix.hexadecimal.digit? = digits := by
  induction h with
  | nil => rfl
  | cons hc _ ih => rw [List.filterMap_cons_some hc, ih]

theorem ofHexDigits_hexDigits (width : Nat) (c : Char) :
    ofHexDigits (hexDigits width c.toNat) = c := by
  obtain ⟨digits, hdigits, hvalue⟩ := Radix.hexadecimal.exists_digits_zeros_toDigits
    (width - (Nat.toDigits 16 c.toNat).length) c.toNat
  rw [ofHexDigits, hexDigits]
  have hread := filterMap_digit? hdigits
  simp only [Radix.base] at hread hvalue ⊢
  rw [hread, hvalue, Char.ofNat_toNat]

theorem length_hexDigits {width n : Nat} (hpos : 0 < width) (hn : n < 16 ^ width) :
    (hexDigits width n).length = width := by
  have hle : (Nat.toDigits 16 n).length ≤ width :=
    (Nat.length_toDigits_le_iff (by decide) hpos).mpr hn
  simp only [hexDigits, List.length_append, List.length_replicate]
  omega

/-- Digits of a fixed width are read back, whatever follows. -/
theorem read_hexDigits {width : Nat} (hpos : 0 < width) {c : Char} (hc : c.toNat < 16 ^ width)
    (rest : List Char) :
    (ofHexDigits ((hexDigits width c.toNat ++ rest).take width),
      (hexDigits width c.toNat ++ rest).drop width) = (c, rest) := by
  have hlength := length_hexDigits hpos hc
  rw [List.take_left' hlength, List.drop_left' hlength, ofHexDigits_hexDigits]

theorem unescape_escapeCode (c : Char) (rest : List Char) :
    unescape (escapeCode c ++ rest) = some (c, rest) := by
  have hbound : c.toNat < 16 ^ 8 := Nat.lt_of_lt_of_le c.val.toNat_lt (by decide)
  simp only [escapeCode]
  split_ifs with hbyte hplane
  · exact congrArg some (read_hexDigits (by decide) hbyte rest)
  · exact congrArg some (read_hexDigits (by decide) hplane rest)
  · exact congrArg some (read_hexDigits (by decide) hbound rest)

/-- The two characters that can stand at the ends of a quoted text. -/
def IsQuote (quote : Char) : Prop := quote = '\x27' ∨ quote = '"'

theorem unescape_escape {quote : Char} (hquote : IsQuote quote) (c : Char) (rest : List Char) :
    unescape (escape quote c ++ rest) = some (c, rest) := by
  unfold escape
  split_ifs with hspecial hnewline hreturn htab
  · rcases hspecial with rfl | rfl
    · rcases hquote with rfl | rfl <;> rfl
    · rfl
  · rw [hnewline]
    rfl
  · rw [hreturn]
    rfl
  · rw [htab]
    rfl
  · have hplain : c ≠ '\\' := fun h => hspecial (.inr h)
    unfold unescape
    split <;> simp_all
  · exact unescape_escapeCode c rest

theorem escape_append_inj {quote : Char} (hquote : IsQuote quote) {c d : Char}
    {s t : List Char} (h : escape quote c ++ s = escape quote d ++ t) : c = d ∧ s = t := by
  have hread := congrArg unescape h
  rw [unescape_escape hquote, unescape_escape hquote] at hread
  simpa using hread

/-- The written form of a character does not start like the closing quote. -/
theorem exists_escape_eq_cons {quote : Char} (hquote : IsQuote quote) (c : Char) :
    ∃ d rest, escape quote c = d :: rest ∧ d ≠ quote := by
  have hslash : '\\' ≠ quote := by rcases hquote with rfl | rfl <;> decide
  simp only [escape, escapeCode]
  split_ifs with hspecial
  · exact ⟨_, _, rfl, hslash⟩
  · exact ⟨_, _, rfl, hslash⟩
  · exact ⟨_, _, rfl, hslash⟩
  · exact ⟨_, _, rfl, hslash⟩
  · exact ⟨c, [], rfl, fun h => hspecial (.inl h)⟩
  · exact ⟨_, _, rfl, hslash⟩
  · exact ⟨_, _, rfl, hslash⟩
  · exact ⟨_, _, rfl, hslash⟩

theorem escape_append_ne_quote {quote : Char} (hquote : IsQuote quote) (c : Char)
    (s t : List Char) : escape quote c ++ s ≠ quote :: t := by
  intro h
  obtain ⟨d, rest, heq, hne⟩ := exists_escape_eq_cons hquote c
  rw [heq, List.cons_append] at h
  exact hne (List.head_eq_of_cons_eq h)

/-! ## Texts -/

theorem isQuote_quoteFor (cs : List Char) : IsQuote (quoteFor cs) := by
  unfold quoteFor
  split_ifs
  · exact .inr rfl
  · exact .inl rfl

/-- Between one kind of quotes, the characters of a text and its end can be told. -/
theorem flatMap_escape_inj {quote : Char} (hquote : IsQuote quote) {cs ds s t : List Char}
    (h : cs.flatMap (escape quote) ++ quote :: s = ds.flatMap (escape quote) ++ quote :: t) :
    cs = ds ∧ s = t := by
  induction cs generalizing ds with
  | nil =>
      cases ds with
      | nil => exact ⟨rfl, List.tail_eq_of_cons_eq h⟩
      | cons d ds =>
          rw [List.flatMap_cons, List.append_assoc] at h
          exact absurd h.symm (escape_append_ne_quote hquote d _ _)
  | cons c cs ih =>
      cases ds with
      | nil =>
          rw [List.flatMap_cons, List.append_assoc] at h
          exact absurd h (escape_append_ne_quote hquote c _ _)
      | cons d ds =>
          rw [List.flatMap_cons, List.flatMap_cons, List.append_assoc, List.append_assoc] at h
          obtain ⟨rfl, hrest⟩ := escape_append_inj hquote h
          obtain ⟨rfl, rfl⟩ := ih hrest
          exact ⟨rfl, rfl⟩

theorem encode_append_inj {cs ds s t : List Char} (h : encode cs ++ s = encode ds ++ t) :
    cs = ds ∧ s = t := by
  simp only [encode, List.cons_append, List.append_assoc, List.nil_append, List.cons.injEq] at h
  -- The opening quote tells which kind of quotes the text stands in.
  obtain ⟨hopen, hrest⟩ := h
  rw [← hopen] at hrest
  exact flatMap_escape_inj (isQuote_quoteFor cs) hrest

end RegisterMap.Text.Quoted

namespace RegisterMap.Text

theorem selfDelimiting_quoted : SelfDelimiting quoted := by
  intro a b s t h
  have hchars := congrArg String.toList h
  simp only [quoted, String.toList_append, String.toList_ofList] at hchars
  obtain ⟨htext, hrest⟩ := Quoted.encode_append_inj hchars
  exact ⟨String.toList_inj.mp htext, String.toList_inj.mp hrest⟩

/-- A quoted text starts with a quote. -/
theorem exists_quoted_eq_cons (s : String) :
    ∃ quote rest, (quoted s).toList = quote :: rest ∧ Quoted.IsQuote quote := by
  rw [quoted, String.toList_ofList]
  exact ⟨_, _, rfl, Quoted.isQuote_quoteFor s.toList⟩

end RegisterMap.Text
