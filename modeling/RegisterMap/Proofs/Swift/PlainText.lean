import RegisterMap.Export.Options
import RegisterMap.Proofs.Number.Numeral
import RegisterMap.Proofs.Swift.Identifier
import RegisterMap.Proofs.Swift.Layout
import RegisterMap.Swift.Declaration

/-!
# Plain text

Text of visible ASCII characters and spaces.  Names, numbers and the words of
declarations are plain, so a declaration made of them stands on one line.  They also
have no braces and no slashes, so that they neither open a block nor begin a comment.
-/

namespace RegisterMap.Swift

open RegisterMap.Export RegisterMap.Model RegisterMap.Number RegisterMap.Text

def isPlainChar (c : Char) : Bool :=
  32 ≤ c.toNat && c.toNat ≤ 126

/-- True of a text of plain characters. -/
def IsPlain (text : String) : Prop :=
  text.toList.all isPlainChar = true

instance : DecidablePred IsPlain :=
  fun text => inferInstanceAs (Decidable (text.toList.all isPlainChar = true))

theorem isLineSeparator_of_isPlainChar {c : Char} (h : isPlainChar c = true) :
    isLineSeparator c = false := by
  simp only [isPlainChar, Bool.and_eq_true, decide_eq_true_eq] at h
  simp only [isLineSeparator, Bool.or_eq_false_iff, Bool.and_eq_false_iff, decide_eq_false_iff_not,
    beq_eq_false_iff_ne]
  omega

theorem IsPlain.isLine {text : String} (h : IsPlain text) {c : Char} (hc : c ∈ text.toList)
    (hseen : isBlank c = false) : IsLine text := by
  refine ⟨fun d hd => isLineSeparator_of_isPlainChar (List.all_eq_true.mp h d hd), ?_⟩
  rw [List.all_eq_false]
  exact ⟨c, hc, by simp [hseen]⟩

/-! ## Texts put together -/

@[simp] theorem isPlain_append {s t : String} : IsPlain (s ++ t) ↔ IsPlain s ∧ IsPlain t := by
  simp only [IsPlain, String.toList_append, List.all_append, Bool.and_eq_true]

theorem eq_or_mem_of_mem_intersperse {α : Type} {sep a : α} {xs : List α}
    (h : a ∈ xs.intersperse sep) : a = sep ∨ a ∈ xs := by
  fun_induction List.intersperse sep xs with
  | case1 => exact .inr h
  | case2 x => exact .inr h
  | case3 x y ys ih => grind

theorem mem_intercalate {α : Type} {sep : List α} {pieces : List (List α)} {a : α}
    (h : a ∈ sep.intercalate pieces) : a ∈ sep ∨ ∃ piece ∈ pieces, a ∈ piece := by
  rcases List.mem_flatten.mp h with ⟨piece, hpiece, ha⟩
  rcases eq_or_mem_of_mem_intersperse hpiece with rfl | hpiece
  · exact .inl ha
  · exact .inr ⟨piece, hpiece, ha⟩

theorem all_intercalate {test : Char → Bool} {sep : String} {pieces : List String}
    (hsep : sep.toList.all test = true) (hpieces : ∀ piece ∈ pieces, piece.toList.all test = true) :
    (String.intercalate sep pieces).toList.all test = true := by
  rw [List.all_eq_true, String.toList_intercalate]
  intro c hc
  rcases mem_intercalate hc with hc | ⟨piece, hpiece, hc⟩
  · exact List.all_eq_true.mp hsep c hc
  · rcases List.mem_map.mp hpiece with ⟨text, htext, rfl⟩
    exact List.all_eq_true.mp (hpieces text htext) c hc

/-! ## Text without braces and slashes -/

def isCodeChar (c : Char) : Bool :=
  isPlainChar c && c != '\x7b' && c != '\x7d' && c != '/'

/-- True of a plain text that holds no brace and no slash. -/
def IsCode (text : String) : Prop :=
  text.toList.all isCodeChar = true

instance : DecidablePred IsCode :=
  fun text => inferInstanceAs (Decidable (text.toList.all isCodeChar = true))

theorem isPlainChar_of_isCodeChar {c : Char} (h : isCodeChar c = true) : isPlainChar c = true := by
  simp only [isCodeChar, Bool.and_eq_true] at h
  exact h.1.1.1

theorem IsCode.isPlain {text : String} (h : IsCode text) : IsPlain text := by
  rw [IsPlain, List.all_eq_true]
  exact fun c hc => isPlainChar_of_isCodeChar (List.all_eq_true.mp h c hc)

@[simp] theorem isCode_append {s t : String} : IsCode (s ++ t) ↔ IsCode s ∧ IsCode t := by
  simp only [IsCode, String.toList_append, List.all_append, Bool.and_eq_true]

theorem isCodeChar_of_isNameChar {c : Char} (h : isNameChar c = true) : isCodeChar c = true := by
  have hall : ∀ n < 127, isNameChar (Char.ofNat n) = true →
      isCodeChar (Char.ofNat n) = true := by decide
  have hcode := hall c.toNat (toNat_lt_of_isNameChar h)
  rw [Char.ofNat_toNat] at hcode
  exact hcode h

theorem IsName.isCode {name : String} (h : IsName name) : IsCode name := by
  rw [IsCode, List.all_eq_true]
  exact fun c hc => isCodeChar_of_isNameChar (List.all_eq_true.mp h c hc)

/-! ## Names -/

theorem isPlain_swiftName (name : String) : IsPlain (swiftName name) :=
  (isName_swiftName name).isCode.isPlain

theorem isName_of_mem_referencePath {reference piece : String}
    (h : piece ∈ referencePath reference) : IsName piece := by
  rcases List.mem_map.mp h with ⟨cs, -, rfl⟩
  rw [IsName, String.toList_ofList]
  exact all_isNameChar_sanitize cs

theorem isCode_aliasTarget (reference : String) : IsCode (aliasTarget reference) :=
  all_intercalate (by decide) fun _ hpiece => (isName_of_mem_referencePath hpiece).isCode

theorem isPlain_aliasTarget (reference : String) : IsPlain (aliasTarget reference) :=
  (isCode_aliasTarget reference).isPlain

theorem IsName.isCode_identifier {name : String} (h : IsName name) :
    IsCode (Swift.identifier name) := by
  unfold Swift.identifier
  split
  · simp only [isCode_append]
    exact ⟨⟨by decide, h.isCode⟩, by decide⟩
  · exact h.isCode

theorem IsPlain.identifier {name : String} (h : IsPlain name) :
    IsPlain (Swift.identifier name) := by
  unfold Swift.identifier
  split
  · simp only [isPlain_append]
    exact ⟨⟨by decide, h⟩, by decide⟩
  · exact h

theorem isPlainChar_toLower {c : Char} (h : isPlainChar c = true) :
    isPlainChar c.toLower = true := by
  have hall : ∀ n < 127, isPlainChar (Char.ofNat n) = true →
      isPlainChar (Char.ofNat n).toLower = true := by decide
  have hbound : c.toNat < 127 := by
    simp only [isPlainChar, Bool.and_eq_true, decide_eq_true_eq] at h
    omega
  have hlower := hall c.toNat hbound
  rw [Char.ofNat_toNat] at hlower
  exact hlower h

theorem IsPlain.instanceName {name : String} (h : IsPlain name) :
    IsPlain (Swift.instanceName name) := by
  have hlower : (Swift.instanceName name).toList = name.toList.map Char.toLower :=
    String.toList_map
  rw [IsPlain, hlower, List.all_map, List.all_eq_true]
  intro c hc
  exact isPlainChar_toLower (List.all_eq_true.mp h c hc)

/-! ## Words -/

theorem isCode_accessAttribute (access : Option Access) : IsCode (accessAttribute access) := by
  cases access with
  | none => decide
  | some access => cases access <;> decide

/-! ## Numbers -/

theorem all_isNameChar_toDigits {b : Nat} (hb : 1 < b) (hle : b ≤ 16) (n : Nat) :
    (Nat.toDigits b n).all isNameChar = true := by
  have hdigit : ∀ d < 16, isNameChar d.digitChar = true := by decide
  rw [List.all_eq_true]
  intro c hc
  rcases exists_digitChar_of_mem_toDigits hb hc with ⟨d, hd, rfl⟩
  exact hdigit d (by omega)

theorem mem_of_mem_groupsOfFour {cs : List Char} {c : Char}
    (h : c ∈ List.intercalate ['_'] (groupsOfFour cs)) : c = '_' ∨ c ∈ cs := by
  rcases mem_intercalate h with hc | ⟨group, hgroup, hc⟩
  · exact .inl (List.mem_singleton.mp hc)
  · have hflat := List.mem_flatten.mpr ⟨group, hgroup, hc⟩
    rw [flatten_groupsOfFour] at hflat
    exact .inr hflat

theorem isCode_hexLiteral (n : Int) : IsCode (hexLiteral n) := by
  have hsign : (signedHexDigits n).1.all isCodeChar = true := by
    simp only [signedHexDigits]
    split <;> decide
  have hdigits : ∀ c ∈ (signedHexDigits n).2, isCodeChar c = true := fun c hc =>
    isCodeChar_of_isNameChar
      (List.all_eq_true.mp (all_isNameChar_toDigits (by decide) (by decide) n.natAbs) c hc)
  have hzero : isCodeChar '0' = true := by decide
  have hpadded : (padToFours (signedHexDigits n).1 (signedHexDigits n).2).all isCodeChar =
      true := by
    simpa [padToFours, hsign, hzero] using hdigits
  rw [IsCode, hexLiteral, String.toList_ofList, List.all_cons, List.all_cons, Bool.and_eq_true,
    Bool.and_eq_true, List.all_eq_true]
  refine ⟨hzero, by decide, fun c hc => ?_⟩
  rcases mem_of_mem_groupsOfFour hc with rfl | hc
  · decide
  · exact List.all_eq_true.mp hpadded c hc

theorem isPlain_hexLiteral (n : Int) : IsPlain (hexLiteral n) :=
  (isCode_hexLiteral n).isPlain

theorem isCode_toString (n : Int) : IsCode (toString n) := by
  cases n with
  | ofNat n => exact (isName_toString n).isCode
  | negSucc n =>
      have hsign : IsCode "-" := by decide
      exact isCode_append.mpr ⟨hsign, (isName_toString (n + 1)).isCode⟩

theorem isName_replicaSuffix (r : Replica) : IsName r.suffix := by
  unfold Replica.suffix
  split
  · decide
  · exact isName_toString _

theorem isPlain_suffix (r : Replica) : IsPlain r.suffix :=
  (isName_replicaSuffix r).isCode.isPlain

/-! ## Modifiers -/

theorem isCode_modifiers (options : Options) : IsCode options.modifiers := by
  unfold Options.modifiers
  split
  · decide
  · rename_i level _
    cases level <;> decide

theorem isPlain_modifiers (options : Options) : IsPlain options.modifiers :=
  (isCode_modifiers options).isPlain

theorem isCode_instanceModifiers (options : Options) : IsCode options.instanceModifiers := by
  unfold Options.instanceModifiers
  split
  · exact isCode_append.mpr ⟨isCode_modifiers options, by decide⟩
  · exact isCode_modifiers options

theorem isPlain_instanceModifiers (options : Options) : IsPlain options.instanceModifiers :=
  (isCode_instanceModifiers options).isPlain

end RegisterMap.Swift
