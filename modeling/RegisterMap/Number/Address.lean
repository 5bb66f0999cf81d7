import RegisterMap.Number.Hex
import RegisterMap.Number.Scaled

/-!
# Addresses

Sums of addresses, offsets and bit positions, which must fit in 64 bits.
-/

namespace RegisterMap.Number

structure AddressOverflow where
  terms : List Int
  deriving DecidableEq, Repr

namespace AddressOverflow

def message (e : AddressOverflow) : String :=
  String.intercalate " + " (e.terms.map plainHex) ++ " overflows 64 bits"

end AddressOverflow

/-- True of a number that 64 bits hold. -/
def isWord (n : Int) : Bool :=
  0 ≤ n && n < wordLimit

def checkedSum (terms : List Int) : Except AddressOverflow Int :=
  let total := terms.foldr (· + ·) 0
  if isWord total then .ok total else .error ⟨terms⟩

theorem checkedSum_eq_ok_iff {terms : List Int} {n : Int} :
    checkedSum terms = .ok n ↔ terms.foldr (· + ·) 0 = n ∧ isWord n = true := by
  simp only [checkedSum]
  split
  · constructor
    · intro h
      cases h
      exact ⟨rfl, by assumption⟩
    · intro h
      rcases h with ⟨rfl, _⟩
      rfl
  · constructor
    · intro h
      cases h
    · intro h
      rcases h with ⟨rfl, h⟩
      contradiction

end RegisterMap.Number
