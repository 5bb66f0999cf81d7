import RegisterMap.Description.Decode
import RegisterMap.Number.Address
import RegisterMap.Proofs.Report.Outcome

/-!
# Words of a description

Numbers that 64 bits hold, if they are there, and documents written out.
-/

namespace RegisterMap.Export

open RegisterMap.Number

/-- True of a number that 64 bits hold if there is one. -/
def IsWord? (n? : Option Int) : Prop :=
  ∀ n ∈ n?, isWord n = true

end RegisterMap.Export

namespace RegisterMap.Description

open RegisterMap.Number RegisterMap.Report.Outcome

theorem isWord_of_readScaled {text : String} {n : Nat} (h : readScaled text = .ok n) :
    isWord n = true := by
  have hlt := lt_wordLimit_of_readScaled h
  simp only [isWord, Bool.and_eq_true, decide_eq_true_eq]
  omega

theorem valueOf_eq_ok_iff {α : Type} {l : Located} {shape : Shape} {value : Except Cause α}
    {a : α} : valueOf l shape value = .ok a ↔ value = .ok a :=
  mapError_eq_ok_iff

/-! ## Documents written out -/

def textNode (tag text : String) : Xml.Node :=
  .element (.mk ⟨none, tag⟩ [] 1 [.text text])

def groupNode (tag : String) (children : List Xml.Node) : Xml.Node :=
  .element (.mk ⟨none, tag⟩ [] 1 children)

def deviceDocument (name : String) (peripherals : List Xml.Node) : Xml.Element :=
  .mk ⟨none, "device"⟩ [] 1 [textNode "name" name, groupNode "peripherals" peripherals]

end RegisterMap.Description
