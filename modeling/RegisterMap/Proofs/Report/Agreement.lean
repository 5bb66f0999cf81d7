import Mathlib.Data.Option.Basic
import RegisterMap.Proofs.Report.Outcome

/-!
# Agreement

Two computations agree under a view of their errors if both succeed with one
value, or both fail with errors that look alike.  Computations in several steps
agree if their steps do.
-/

namespace RegisterMap.Report

variable {ε φ α β ι κ : Type} {view : ε → φ}

def Agree (view : ε → φ) (x y : Except ε α) : Prop :=
  x.mapError view = y.mapError view

namespace Agree

theorem rfl {x : Except ε α} : Agree view x x := Eq.refl _

theorem ok_iff {x y : Except ε α} (h : Agree view x y) {a : α} : x = .ok a ↔ y = .ok a := by
  have hx : x.mapError view = .ok a ↔ x = .ok a := Outcome.mapError_eq_ok_iff
  rw [← hx, h, Outcome.mapError_eq_ok_iff]

theorem toOption_eq {x y : Except ε α} (h : Agree view x y) : x.toOption = y.toOption := by
  cases x with
  | error e =>
      cases y with
      | error e' => exact Eq.refl none
      | ok b => cases h
  | ok a => rw [h.ok_iff.mp (Eq.refl _)]

theorem bind {x y : Except ε α} {f g : α → Except ε β} (h : Agree view x y)
    (hfg : ∀ a, Agree view (f a) (g a)) : Agree view (x >>= f) (y >>= g) := by
  cases x with
  | error e =>
      cases y with
      | error e' => exact congrArg Except.error (Except.error.inj h)
      | ok b => cases h
  | ok a =>
      cases y with
      | error e' => cases h
      | ok b =>
          cases h
          exact hfg a

theorem mapM {R : ι → κ → Prop} {f : ι → Except ε α} {g : κ → Except ε α} {xs : List ι}
    {ys : List κ} (h : List.Forall₂ R xs ys) (hfg : ∀ x y, R x y → Agree view (f x) (g y)) :
    Agree view (xs.mapM f) (ys.mapM g) := by
  induction h with
  | nil => exact rfl
  | cons hxy _ ih =>
      rw [List.mapM_cons, List.mapM_cons]
      exact (hfg _ _ hxy).bind fun _ => ih.bind fun _ => rfl

theorem map {x y : Except ε α} (h : Agree view x y) (f : α → β) :
    Agree view (f <$> x) (f <$> y) := by
  simp only [map_eq_pure_bind]
  exact h.bind fun _ => rfl

theorem mapM? {R : ι → κ → Prop} {f : ι → Except ε α} {g : κ → Except ε α} {x : Option ι}
    {y : Option κ} (h : Option.Rel R x y) (hfg : ∀ i j, R i j → Agree view (f i) (g j)) :
    Agree view (x.mapM f) (y.mapM g) := by
  cases h with
  | none => exact rfl
  | some hij => exact (hfg _ _ hij).map some

end Agree

end RegisterMap.Report
