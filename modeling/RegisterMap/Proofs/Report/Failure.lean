import RegisterMap.Proofs.Report.Outcome

/-!
# First errors

A computation in several steps ends in the error of the first of its steps that
fails.  Steps whose errors do not depend on the values before them can be looked
at one by one.
-/

namespace RegisterMap.Report.Outcome

variable {ε ε' α β ι κ : Type}

/-- The error in which a computation ends, if it fails. -/
def error? : Except ε α → Option ε
  | .ok _ => none
  | .error e => some e

@[simp] theorem error?_eq_some_iff {x : Except ε α} {e : ε} : error? x = some e ↔ x = .error e := by
  cases x <;> simp [error?]

theorem error?_isSome_iff {x : Except ε α} : (error? x).isSome ↔ ∃ e, x = .error e := by
  cases x <;> simp [error?]

theorem error?_mapError (wrap : ε' → ε) (x : Except ε' α) :
    error? (x.mapError wrap) = (error? x).map wrap := by
  cases x <;> rfl

theorem error?_bind {x : Except ε α} {f : α → Except ε β} {first second : Option ε}
    (hx : error? x = first) (hf : ∀ a, error? (f a) = second) :
    error? (x >>= f) = first.or second := by
  subst hx
  cases x with
  | error e => rfl
  | ok a => exact hf a

theorem error?_map (f : α → β) (x : Except ε α) : error? (f <$> x) = error? x := by
  cases x <;> rfl

/-- The first error of steps is the first one of all that each of them looks at. -/
theorem error?_mapM {f : ι → Except ε α} {parts : ι → List κ} {fault? : κ → Option ε}
    {xs : List ι} (h : ∀ x ∈ xs, error? (f x) = (parts x).findSome? fault?) :
    error? (xs.mapM f) = (xs.flatMap parts).findSome? fault? := by
  induction xs with
  | nil => rfl
  | cons x xs ih =>
      rw [List.forall_mem_cons] at h
      rw [List.mapM_cons, List.flatMap_cons, List.findSome?_append]
      apply error?_bind h.1
      intro a
      rw [← ih h.2, ← Option.or_none (o := error? (xs.mapM f))]
      exact error?_bind rfl fun _ => rfl

theorem findSome?_cons_eq_or {p : κ → Option ε} {x : κ} {xs : List κ} :
    (x :: xs).findSome? p = (p x).or (xs.findSome? p) := by
  rw [List.findSome?_cons]
  cases p x <;> rfl

end RegisterMap.Report.Outcome
