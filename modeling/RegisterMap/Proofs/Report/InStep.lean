import RegisterMap.Proofs.Report.Trace

/-!
# Computations in step

Two computations run in step if they end in the same error or in related values, and
if one records what the other records, shown in another way.  Computations in several
steps run in step if their steps do.
-/

namespace RegisterMap.Report

variable {ε ε' κ α α' β β' : Type} {R : α → α' → Prop} {S : β → β' → Prop}

/-- True of two outcomes that are the same error, or values in a relation. -/
inductive SameEnd (R : α → α' → Prop) : Except ε α → Except ε α' → Prop
  | ok {a : α} {a' : α'} : R a a' → SameEnd R (.ok a) (.ok a')
  | error (e : ε) : SameEnd R (.error e) (.error e)

namespace SameEnd

theorem refl (x : Except ε α) : SameEnd Eq x x := by
  cases x with
  | error e => exact .error e
  | ok a => exact .ok rfl

theorem eq {x y : Except ε α} (h : SameEnd Eq x y) : x = y := by
  cases h with
  | error e => rfl
  | ok heq => rw [heq]

theorem bind {x : Except ε α} {x' : Except ε α'} {f : α → Except ε β} {f' : α' → Except ε β'}
    (h : SameEnd R x x') (hf : ∀ a a', R a a' → SameEnd S (f a) (f' a')) :
    SameEnd S (x >>= f) (x' >>= f') := by
  cases h with
  | error e => exact .error e
  | ok ha => exact hf _ _ ha

theorem mapError {x : Except ε α} {x' : Except ε α'} (h : SameEnd R x x') (wrap : ε → ε') :
    SameEnd R (x.mapError wrap) (x'.mapError wrap) := by
  cases h with
  | error e => exact .error (wrap e)
  | ok ha => exact .ok ha

end SameEnd

namespace Trace

/-- True of two computations of which the second records the events of the first as shown. -/
structure InStep (shown : κ → κ) (R : α → α' → Prop) (t : Trace ε κ α) (t' : Trace ε κ α') :
    Prop where
  events : t'.events = t.events.map shown
  ends : SameEnd R t.outcome t'.outcome

namespace InStep

variable {shown : κ → κ}

theorem pure {a : α} {a' : α'} (h : R a a') :
    InStep shown R (Pure.pure a : Trace ε κ α) (Pure.pure a') :=
  ⟨rfl, .ok h⟩

theorem record (event : κ) :
    InStep shown Eq (Trace.record event : Trace ε κ Unit) (Trace.record (shown event)) :=
  ⟨rfl, .ok rfl⟩

theorem recordAll {events : List κ} (h : ∀ event ∈ events, shown event = event) :
    InStep shown Eq (Trace.recordAll events : Trace ε κ Unit) (Trace.recordAll events) :=
  ⟨(List.map_congr_left h |>.trans (List.map_id events)).symm, .ok rfl⟩

theorem ofExcept {x : Except ε α} {x' : Except ε α'} (h : SameEnd R x x') (wrap : ε → ε') :
    InStep shown R (Trace.ofExcept wrap x : Trace ε' κ α) (Trace.ofExcept wrap x') :=
  ⟨rfl, h.mapError wrap⟩

theorem bind {t : Trace ε κ α} {t' : Trace ε κ α'} {f : α → Trace ε κ β}
    {f' : α' → Trace ε κ β'} (h : InStep shown R t t')
    (hf : ∀ a a', R a a' → InStep shown S (f a) (f' a')) :
    InStep shown S (t >>= f) (t' >>= f') := by
  rcases t with ⟨events, outcome⟩
  rcases t' with ⟨events', outcome'⟩
  obtain rfl : events' = events.map shown := h.events
  cases h.ends with
  | error e => exact ⟨rfl, .error e⟩
  | @ok a a' ha =>
      have hrest := hf a a' ha
      rw [bind_of_ok rfl, bind_of_ok rfl]
      refine ⟨?_, hrest.ends⟩
      rw [List.map_append, hrest.events]

theorem mapM {ι : Type} {f : ι → Trace ε κ β} {f' : ι → Trace ε κ β'} {xs : List ι}
    (h : ∀ x ∈ xs, InStep shown S (f x) (f' x)) :
    InStep shown (List.Forall₂ S) (xs.mapM f) (xs.mapM f') := by
  induction xs with
  | nil => exact pure .nil
  | cons x xs ih =>
      rw [List.forall_mem_cons] at h
      rw [List.mapM_cons, List.mapM_cons]
      exact h.1.bind fun y y' hy => (ih h.2).bind fun ys ys' hys => pure (.cons hy hys)

theorem forM {ι : Type} {f f' : ι → Trace ε κ Unit} {xs : List ι}
    (h : ∀ x ∈ xs, InStep shown Eq (f x) (f' x)) :
    InStep shown Eq (xs.forM f) (xs.forM f') := by
  induction xs with
  | nil => exact pure rfl
  | cons x xs ih =>
      rw [List.forall_mem_cons] at h
      change InStep shown Eq (f x >>= fun _ => xs.forM f) (f' x >>= fun _ => xs.forM f')
      exact h.1.bind fun _ _ _ => ih h.2

end InStep

end Trace

end RegisterMap.Report
