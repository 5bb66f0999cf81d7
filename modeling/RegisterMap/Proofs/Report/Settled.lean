import RegisterMap.Proofs.Report.Trace

/-!
# Settled computations

A computation is settled by a condition, a value and events if it ends in the
value with the events when the condition holds, and in an error of a given kind
when it does not.  Steps that are settled are settled together: all conditions
must hold, and the events come one after the other.
-/

namespace RegisterMap.Report.Trace

variable {ε ε' κ α β γ : Type} {kind : ε → Prop}

/-- How a computation ends, told by a condition that decides between a value and an error. -/
structure Settled (kind : ε → Prop) (t : Trace ε κ α) (condition : Prop) (value : α)
    (events : List κ) : Prop where
  done : condition → t = ⟨events, .ok value⟩
  failed : ¬condition → ∃ e, kind e ∧ t.outcome = .error e

namespace Settled

/-! ## What a settled computation tells -/

theorem outcome_iff {t : Trace ε κ α} {P : Prop} {a b : α} {xs : List κ}
    (h : Settled kind t P a xs) : t.outcome = .ok b ↔ P ∧ b = a := by
  by_cases hP : P
  · rw [h.done hP]
    simp [hP, eq_comm]
  · rcases h.failed hP with ⟨e, -, he⟩
    simp [he, hP]

theorem events_of_ok {t : Trace ε κ α} {P : Prop} {a b : α} {xs : List κ}
    (h : Settled kind t P a xs) (hok : t.outcome = .ok b) : t.events = xs := by
  rw [h.done (h.outcome_iff.mp hok).1]

theorem error_iff {t : Trace ε κ α} {P : Prop} {a : α} {xs : List κ}
    (h : Settled kind t P a xs) : (∃ e, kind e ∧ t.outcome = .error e) ↔ ¬P := by
  constructor
  · rintro ⟨e, -, he⟩ hP
    rw [h.done hP] at he
    cases he
  · exact h.failed

theorem kind_of_error {t : Trace ε κ α} {P : Prop} {a : α} {xs : List κ}
    (h : Settled kind t P a xs) {e : ε} (he : t.outcome = .error e) : kind e := by
  have hP : ¬P := fun hP => by simp [h.done hP] at he
  rcases h.failed hP with ⟨e', hkind, he'⟩
  obtain rfl := Except.error.inj (he.symm.trans he')
  exact hkind

theorem of_iff {t : Trace ε κ α} {P Q : Prop} {a : α} {xs : List κ}
    (h : Settled kind t P a xs) (hPQ : P ↔ Q) : Settled kind t Q a xs := by
  rwa [← hPQ]

/-! ## Single steps -/

theorem pure (a : α) : Settled kind (pure a : Trace ε κ α) True a [] :=
  ⟨fun _ => rfl, fun h => absurd trivial h⟩

theorem record (event : κ) :
    Settled kind (Trace.record event : Trace ε κ Unit) True () [event] :=
  ⟨fun _ => rfl, fun h => absurd trivial h⟩

theorem recordAll (events : List κ) :
    Settled kind (Trace.recordAll events : Trace ε κ Unit) True () events :=
  ⟨fun _ => rfl, fun h => absurd trivial h⟩

theorem ofExcept {wrap : ε' → ε} {result : Except ε' α} {P : Prop} {a : α}
    (hkind : ∀ e, kind (wrap e)) (h : ∀ b, result = .ok b ↔ P ∧ b = a) :
    Settled kind (Trace.ofExcept wrap result : Trace ε κ α) P a [] := by
  cases result with
  | error e =>
      have hP : ¬P := fun hP => by simpa using (h a).mpr ⟨hP, rfl⟩
      exact ⟨fun hP' => absurd hP' hP, fun _ => ⟨wrap e, hkind e, rfl⟩⟩
  | ok b =>
      rcases (h b).mp rfl with ⟨hP, rfl⟩
      exact ⟨fun _ => rfl, fun hP' => absurd hP hP'⟩

/-! ## Several steps -/

/-- The second step only has to be settled if the first one came to its end. -/
theorem bind {t : Trace ε κ α} {f : α → Trace ε κ β} {P Q : Prop} {a : α} {b : β}
    {xs ys : List κ} (ht : Settled kind t P a xs) (hf : P → Settled kind (f a) Q b ys) :
    Settled kind (t >>= f) (P ∧ Q) b (xs ++ ys) := by
  constructor
  · intro ⟨hP, hQ⟩
    have hdone := ht.done hP
    have hok : t.outcome = .ok a := by rw [hdone]
    rw [bind_of_ok hok, (hf hP).done hQ, hdone]
  · intro h
    by_cases hP : P
    · have hok : t.outcome = .ok a := by rw [ht.done hP]
      rw [bind_of_ok hok]
      exact (hf hP).failed fun hQ => h ⟨hP, hQ⟩
    · rcases ht.failed hP with ⟨e, hkind, he⟩
      exact ⟨e, hkind, by rw [bind_of_error he]⟩

theorem map {t : Trace ε κ α} {P : Prop} {a : α} {xs : List κ} (f : α → β)
    (ht : Settled kind t P a xs) :
    Settled kind (t >>= fun a => Pure.pure (f a)) P (f a) xs := by
  have h := ht.bind (f := fun a => Pure.pure (f a)) fun _ => pure (f a)
  rw [List.append_nil] at h
  exact h.of_iff (and_iff_left trivial)

theorem mapM {f : α → Trace ε κ β} {P : α → Prop} {g : α → β} {events : α → List κ}
    {xs : List α} (h : ∀ x ∈ xs, Settled kind (f x) (P x) (g x) (events x)) :
    Settled kind (xs.mapM f) (∀ x ∈ xs, P x) (xs.map g) (xs.flatMap events) := by
  induction xs with
  | nil => exact (pure []).of_iff (by simp)
  | cons x xs ih =>
      rw [List.forall_mem_cons] at h
      rw [List.mapM_cons]
      exact (h.1.bind fun _ => (ih h.2).map (g x :: ·)).of_iff List.forall_mem_cons.symm

theorem forM {f : α → Trace ε κ Unit} {P : α → Prop} {events : α → List κ} {xs : List α}
    (h : ∀ x ∈ xs, Settled kind (f x) (P x) () (events x)) :
    Settled kind (xs.forM f) (∀ x ∈ xs, P x) () (xs.flatMap events) := by
  induction xs with
  | nil => exact (pure ()).of_iff (by simp)
  | cons x xs ih =>
      rw [List.forall_mem_cons] at h
      change Settled kind (f x >>= fun _ => xs.forM f) _ () _
      exact (h.1.bind fun _ => ih h.2).of_iff List.forall_mem_cons.symm

end Settled

end RegisterMap.Report.Trace
