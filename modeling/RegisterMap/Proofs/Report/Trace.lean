import RegisterMap.Proofs.Report.Outcome
import RegisterMap.Report.Trace

/-!
# Successful traces

What the outcome and the events of a computation in several steps say about its
steps.  A sequence of steps succeeds exactly if each of them does, and it then
records what they record, one after the other.
-/

namespace RegisterMap.Report.Trace

variable {ε ε' κ α β γ : Type}

/-! ## Two steps -/

theorem outcome_bind_eq_ok_iff {t : Trace ε κ α} {f : α → Trace ε κ β} {b : β} :
    (t >>= f).outcome = .ok b ↔ ∃ a, t.outcome = .ok a ∧ (f a).outcome = .ok b := by
  cases h : t.outcome with
  | error e => simp [bind_of_error h]
  | ok a => simp [bind_of_ok h]

theorem events_bind_of_ok {t : Trace ε κ α} {a : α} (h : t.outcome = .ok a)
    (f : α → Trace ε κ β) : (t >>= f).events = t.events ++ (f a).events := by
  rw [bind_of_ok h]

@[simp] theorem outcome_ofExcept_eq_ok_iff {wrap : ε' → ε} {result : Except ε' α} {a : α} :
    (ofExcept wrap result : Trace ε κ α).outcome = .ok a ↔ result = .ok a := by
  exact Outcome.mapError_eq_ok_iff

@[simp] theorem ofExcept_ok (wrap : ε' → ε) (a : α) :
    (ofExcept wrap (.ok a) : Trace ε κ α) = pure a := rfl

/-! ## Sequences of steps -/

theorem outcome_mapM_eq_ok_iff {f : α → Trace ε κ β} {xs : List α} {ys : List β} :
    (xs.mapM f).outcome = .ok ys ↔ List.Forall₂ (fun x y => (f x).outcome = .ok y) xs ys := by
  induction xs generalizing ys with
  | nil =>
      rw [List.mapM_nil, List.forall₂_nil_left_iff, outcome_pure, Except.ok.injEq, eq_comm]
  | cons x xs ih =>
      simp only [List.mapM_cons, outcome_bind_eq_ok_iff, ih, outcome_pure, Except.ok.injEq]
      constructor
      · intro h
        rcases h with ⟨y, hy, ys, hys, rfl⟩
        exact .cons hy hys
      · intro h
        cases h with
        | cons hy hys => exact ⟨_, hy, _, hys, rfl⟩

theorem outcome_forM_eq_ok_iff {f : α → Trace ε κ Unit} {xs : List α} :
    (xs.forM f).outcome = .ok () ↔ ∀ x ∈ xs, (f x).outcome = .ok () := by
  induction xs with
  | nil => simp
  | cons x xs ih =>
      change (f x >>= fun _ => xs.forM f).outcome = .ok () ↔ _
      rw [outcome_bind_eq_ok_iff, List.forall_mem_cons, ← ih]
      constructor
      · intro h
        rcases h with ⟨⟨⟩, hx, hxs⟩
        exact ⟨hx, hxs⟩
      · intro h
        rcases h with ⟨hx, hxs⟩
        exact ⟨(), hx, hxs⟩

theorem events_forM_of_ok {f : α → Trace ε κ Unit} {xs : List α}
    (h : (xs.forM f).outcome = .ok ()) :
    (xs.forM f).events = xs.flatMap fun x => (f x).events := by
  induction xs with
  | nil => rfl
  | cons x xs ih =>
      change (f x >>= fun _ => xs.forM f).outcome = .ok () at h
      change (f x >>= fun _ => xs.forM f).events = _
      rcases outcome_bind_eq_ok_iff.mp h with ⟨⟨⟩, hx, hxs⟩
      rw [events_bind_of_ok hx, ih hxs, List.flatMap_cons]

/-- A sequence that fails has come to its first step that fails, and recorded no more. -/
theorem exists_failing_of_forM {f : α → Trace ε κ Unit} {xs : List α} {e : ε}
    (h : (xs.forM f).outcome = .error e) :
    ∃ before x after, xs = before ++ x :: after ∧ (∀ b ∈ before, (f b).outcome = .ok ()) ∧
      (f x).outcome = .error e ∧
      (xs.forM f).events = (before.flatMap fun b => (f b).events) ++ (f x).events := by
  induction xs with
  | nil => cases h
  | cons x xs ih =>
      change (f x >>= fun _ => xs.forM f).outcome = .error e at h
      change ∃ before y after, x :: xs = before ++ y :: after ∧ _ ∧ _ ∧
        (f x >>= fun _ => xs.forM f).events = _
      cases hx : (f x).outcome with
      | error e' =>
          rw [bind_of_error hx] at h ⊢
          cases h
          exact ⟨[], x, xs, rfl, by simp, hx, rfl⟩
      | ok u =>
          rw [bind_of_ok hx] at h ⊢
          rcases ih h with ⟨before, y, after, hsplit, hbefore, hy, hevents⟩
          refine ⟨x :: before, y, after, by rw [hsplit, List.cons_append], ?_, hy, ?_⟩
          · exact List.forall_mem_cons.mpr ⟨hx, hbefore⟩
          · rw [List.flatMap_cons, List.append_assoc, ← hevents]

end RegisterMap.Report.Trace
