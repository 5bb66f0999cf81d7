/-!
# Traces

Computations that record events on the way and end in a value or an error.  The
events recorded before an error are kept.
-/

namespace RegisterMap.Report

/-- The events of a computation and its outcome. -/
structure Trace (ε κ α : Type) where
  events : List κ
  outcome : Except ε α

namespace Trace

protected def pure (a : α) : Trace ε κ α := ⟨[], .ok a⟩

protected def bind (t : Trace ε κ α) (f : α → Trace ε κ β) : Trace ε κ β :=
  match t.outcome with
  | .error e => ⟨t.events, .error e⟩
  | .ok a =>
      let next := f a
      ⟨t.events ++ next.events, next.outcome⟩

instance : Monad (Trace ε κ) where
  pure := Trace.pure
  bind := Trace.bind

def record (event : κ) : Trace ε κ Unit := ⟨[event], .ok ()⟩

def recordAll (events : List κ) : Trace ε κ Unit := ⟨events, .ok ()⟩

/-- A step that records nothing and may fail, with its error in a wider type. -/
def ofExcept (wrap : ε' → ε) (outcome : Except ε' α) : Trace ε κ α :=
  ⟨[], outcome.mapError wrap⟩

def mapError (wrap : ε' → ε) (t : Trace ε' κ α) : Trace ε κ α :=
  ⟨t.events, t.outcome.mapError wrap⟩

/-! ## Laws -/

@[simp] theorem events_pure (a : α) : (pure a : Trace ε κ α).events = [] := rfl

@[simp] theorem outcome_pure (a : α) : (pure a : Trace ε κ α).outcome = .ok a := rfl

@[simp] theorem events_record (event : κ) : (record event : Trace ε κ Unit).events = [event] :=
  rfl

@[simp] theorem events_recordAll (events : List κ) :
    (recordAll events : Trace ε κ Unit).events = events := rfl

@[simp] theorem events_ofExcept (wrap : ε' → ε) (outcome : Except ε' α) :
    (ofExcept wrap outcome : Trace ε κ α).events = [] := rfl

@[simp] theorem events_mapError (wrap : ε' → ε) (t : Trace ε' κ α) :
    (t.mapError wrap).events = t.events := rfl

@[simp] theorem outcome_mapError (wrap : ε' → ε) (t : Trace ε' κ α) :
    (t.mapError wrap).outcome = t.outcome.mapError wrap := rfl

theorem bind_of_ok {t : Trace ε κ α} {a : α} (h : t.outcome = .ok a)
    (f : α → Trace ε κ β) :
    t >>= f = ⟨t.events ++ (f a).events, (f a).outcome⟩ := by
  change Trace.bind t f = _
  simp [Trace.bind, h]

theorem bind_of_error {t : Trace ε κ α} {e : ε} (h : t.outcome = .error e)
    (f : α → Trace ε κ β) :
    t >>= f = ⟨t.events, .error e⟩ := by
  change Trace.bind t f = _
  simp [Trace.bind, h]

instance : LawfulMonad (Trace ε κ) :=
  LawfulMonad.mk' (Trace ε κ)
    (by
      rintro α ⟨events, _ | a⟩ <;> simp [Functor.map, Trace.bind, Trace.pure])
    (by
      intro α β a f
      simp [Bind.bind, Pure.pure, Trace.bind, Trace.pure])
    (by
      rintro α β γ ⟨events, _ | a⟩ f g
      · simp [Bind.bind, Trace.bind]
      · simp only [Bind.bind, Trace.bind]
        cases (f a).outcome <;> simp [List.append_assoc])

end Trace

end RegisterMap.Report
