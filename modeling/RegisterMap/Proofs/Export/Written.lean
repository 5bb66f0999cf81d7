import RegisterMap.Export.Run
import RegisterMap.Proofs.Report.Trace
import RegisterMap.Proofs.Swift.Layout

/-!
# Finished units

Declaring instances, members and types finishes no unit; only the last step of a
unit does, and it finishes exactly that one.
-/

namespace RegisterMap.Export

open RegisterMap.Model RegisterMap.Number RegisterMap.Report RegisterMap.Swift

variable {ε α β : Type}

@[simp] theorem writtenUnits_append (xs ys : List Event) :
    writtenUnits (xs ++ ys) = writtenUnits xs ++ writtenUnits ys :=
  List.filterMap_append

theorem writtenUnits_flatMap (f : α → List Event) (xs : List α) :
    writtenUnits (xs.flatMap f) = xs.flatMap fun x => writtenUnits (f x) :=
  List.filterMap_flatMap

/-- True of a computation that finishes no unit. -/
def FinishesNone (t : Trace ε Event α) : Prop :=
  writtenUnits t.events = []

namespace FinishesNone

theorem pure (a : α) : FinishesNone (pure a : Trace ε Event α) := rfl

theorem record {event : Event} (h : event.unit? = none) :
    FinishesNone (Trace.record event : Trace ε Event Unit) := by
  simp [FinishesNone, writtenUnits, h]

theorem ofExcept {ε' : Type} (wrap : ε' → ε) (result : Except ε' α) :
    FinishesNone (Trace.ofExcept wrap result : Trace ε Event α) := rfl

theorem bind {t : Trace ε Event α} {f : α → Trace ε Event β} (ht : FinishesNone t)
    (hf : ∀ a, FinishesNone (f a)) : FinishesNone (t >>= f) := by
  unfold FinishesNone at ht hf ⊢
  cases h : t.outcome with
  | error e => rw [Trace.bind_of_error h, ht]
  | ok a => rw [Trace.bind_of_ok h, writtenUnits_append, ht, hf a, List.append_nil]

theorem mapM {f : α → Trace ε Event β} {xs : List α} (h : ∀ x ∈ xs, FinishesNone (f x)) :
    FinishesNone (xs.mapM f) := by
  induction xs with
  | nil => exact .pure []
  | cons x xs ih =>
      rw [List.mapM_cons]
      have hothers := ih fun y hy => h y (by simp [hy])
      exact bind (h x (by simp)) fun _ => bind hothers fun _ => .pure _

end FinishesNone

/-! ## Declarations -/

theorem peripheralAccessors_finishesNone (options : Options) (inherited : RegisterProperties)
    (p : Peripheral) : FinishesNone (peripheralAccessors options inherited p) := by
  unfold peripheralAccessors
  split
  · exact .bind (.record rfl) fun _ => .pure _
  · exact .ofExcept _ _

theorem memberAccessors_finishesNone (options : Options) (inherited : RegisterProperties)
    (m : Member) : FinishesNone (memberAccessors options inherited m) := by
  cases m with
  | register r =>
      rw [memberAccessors, registerAccessors]
      split
      · exact .bind (.record rfl) fun _ => .pure _
      · split
        · exact .bind (.record rfl) fun _ => .pure _
        · exact .ofExcept _ _
  | cluster c =>
      rw [memberAccessors, clusterAccessors]
      split
      · exact .bind (.record rfl) fun _ => .pure _
      · exact .ofExcept _ _

theorem fieldAccessors_finishesNone (options : Options) (access : Option Access)
    (names : FieldNames) (fields : List Field) :
    FinishesNone (fieldAccessors options access names fields) := by
  induction fields generalizing names with
  | nil => exact .pure []
  | cons f fields ih =>
      rw [fieldAccessors]
      split
      · exact .bind (.record rfl) fun _ => ih names
      · refine .bind (.ofExcept _ _) fun own => ?_
        split
        · exact .bind (.record rfl) fun _ => .bind (ih _) fun _ => .pure _
        · exact .bind (ih _) fun _ => .pure _

theorem blockCode_finishesNone (options : Options) (description : Option String) (e : Element)
    (effective : RegisterProperties) :
    FinishesNone (blockCode options description e effective) :=
  .bind (.mapM fun m _ => memberAccessors_finishesNone options effective m) fun _ => .pure _

theorem typeCode_finishesNone (options : Options) (inherited : RegisterProperties)
    (address : Int) (e : Element) : FinishesNone (typeCode options inherited address e) := by
  refine .bind (.ofExcept _ _) fun total => ?_
  cases e with
  | peripheral p =>
      cases h : p.derivedFrom with
      | some base => simp only [h]; exact .pure _
      | none => simp only [h]; exact blockCode_finishesNone ..
  | member m =>
      cases m with
      | register r =>
          refine .bind (.record rfl) fun _ => ?_
          exact .bind (fieldAccessors_finishesNone ..) fun _ => .pure _
      | cluster c =>
          cases h : c.derivedFrom with
          | some base => simp only [h]; exact .pure _
          | none => simp only [h]; exact blockCode_finishesNone ..

theorem sectionCode_finishesNone (options : Options) (s : Section) :
    FinishesNone (s.code options) := by
  refine .bind (.mapM fun e _ => typeCode_finishesNone options s.inherited s.address e) ?_
  intro types
  exact .pure _

theorem instances_finishesNone (options : Options) (device : Device)
    (peripherals : List Peripheral) : FinishesNone (instances options device peripherals) := by
  induction peripherals with
  | nil => exact .pure []
  | cons p peripherals ih =>
      rw [instances]
      refine .bind (peripheralAccessors_finishesNone ..) fun accessors => ?_
      exact .bind ih fun _ => .pure _

/-! ## Units -/

theorem finishUnit_eq (options : Options) (name : String) (code : List Code) :
    finishUnit options name code =
      Trace.record (.wrote ⟨name, Code.text options.indentation (fileHeader :: code)⟩) := by
  rw [finishUnit, Code.toUnit_eq, Trace.ofExcept_ok, pure_bind]
  rfl

end RegisterMap.Export
