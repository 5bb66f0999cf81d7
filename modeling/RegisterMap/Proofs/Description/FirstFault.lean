import RegisterMap.Proofs.Description.Bits
import RegisterMap.Proofs.Description.Visit
import RegisterMap.Proofs.Report.Failure

/-!
# First faults

A description that cannot be decoded fails at the first visited element with a
malformed value of its own.  The error stands at that element, or at its write
constraint if no kind of constraint can be used there, and nothing that is
visited later has a part in it.  A value that is missing is not malformed if a child
stands in for it.
-/

namespace RegisterMap.Description

open RegisterMap.Model RegisterMap.Report.Outcome RegisterMap.Xml

/-! ## Own values -/

/-- The values that an element gives itself. -/
inductive OwnValue where
  | name
  | baseAddress
  | addressOffset
  | derivedFrom
  | dimension
  | properties
  | bits
  | access
  | writeConstraint
  deriving DecidableEq, Repr

/-- The own values of an element of a kind, in the order in which they are read. -/
def Shape.ownValues : Shape → List OwnValue
  | device => [.name, .properties]
  | peripheral => [.name, .baseAddress, .derivedFrom, .dimension, .properties]
  | cluster => [.name, .addressOffset, .derivedFrom, .dimension, .properties]
  | register => [.name, .addressOffset, .dimension, .properties, .writeConstraint]
  | field => [.name, .bits, .access, .dimension, .writeConstraint]
  | writeConstraint => []

/-- True of a write constraint that is of none of the three kinds. -/
structure Unusable (e : Element) : Prop where
  writeAsRead : truthIn? e "writeAsRead" .writeAsRead = none
  useEnumeratedValues : truthIn? e "useEnumeratedValues" .useEnumeratedValues = none
  range : e.child? "range" = none

theorem constraintIn?_eq_ok_none_iff {e : Element} : constraintIn? e = .ok none ↔ Unusable e := by
  unfold constraintIn?
  constructor
  · intro h
    split at h
    · cases h
    · cases h
    · simp only [bind_eq_ok_iff, pure_eq_ok_iff, reduceCtorEq, and_false, exists_false] at h
    · exact ⟨‹_›, ‹_›, ‹_›⟩
  · rintro ⟨hread, huse, hrange⟩
    rw [hread, huse, hrange]
    rfl

namespace OwnValue

/-- Why an own value of an element cannot be read, if it cannot. -/
def cause? (e : Element) : OwnValue → Option Cause
  | name => error? (nameOf e)
  | baseAddress => error? (integer e "baseAddress" .baseAddress)
  | addressOffset => error? (integer e "addressOffset" .offset)
  | derivedFrom => error? (derivedFromOf e)
  | dimension => error? (dimensionOf e)
  | properties => error? (propertiesOf e)
  | bits => error? (bitsOf e)
  | access => error? (accessOf e)
  | writeConstraint => (e.child? "writeConstraint").bind fun child => error? (constraintIn? child)

/-- The children that an own value is read from. -/
def tags : OwnValue → List String
  | name => ["name"]
  | baseAddress => Container.baseAddressTags
  | addressOffset => Container.offsetTags
  | dimension => Container.dimensionTags
  | properties => Container.propertyTags
  | bits => Container.bitTags
  | access => ["access"]
  | derivedFrom | writeConstraint => []

def Malformed (value : OwnValue) (e : Element) : Prop :=
  (value.cause? e).isSome ∨
    value = .writeConstraint ∧ ∃ child ∈ e.child? "writeConstraint", Unusable child

theorem cause?_congr {a b : Element} {value : OwnValue}
    (hcontents : ∀ tag ∈ value.tags, SameContent a b tag)
    (hbase : a.attribute? "derivedFrom" = b.attribute? "derivedFrom")
    (hconstraint : a.child? "writeConstraint" = b.child? "writeConstraint") :
    value.cause? a = value.cause? b := by
  cases value with
  | name => exact congrArg error? (hcontents "name" (by decide)).nameOf
  | baseAddress =>
      have hstandIn := hcontents Property.baseAddress.word (by decide)
      exact congrArg error? ((hcontents "baseAddress" (by decide)).integer hstandIn)
  | addressOffset =>
      have hstandIn := hcontents Property.offset.word (by decide)
      exact congrArg error? ((hcontents "addressOffset" (by decide)).integer hstandIn)
  | derivedFrom => exact congrArg error? (derivedFromOf_congr hbase)
  | dimension => exact congrArg error? (SameContent.dimensionOf hcontents)
  | properties => exact congrArg error? (SameContent.propertiesOf hcontents)
  | bits => exact congrArg error? (SameContent.bitsOf hcontents)
  | access => exact congrArg error? (hcontents "access" (by decide)).word?
  | writeConstraint => simp only [cause?, hconstraint]

/-- True of an element and a value that must be there but is missing in it. -/
inductive Misses (e : Element) : OwnValue → Property → Prop
  | baseAddress (h : ∀ child ∈ e.child? "baseAddress", GivesNothing child) :
      Misses e .baseAddress .baseAddress
  | addressOffset (h : ∀ child ∈ e.child? "addressOffset", GivesNothing child) :
      Misses e .addressOffset .offset
  | bits (h : LacksBits e) : Misses e .bits .bitRange

/-- A value that is missing is malformed exactly if no child stands in for it. -/
theorem malformed_iff_of_misses {e : Element} {value : OwnValue} {property : Property}
    (h : Misses e value property) : value.Malformed e ↔ e.child? property.word = none := by
  cases h with
  | baseAddress h =>
      simp only [Malformed, cause?, error?_isSome_iff, exists_error_integer_iff h, reduceCtorEq,
        false_and, or_false]
  | addressOffset h =>
      simp only [Malformed, cause?, error?_isSome_iff, exists_error_integer_iff h, reduceCtorEq,
        false_and, or_false]
  | bits h =>
      have habsent := writtenBits_eq_absent_iff.mpr h
      simp only [Malformed, cause?, error?_isSome_iff, bitsOf, exists_error_orStandIn_iff habsent,
        reduceCtorEq, false_and, or_false]

end OwnValue

/-! ## Faults of a visited element -/

/-- The error that a malformed own value of a visited element gives, and where it stands. -/
inductive Attributed (v : Visit) : OwnValue → DecodeError → Prop
  | own {value : OwnValue} {cause : Cause} (h : value.cause? v.place.element = some cause) :
      Attributed v value ⟨v.place.location, v.shape, cause⟩
  | constraint {child : Located} (hchild : v.place.child? "writeConstraint" = some child)
      (h : Unusable child.element) :
      Attributed v .writeConstraint ⟨child.location, .writeConstraint, .noConstraint⟩

namespace Visit

/-- True of a visited element whose own values can all be read. -/
def Sound (v : Visit) : Prop :=
  ∀ value ∈ v.shape.ownValues, ¬value.Malformed v.place.element

/-- The error of a visited element is that of its first malformed value. -/
def FailsWith (v : Visit) (e : DecodeError) : Prop :=
  ∃ front value back, v.shape.ownValues = front ++ value :: back ∧
    (∀ sound ∈ front, ¬sound.Malformed v.place.element) ∧ Attributed v value e

/-- The error that an own value gives, if it is malformed. -/
def faultIn? (v : Visit) : OwnValue → Option DecodeError
  | .writeConstraint => error? (writeConstraintOf v.place v.shape)
  | value => (value.cause? v.place.element).map (⟨v.place.location, v.shape, ·⟩)

def fault? (v : Visit) : Option DecodeError :=
  v.shape.ownValues.findSome? v.faultIn?

theorem cause?_writeConstraint (l : Located) : OwnValue.writeConstraint.cause? l.element =
    (l.child? "writeConstraint").bind fun child => error? (constraintIn? child.element) := by
  rw [OwnValue.cause?, ← Located.map_element_child?, Option.bind_map]
  rfl

theorem writeConstraintOf_eq_error_iff {l : Located} {shape : Shape} {e : DecodeError} :
    writeConstraintOf l shape = .error e ↔ ∃ child, l.child? "writeConstraint" = some child ∧
      ((∃ cause, constraintIn? child.element = .error cause ∧ e = ⟨l.location, shape, cause⟩) ∨
        constraintIn? child.element = .ok none ∧
          e = ⟨child.location, .writeConstraint, .noConstraint⟩) := by
  unfold writeConstraintOf
  cases l.child? "writeConstraint" with
  | none => simp [pure, Except.pure]
  | some child =>
      cases hread : constraintIn? child.element with
      | error cause =>
          simp [hread, valueOf, Except.mapError, bind, Except.bind, eq_comm]
      | ok constraint? =>
          cases constraint? <;>
            simp [hread, valueOf, Except.mapError, bind, Except.bind, pure, Except.pure, throw,
              throwThe, MonadExceptOf.throw, eq_comm]

theorem faultIn?_of_ne (v : Visit) {value : OwnValue} (h : value ≠ .writeConstraint) :
    v.faultIn? value = (value.cause? v.place.element).map (⟨v.place.location, v.shape, ·⟩) := by
  cases value with
  | writeConstraint => exact absurd rfl h
  | _ => rfl

theorem faultIn?_eq_some_iff {v : Visit} {value : OwnValue} {e : DecodeError} :
    v.faultIn? value = some e ↔ Attributed v value e := by
  by_cases hvalue : value = .writeConstraint
  · subst hvalue
    rw [faultIn?, error?_eq_some_iff, writeConstraintOf_eq_error_iff]
    constructor
    · rintro ⟨child, hchild, ⟨cause, hcause, rfl⟩ | ⟨hread, rfl⟩⟩
      · exact .own (by rw [cause?_writeConstraint, hchild, Option.bind_some, hcause, error?])
      · exact .constraint hchild (constraintIn?_eq_ok_none_iff.mp hread)
    · intro h
      cases h with
      | own hcause =>
          rw [cause?_writeConstraint, Option.bind_eq_some_iff] at hcause
          rcases hcause with ⟨child, hchild, hcause⟩
          exact ⟨child, hchild, .inl ⟨_, error?_eq_some_iff.mp hcause, rfl⟩⟩
      | constraint hchild hunusable =>
          exact ⟨_, hchild, .inr ⟨constraintIn?_eq_ok_none_iff.mpr hunusable, rfl⟩⟩
  · rw [faultIn?_of_ne v hvalue, Option.map_eq_some_iff]
    constructor
    · rintro ⟨cause, hcause, rfl⟩
      exact .own hcause
    · intro h
      cases h with
      | own hcause => exact ⟨_, hcause, rfl⟩
      | constraint => exact absurd rfl hvalue

theorem malformed_iff {v : Visit} {value : OwnValue} :
    value.Malformed v.place.element ↔ ∃ e, Attributed v value e := by
  have helement := Located.map_element_child? v.place "writeConstraint"
  constructor
  · rintro (hcause | ⟨rfl, child, hchild, hunusable⟩)
    · rcases Option.isSome_iff_exists.mp hcause with ⟨cause, hcause⟩
      exact ⟨_, .own hcause⟩
    · rw [Option.mem_def, ← helement, Option.map_eq_some_iff] at hchild
      rcases hchild with ⟨place, hplace, rfl⟩
      exact ⟨_, .constraint hplace hunusable⟩
  · rintro ⟨e, h⟩
    cases h with
    | own hcause => exact .inl (Option.isSome_iff_exists.mpr ⟨_, hcause⟩)
    | constraint hchild hunusable =>
        rw [hchild, Option.map_some] at helement
        exact .inr ⟨rfl, _, helement.symm, hunusable⟩

theorem faultIn?_eq_none_iff {v : Visit} {value : OwnValue} :
    v.faultIn? value = none ↔ ¬value.Malformed v.place.element := by
  simp only [malformed_iff, ← faultIn?_eq_some_iff, Option.eq_none_iff_forall_ne_some, not_exists]

theorem fault?_eq_none_iff {v : Visit} : v.fault? = none ↔ v.Sound := by
  simp only [fault?, List.findSome?_eq_none_iff, faultIn?_eq_none_iff, Sound]

theorem fault?_eq_some_iff {v : Visit} {e : DecodeError} : v.fault? = some e ↔ v.FailsWith e := by
  rw [fault?, List.findSome?_eq_some_iff, FailsWith]
  simp only [faultIn?_eq_some_iff, faultIn?_eq_none_iff]
  constructor
  · rintro ⟨front, value, back, hvalues, hvalue, hfront⟩
    exact ⟨front, value, back, hvalues, hfront, hvalue⟩
  · rintro ⟨front, value, back, hvalues, hfront, hvalue⟩
    exact ⟨front, value, back, hvalues, hvalue, hfront⟩

end Visit

/-! ## Faults of a description -/

theorem error?_valueOf {α : Type} (l : Located) (shape : Shape) (value : Except Cause α) :
    error? (valueOf l shape value) = (error? value).map (⟨l.location, shape, ·⟩) :=
  error?_mapError _ value

-- What is read after a value does not depend on it, so the faults of all values can be
-- looked for one after another without the values.

theorem error?_decodeField (l : Located) : error? (decodeField l) = Visit.fault? ⟨.field, l⟩ := by
  simp only [Visit.fault?, Shape.ownValues, findSome?_cons_eq_or, List.findSome?_nil]
  apply error?_bind (error?_valueOf _ _ _)
  intro name
  apply error?_bind (error?_valueOf _ _ _)
  intro bits
  apply error?_bind (error?_valueOf _ _ _)
  intro access
  apply error?_bind (error?_valueOf _ _ _)
  intro dimension
  apply error?_bind rfl
  intro constraint
  rfl

theorem error?_registerWith (l : Located) (fields : Option (List Field)) :
    error? (registerWith l fields) = Visit.fault? ⟨.register, l⟩ := by
  simp only [Visit.fault?, Shape.ownValues, findSome?_cons_eq_or, List.findSome?_nil]
  apply error?_bind (error?_valueOf _ _ _)
  intro name
  apply error?_bind (error?_valueOf _ _ _)
  intro addressOffset
  apply error?_bind (error?_valueOf _ _ _)
  intro dimension
  apply error?_bind (error?_valueOf _ _ _)
  intro properties
  apply error?_bind rfl
  intro constraint
  rfl

theorem error?_clusterWith (l : Located) (registers : List Register) (clusters : List Cluster) :
    error? (clusterWith l registers clusters) = Visit.fault? ⟨.cluster, l⟩ := by
  simp only [Visit.fault?, Shape.ownValues, findSome?_cons_eq_or, List.findSome?_nil]
  apply error?_bind (error?_valueOf _ _ _)
  intro name
  apply error?_bind (error?_valueOf _ _ _)
  intro addressOffset
  apply error?_bind (error?_valueOf _ _ _)
  intro derivedFrom
  apply error?_bind (error?_valueOf _ _ _)
  intro dimension
  apply error?_bind (error?_valueOf _ _ _)
  intro properties
  rfl

theorem error?_peripheralWith (l : Located) (registers : Option (List Register))
    (clusters : Option (List Cluster)) :
    error? (peripheralWith l registers clusters) = Visit.fault? ⟨.peripheral, l⟩ := by
  simp only [Visit.fault?, Shape.ownValues, findSome?_cons_eq_or, List.findSome?_nil]
  apply error?_bind (error?_valueOf _ _ _)
  intro name
  apply error?_bind (error?_valueOf _ _ _)
  intro baseAddress
  apply error?_bind (error?_valueOf _ _ _)
  intro derivedFrom
  apply error?_bind (error?_valueOf _ _ _)
  intro dimension
  apply error?_bind (error?_valueOf _ _ _)
  intro properties
  rfl

theorem error?_decodeRegister (l : Located) :
    error? (decodeRegister l) = (registerVisits l).findSome? Visit.fault? := by
  rw [registerVisits, List.findSome?_append, findSome?_cons_eq_or, List.findSome?_nil,
    Option.or_none, decodeRegister]
  apply error?_bind _ fun fields => error?_registerWith l fields
  rw [List.map_eq_flatMap, Located.childrenWithin]
  cases l.child? "fields" with
  | none => rfl
  | some container =>
      exact (error?_map some _).trans (error?_mapM fun child _ => by
        rw [error?_decodeField, findSome?_cons_eq_or, List.findSome?_nil, Option.or_none])

theorem error?_decodeClusterAt (l : Located) :
    error? (decodeClusterAt l) = (clusterVisitsAt l).findSome? Visit.fault? := by
  induction l using Located.cluster_induction with
  | h l ih =>
      rw [clusterVisitsAt_eq, List.findSome?_append, List.findSome?_append, findSome?_cons_eq_or,
        List.findSome?_nil, Option.or_none, Option.or_assoc, decodeClusterAt_eq]
      apply error?_bind (error?_mapM fun child _ => error?_decodeRegister child)
      intro registers
      apply error?_bind (error?_mapM ih)
      intro clusters
      exact error?_clusterWith l registers clusters

theorem error?_decodePeripheral (l : Located) :
    error? (decodePeripheral l) = (peripheralVisits l).findSome? Visit.fault? := by
  rw [peripheralVisits, List.findSome?_append, List.findSome?_append, findSome?_cons_eq_or,
    List.findSome?_nil, Option.or_none, Option.or_assoc, decodePeripheral]
  simp only [Located.childrenWithin, decodeClusters_eq_decodeAll]
  cases l.child? "registers" with
  | none => exact error?_peripheralWith l none none
  | some body =>
      apply error?_bind (error?_mapM fun child _ => error?_decodeRegister child)
      intro registers
      apply error?_bind (error?_mapM fun child _ => error?_decodeClusterAt child)
      intro clusters
      exact error?_peripheralWith l (some registers) (some clusters)

theorem error?_decodeDevice {root : Element} (hroot : root.hasTag "device" = true) :
    error? (decodeDevice root) = (visits root).findSome? Visit.fault? := by
  rw [visits, findSome?_cons_eq_or, decodeDevice_eq hroot]
  simp only [Visit.fault?, Shape.ownValues, findSome?_cons_eq_or, List.findSome?_nil,
    Option.or_none, Option.or_assoc]
  apply error?_bind (error?_valueOf _ _ _)
  intro name
  apply error?_bind (error?_valueOf _ _ _)
  intro properties
  rw [← Option.or_none (o := List.findSome? _ _)]
  apply error?_bind (error?_mapM fun child _ => error?_decodePeripheral child)
  intro peripherals
  rfl

/-! ## Same own values -/

/-- The line of an element, and the tags and places from it out to the root. -/
def Location.position (location : Location) : Nat × List (String × Option Nat) :=
  (location.line, location.chain.map fun link => (link.tag, link.index))

/-- What an error tells besides the names that its location shows. -/
def DecodeError.report (e : DecodeError) : Shape × Cause × Nat × List (String × Option Nat) :=
  (e.shape, e.cause, e.location.position)

/-- True of visited elements at the same position with the same own values. -/
structure Visit.SameOwn (v w : Visit) : Prop where
  shape : v.shape = w.shape
  position : v.place.location.position = w.place.location.position
  contents : ∀ value ∈ v.shape.ownValues, ∀ tag ∈ value.tags,
    SameContent v.place.element w.place.element tag
  derivedFrom : v.place.element.attribute? "derivedFrom" = w.place.element.attribute? "derivedFrom"
  constraint : Option.Rel (fun x y => x.location.position = y.location.position ∧
      x.element = y.element) (v.place.child? "writeConstraint") (w.place.child? "writeConstraint")

namespace Visit.SameOwn

variable {v w : Visit}

theorem child?_eq (h : v.SameOwn w) :
    v.place.element.child? "writeConstraint" = w.place.element.child? "writeConstraint" := by
  have hconstraint := h.constraint
  rw [← Located.map_element_child?, ← Located.map_element_child?]
  generalize v.place.child? "writeConstraint" = x, w.place.child? "writeConstraint" = y
    at hconstraint ⊢
  cases hconstraint with
  | none => rfl
  | some h => exact congrArg some h.2

theorem cause?_eq (h : v.SameOwn w) {value : OwnValue} (hvalue : value ∈ v.shape.ownValues) :
    value.cause? v.place.element = value.cause? w.place.element :=
  OwnValue.cause?_congr (h.contents value hvalue) h.derivedFrom h.child?_eq

theorem malformed_iff (h : v.SameOwn w) {value : OwnValue} (hvalue : value ∈ v.shape.ownValues) :
    value.Malformed v.place.element ↔ value.Malformed w.place.element := by
  rw [OwnValue.Malformed, OwnValue.Malformed, h.cause?_eq hvalue, h.child?_eq]

theorem sound (h : v.SameOwn w) (hv : v.Sound) : w.Sound := by
  intro value hvalue
  rw [← h.shape] at hvalue
  rw [← h.malformed_iff hvalue]
  exact hv value hvalue

theorem attributed (h : v.SameOwn w) {value : OwnValue} (hvalue : value ∈ v.shape.ownValues)
    {e : DecodeError} (he : Attributed v value e) :
    ∃ e', Attributed w value e' ∧ e'.report = e.report := by
  cases he with
  | own hcause =>
      rw [h.cause?_eq hvalue] at hcause
      refine ⟨_, .own hcause, ?_⟩
      simp only [DecodeError.report, h.shape, h.position]
  | @constraint child hchild hunusable =>
      have hconstraint := h.constraint
      rw [hchild] at hconstraint
      cases hother : w.place.child? "writeConstraint" with
      | none =>
          rw [hother] at hconstraint
          cases hconstraint
      | some other =>
          rw [hother] at hconstraint
          cases hconstraint with
          | some hsame =>
              refine ⟨_, .constraint hother (hsame.2 ▸ hunusable), ?_⟩
              simp only [DecodeError.report, hsame.1]

theorem failsWith (h : v.SameOwn w) {e : DecodeError} (he : v.FailsWith e) :
    ∃ e', w.FailsWith e' ∧ e'.report = e.report := by
  rcases he with ⟨front, value, back, hvalues, hfront, he⟩
  have hmem : value ∈ v.shape.ownValues := by simp [hvalues]
  rcases h.attributed hmem he with ⟨e', he', hreport⟩
  refine ⟨e', ⟨front, value, back, h.shape ▸ hvalues, ?_, he'⟩, hreport⟩
  intro sound hsound
  have hmem : sound ∈ v.shape.ownValues := by simp [hvalues, hsound]
  rw [← h.malformed_iff hmem]
  exact hfront sound hsound

end Visit.SameOwn

/-! ## First faults -/

theorem decodeDevice_eq_error_iff {root : Element} (hroot : root.hasTag "device" = true)
    {e : DecodeError} : decodeDevice root = .error e ↔
      ∃ before v after, visits root = before ++ v :: after ∧ (∀ u ∈ before, u.Sound) ∧
        v.FailsWith e := by
  rw [← error?_eq_some_iff, error?_decodeDevice hroot, List.findSome?_eq_some_iff]
  simp only [Visit.fault?_eq_some_iff, Visit.fault?_eq_none_iff]
  constructor
  · rintro ⟨before, v, after, hvisits, hv, hbefore⟩
    exact ⟨before, v, after, hvisits, hbefore, hv⟩
  · rintro ⟨before, v, after, hvisits, hbefore, hv⟩
    exact ⟨before, v, after, hvisits, hv, hbefore⟩

/--
True of visits and an error that they decide: however a description goes on that
starts with visits like these, it fails alike.
-/
def Decisive (before : List Visit) (v : Visit) (e : DecodeError) : Prop :=
  ∀ root before' v' after', root.hasTag "device" = true →
    visits root = before' ++ v' :: after' → List.Forall₂ Visit.SameOwn before before' →
    v.SameOwn v' → ∃ e', decodeDevice root = .error e' ∧ e'.report = e.report

/--
True of a description and the error of its first visited element with a malformed
value, which no element behind that one has a part in.
-/
def FirstFault (root : Element) (e : DecodeError) : Prop :=
  ∃ before v after, visits root = before ++ v :: after ∧ (∀ u ∈ before, u.Sound) ∧
    v.FailsWith e ∧ Decisive before v e

theorem decisive_of_failsWith {before : List Visit} {v : Visit} {e : DecodeError}
    (hbefore : ∀ u ∈ before, u.Sound) (hv : v.FailsWith e) : Decisive before v e := by
  intro root before' v' after' hroot hvisits hsame hv'
  rcases hv'.failsWith hv with ⟨e', he', hreport⟩
  -- What comes after the visit with the fault is never asked for.
  refine ⟨e', (decodeDevice_eq_error_iff hroot).mpr ⟨before', v', after', hvisits, ?_, he'⟩,
    hreport⟩
  intro u' hu'
  rcases exists_mem_left hsame hu' with ⟨u, hu, huu'⟩
  exact huu'.sound (hbefore u hu)

def vagueRegister : Node :=
  groupNode "register" [textNode "name" "CTRL", textNode "addressOffset" "0",
    groupNode "writeConstraint" [textNode "writeAsRead" "perhaps"]]

def namelessTimer : Node :=
  groupNode "peripheral" [textNode "name" " ", textNode "baseAddress" "0x1000",
    groupNode "registers" [vagueRegister]]

def vagueDocument : Element :=
  deviceDocument "Chip" [namelessTimer, groupNode "peripheral" []]

/-- The error stands at the constraint, although the timer around it has no name. -/
def vagueError : DecodeError where
  location := ⟨1, [
    { tag := "writeConstraint", index := some 2 },
    { tag := "register", index := some 0, identity := some ⟨some "CTRL", none⟩ },
    { tag := "registers", index := some 2 },
    { tag := "peripheral", index := some 0, identity := some ⟨some " ", none⟩ },
    { tag := "peripherals", index := some 1 },
    { tag := "device", identity := some ⟨some "Chip", none⟩ }]⟩
  shape := .writeConstraint
  cause := .noConstraint

/-- The first register has a child that is named like the offset that it misses. -/
def passedDocument : Element :=
  deviceDocument "Chip"
    [groupNode "peripheral" [textNode "name" "TIMER", textNode "baseAddress" "0x1000",
      groupNode "registers" [
        groupNode "register" [textNode "name" "CTRL", textNode "offset" "4"],
        groupNode "register" [textNode "addressOffset" "8"]]]]

/-- The error of the second register. -/
def laterError : DecodeError where
  location := ⟨1, [
    { tag := "register", index := some 1, identity := some ⟨none, none⟩ },
    { tag := "registers", index := some 2 },
    { tag := "peripheral", index := some 0, identity := some ⟨some "TIMER", none⟩ },
    { tag := "peripherals", index := some 1 },
    { tag := "device", identity := some ⟨some "Chip", none⟩ }]⟩
  shape := .register
  cause := .absent .name

end RegisterMap.Description
