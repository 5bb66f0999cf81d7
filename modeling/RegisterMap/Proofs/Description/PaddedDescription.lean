import RegisterMap.Proofs.Description.Padding
import RegisterMap.Proofs.Description.Reading

/-!
# Padded descriptions

Space around the values of a description changes neither whether it can be decoded nor
the device, unless it stands around the truth value that a write constraint is read
as.  Then the description is decoded to another device or not at all.
-/

namespace RegisterMap.Description

open RegisterMap.Model RegisterMap.Report RegisterMap.Report.Outcome RegisterMap.Xml

/-! ## Readings that lose values -/

/--
True of two readings that agree if a condition holds.  The second one has a value only if
the first one has one, and it has the same one only if the condition holds.
-/
structure SameIf {α : Type} (p : Prop) (R S : α → Prop) : Prop where
  same (hp : p) (v : α) : R v ↔ S v
  readable (h : ∃ v, S v) : ∃ v, R v
  holds {v : α} (hr : R v) (hs : S v) : p

namespace SameIf

variable {α : Type} {p q : Prop} {R S : α → Prop}

theorem refl (hp : p) : SameIf p R R :=
  ⟨fun _ _ => Iff.rfl, id, fun _ _ => hp⟩

theorem congr (h : SameIf p R S) (hpq : q ↔ p) : SameIf q R S :=
  ⟨fun hq => h.same (hpq.mp hq), h.readable, fun hr hs => hpq.mpr (h.holds hr hs)⟩

/-- The readings are the same exactly if the condition holds or there is nothing to read. -/
theorem iff (h : SameIf p R S) : (∀ v, R v ↔ S v) ↔ ((∃ v, R v) → p) := by
  constructor
  · rintro hsame ⟨v, hv⟩
    exact h.holds hv ((hsame v).mp hv)
  · intro hp v
    constructor
    · intro hv
      exact (h.same (hp ⟨v, hv⟩) v).mp hv
    · intro hv
      exact (h.same (hp (h.readable ⟨v, hv⟩)) v).mpr hv

variable {P : Element → Element → Prop} {T : Element → α → Prop}

theorem option {Q : Element → Element → Prop} {x y : Option Element} (h : Option.Rel Q x y)
    (hQ : ∀ a b, Q a b → SameIf (P a b) (T a) (T b)) :
    SameIf (∀ a ∈ x, ∀ b ∈ y, P a b) (Option.Rel T x) (Option.Rel T y) := by
  cases h with
  | none => exact .refl (by simp)
  | @some a b hab =>
      replace hab := hQ a b hab
      refine ⟨?_, ?_, ?_⟩
      · intro hp v
        constructor
        · rintro ⟨hv⟩
          exact .some ((hab.same (hp a rfl b rfl) _).mp hv)
        · rintro ⟨hv⟩
          exact .some ((hab.same (hp a rfl b rfl) _).mpr hv)
      · rintro ⟨_, ⟨hv⟩⟩
        rcases hab.readable ⟨_, hv⟩ with ⟨v, hv⟩
        exact ⟨some v, .some hv⟩
      · rintro _ ⟨hr⟩ ⟨hs⟩ _ ⟨⟩ _ ⟨⟩
        exact hab.holds hr hs

theorem list {xs ys : List Element}
    (h : List.Forall₂ (fun a b => SameIf (P a b) (T a) (T b)) xs ys) :
    SameIf (∀ x ∈ xs.zip ys, P x.1 x.2) (List.Forall₂ T xs) (List.Forall₂ T ys) := by
  induction h with
  | nil => exact .refl (by simp)
  | @cons a b xs ys hab _ ih =>
      refine ⟨?_, ?_, ?_⟩
      · intro hp vs
        rw [List.zip_cons_cons, List.forall_mem_cons] at hp
        rw [List.forall₂_cons_left_iff, List.forall₂_cons_left_iff]
        simp only [hab.same hp.1, ih.same hp.2]
      · rintro ⟨_, _ | ⟨hv, hvs⟩⟩
        rcases hab.readable ⟨_, hv⟩ with ⟨v, hv⟩
        rcases ih.readable ⟨_, hvs⟩ with ⟨vs, hvs⟩
        exact ⟨v :: vs, .cons hv hvs⟩
      · rintro _ (_ | ⟨hr, hrs⟩) (_ | ⟨hs, hss⟩)
        rw [List.zip_cons_cons, List.forall_mem_cons]
        exact ⟨hab.holds hr hs, ih.holds hrs hss⟩

end SameIf

/-! ## Constraints -/

/-- True of constraints with the same text in the truth value that the first one is read as. -/
def KeepsTruth (a b : Element) : Prop :=
  ∀ kind : ConstraintKind, kind ≠ .range → kind.Chosen a → SameText a b kind.tag

theorem KeepsTruth.refl (e : Element) : KeepsTruth e e :=
  fun kind _ _ => .refl e kind.tag

namespace Padded

variable {a b : Element}

/-- Space around its parts does not make a kind of constraint usable. -/
theorem usable (h : Padded a b) {kind : ConstraintKind} (hb : kind.Usable b) : kind.Usable a := by
  cases kind with
  | writeAsRead | useEnumeratedValues =>
      rcases hb with ⟨value, hvalue⟩
      exact ⟨value, (h.givesTruth_iff (h.sameText_of_givesTruth hvalue)).mpr hvalue⟩
  | range =>
      have hchild := h.child? "range"
      simp only [ConstraintKind.Usable] at hb ⊢
      generalize a.child? "range" = x, b.child? "range" = y at hchild hb
      cases hchild with
      | none => exact hb
      | some _ => rfl

/-- The ranges of two constraints are there together. -/
theorem exists_range (h : Padded a b) (ha : ConstraintKind.range.Usable a) :
    ∃ x y, a.child? "range" = some x ∧ b.child? "range" = some y ∧ Padded x y := by
  rcases Option.isSome_iff_exists.mp ha with ⟨x, hx⟩
  have hchild := h.child? "range"
  rw [hx] at hchild
  generalize b.child? "range" = y at hchild
  cases hchild with
  | some hxy => exact ⟨x, _, hx, rfl, hxy⟩

theorem chosen (h : Padded a b) (hkeeps : KeepsTruth a b) {kind : ConstraintKind}
    (ha : kind.Chosen a) : kind.Chosen b := by
  refine ⟨?_, fun other hother hb => ha.2 other hother (h.usable hb)⟩
  cases kind with
  | writeAsRead =>
      rcases ha.1 with ⟨value, hvalue⟩
      exact ⟨value, (h.givesTruth_iff (hkeeps .writeAsRead nofun ha)).mp hvalue⟩
  | useEnumeratedValues =>
      rcases ha.1 with ⟨value, hvalue⟩
      exact ⟨value, (h.givesTruth_iff (hkeeps .useEnumeratedValues nofun ha)).mp hvalue⟩
  | range =>
      rcases h.exists_range ha.1 with ⟨x, y, -, hy, -⟩
      exact Option.isSome_iff_exists.mpr ⟨y, hy⟩

theorem constraintIn? (h : Padded a b) (hkeeps : KeepsTruth a b) :
    SameValue (constraintIn? a) (constraintIn? b) := by
  rcases ConstraintKind.chosen_or_unusable a with ⟨kind, ha⟩ | hnone
  · have hb := h.chosen hkeeps ha
    cases kind with
    | writeAsRead =>
        rcases ha.1 with ⟨value, hvalue⟩
        have hvalue' := (h.givesTruth_iff (hkeeps .writeAsRead nofun ha)).mp hvalue
        rw [constraintIn?_of_writeAsRead hvalue, constraintIn?_of_writeAsRead hvalue']
        exact .rfl
    | useEnumeratedValues =>
        rcases ha.1 with ⟨value, hvalue⟩
        have hvalue' := (h.givesTruth_iff (hkeeps .useEnumeratedValues nofun ha)).mp hvalue
        rw [constraintIn?_of_useEnumeratedValues ha hvalue,
          constraintIn?_of_useEnumeratedValues hb hvalue']
        exact .rfl
    | range =>
        rcases h.exists_range ha.1 with ⟨x, y, hx, hy, hxy⟩
        rw [constraintIn?_of_range ha hx, constraintIn?_of_range hb hy]
        exact hxy.boundOf.bind fun _ => hxy.boundOf.bind fun _ => .rfl
  · have hnone' : ∀ kind : ConstraintKind, ¬kind.Usable b := fun kind hb => hnone kind (h.usable hb)
    rw [constraintIn?_eq_ok_none_iff.mpr (unusable_iff.mpr hnone),
      constraintIn?_eq_ok_none_iff.mpr (unusable_iff.mpr hnone')]
    exact .rfl

theorem constraint (h : Padded a b) :
    SameIf (KeepsTruth a b) (ReadsConstraint a) (ReadsConstraint b) where
  same hkeeps _ := (h.constraintIn? hkeeps).ok_iff
  readable := by
    rintro ⟨constraint, hb⟩
    by_cases hkeeps : KeepsTruth a b
    · exact ⟨constraint, (h.constraintIn? hkeeps).ok_iff.mpr hb⟩
    -- A truth value is lost, but without the space it was read.
    · simp only [KeepsTruth, not_forall] at hkeeps
      rcases hkeeps with ⟨kind, hkind, ha, -⟩
      cases kind with
      | writeAsRead =>
          rcases ha.1 with ⟨value, hvalue⟩
          exact ⟨_, constraintIn?_of_writeAsRead hvalue⟩
      | useEnumeratedValues =>
          rcases ha.1 with ⟨value, hvalue⟩
          exact ⟨_, constraintIn?_of_useEnumeratedValues ha hvalue⟩
      | range => exact absurd rfl hkind
  holds {constraint} hr hs kind hkind ha := by
    unfold ReadsConstraint at hr
    cases kind with
    | writeAsRead =>
        rcases ha.1 with ⟨value, hvalue⟩
        cases hr.symm.trans (constraintIn?_of_writeAsRead hvalue)
        cases readsConstraint_iff.mp hs with
        | writeAsRead _ hb => exact h.sameText_of_givesTruth hb
    | useEnumeratedValues =>
        rcases ha.1 with ⟨value, hvalue⟩
        cases hr.symm.trans (constraintIn?_of_useEnumeratedValues ha hvalue)
        cases readsConstraint_iff.mp hs with
        | useEnumeratedValues _ hb => exact h.sameText_of_givesTruth hb
    | range => exact absurd rfl hkind

end Padded

/-! ## Containers -/

/--
True of two containers with the same texts in the truth values that all write constraints
in the first one are read as.  Of the containers in them those that decoding reads count.
-/
inductive TruthsKept : Container → Element → Element → Prop
  | constraint {a b : Element} (h : KeepsTruth a b) : TruthsKept .writeConstraint a b
  | parts {k : Container} {a b : Element} (hk : k ≠ .writeConstraint)
      (single : ∀ part ∈ k.single, ∀ x ∈ a.child? part.tag, ∀ y ∈ b.child? part.tag,
        TruthsKept part x y)
      (repeated : ∀ part ∈ k.repeated, ∀ pair ∈ (tagged a part.tag).zip (tagged b part.tag),
        TruthsKept part pair.1 pair.2) : TruthsKept k a b

/-- True of elements whose first children of a kind keep the truth values. -/
def KeptInFirst (part : Container) (a b : Element) : Prop :=
  ∀ x ∈ a.child? part.tag, ∀ y ∈ b.child? part.tag, TruthsKept part x y

/-- True of elements all of whose children of a kind keep the truth values. -/
def KeptInAll (part : Container) (a b : Element) : Prop :=
  ∀ pair ∈ (tagged a part.tag).zip (tagged b part.tag), TruthsKept part pair.1 pair.2

namespace TruthsKept

variable {a b : Element}

theorem constraint_iff : TruthsKept .writeConstraint a b ↔ KeepsTruth a b := by
  constructor
  · intro h
    cases h with
    | constraint h => exact h
    | parts hk _ _ => exact absurd rfl hk
  · exact .constraint

theorem parts_iff {k : Container} (hk : k ≠ .writeConstraint) : TruthsKept k a b ↔
    (∀ part ∈ k.single, KeptInFirst part a b) ∧ ∀ part ∈ k.repeated, KeptInAll part a b := by
  constructor
  · intro h
    cases h with
    | constraint h => exact absurd rfl hk
    | parts _ single repeated => exact ⟨single, repeated⟩
  · rintro ⟨single, repeated⟩
    exact .parts hk single repeated

theorem device_iff : TruthsKept .device a b ↔ KeptInFirst .peripherals a b := by
  simp [parts_iff, Container.single, Container.repeated]

theorem peripherals_iff : TruthsKept .peripherals a b ↔ KeptInAll .peripheral a b := by
  simp [parts_iff, Container.single, Container.repeated]

theorem peripheral_iff : TruthsKept .peripheral a b ↔ KeptInFirst .registers a b := by
  simp [parts_iff, Container.single, Container.repeated]

theorem registers_iff :
    TruthsKept .registers a b ↔ KeptInAll .register a b ∧ KeptInAll .cluster a b := by
  simp [parts_iff, Container.single, Container.repeated]

theorem cluster_iff :
    TruthsKept .cluster a b ↔ KeptInAll .register a b ∧ KeptInAll .cluster a b := by
  simp [parts_iff, Container.single, Container.repeated]

theorem register_iff :
    TruthsKept .register a b ↔ KeptInFirst .writeConstraint a b ∧ KeptInFirst .fields a b := by
  simp [parts_iff, Container.single, Container.repeated]

theorem fields_iff : TruthsKept .fields a b ↔ KeptInAll .field a b := by
  simp [parts_iff, Container.single, Container.repeated]

theorem field_iff : TruthsKept .field a b ↔ KeptInFirst .writeConstraint a b := by
  simp [parts_iff, Container.single, Container.repeated]

end TruthsKept

/-! ## Descriptions -/

namespace Padded

variable {a b : Element}

theorem writeConstraint (h : Padded a b) : SameIf (KeptInFirst .writeConstraint a b)
    (Option.Rel ReadsConstraint (a.child? "writeConstraint"))
    (Option.Rel ReadsConstraint (b.child? "writeConstraint")) :=
  SameIf.option (h.child? "writeConstraint") fun _ _ hxy =>
    hxy.constraint.congr TruthsKept.constraint_iff

theorem field (h : Padded a b) : SameIf (TruthsKept .field a b) (ReadsField a) (ReadsField b) := by
  refine SameIf.congr ⟨?_, ?_, ?_⟩ TruthsKept.field_iff
  · intro hkept f
    simp only [readsField_iff, h.nameOf_eq, h.descriptionOf_eq, h.bitsOf.ok_iff,
      h.accessOf.ok_iff, h.dimensionOf.ok_iff, h.writeConstraint.same hkept]
  · rintro ⟨f, hf⟩
    rcases h.writeConstraint.readable ⟨_, hf.writeConstraint⟩ with ⟨constraint, hconstraint⟩
    exact ⟨{ f with writeConstraint := constraint }, {
      name := h.nameOf_eq.trans hf.name
      description := h.descriptionOf_eq.trans hf.description
      bits := h.bitsOf.ok_iff.mpr hf.bits
      access := h.accessOf.ok_iff.mpr hf.access
      dimension := h.dimensionOf.ok_iff.mpr hf.dimension
      writeConstraint := hconstraint }⟩
  · intro f hr hs
    exact h.writeConstraint.holds hr.writeConstraint hs.writeConstraint

theorem fields (h : Padded a b) :
    SameIf (TruthsKept .fields a b) (ReadsFields a) (ReadsFields b) :=
  SameIf.congr (SameIf.list ((h.forall₂_tagged "field").imp fun _ _ hxy => hxy.field))
    TruthsKept.fields_iff

theorem register (h : Padded a b) :
    SameIf (TruthsKept .register a b) (ReadsRegister a) (ReadsRegister b) := by
  have hfields : SameIf (KeptInFirst .fields a b) (Option.Rel ReadsFields (a.child? "fields"))
      (Option.Rel ReadsFields (b.child? "fields")) :=
    SameIf.option (h.child? "fields") fun _ _ hxy => hxy.fields
  refine SameIf.congr ⟨?_, ?_, ?_⟩ TruthsKept.register_iff
  · intro hkept r
    simp only [readsRegister_iff, h.nameOf_eq, h.descriptionOf_eq, h.integer.ok_iff,
      h.dimensionOf.ok_iff, h.propertiesOf.ok_iff, h.writeConstraint.same hkept.1,
      hfields.same hkept.2]
  · rintro ⟨r, hr⟩
    rcases h.writeConstraint.readable ⟨_, hr.writeConstraint⟩ with ⟨constraint, hconstraint⟩
    rcases hfields.readable ⟨_, hr.fields⟩ with ⟨fields, hfields⟩
    exact ⟨{ r with writeConstraint := constraint, fields := fields }, {
      name := h.nameOf_eq.trans hr.name
      description := h.descriptionOf_eq.trans hr.description
      addressOffset := h.integer.ok_iff.mpr hr.addressOffset
      dimension := h.dimensionOf.ok_iff.mpr hr.dimension
      properties := h.propertiesOf.ok_iff.mpr hr.properties
      writeConstraint := hconstraint
      fields := hfields }⟩
  · intro r hr hs
    exact ⟨h.writeConstraint.holds hr.writeConstraint hs.writeConstraint,
      hfields.holds hr.fields hs.fields⟩

theorem registers (h : Padded a b) : SameIf (KeptInAll .register a b)
    (List.Forall₂ ReadsRegister (tagged a "register"))
    (List.Forall₂ ReadsRegister (tagged b "register")) :=
  SameIf.list ((h.forall₂_tagged "register").imp fun _ _ hxy => hxy.register)

theorem clusterHead_iff (h : Padded a b) {c : Cluster} :
    ReadsClusterHead a c ↔ ReadsClusterHead b c := by
  simp only [readsClusterHead_iff, h.nameOf_eq, h.descriptionOf_eq, h.integer.ok_iff,
    h.derivedFromOf.ok_iff, h.dimensionOf.ok_iff, h.propertiesOf.ok_iff]

theorem cluster {a b : Element} (h : Padded a b) :
    SameIf (TruthsKept .cluster a b) (ReadsCluster a) (ReadsCluster b) := by
  have hclusters : SameIf (KeptInAll .cluster a b)
      (List.Forall₂ ReadsCluster (tagged a "cluster"))
      (List.Forall₂ ReadsCluster (tagged b "cluster")) := by
    apply SameIf.list
    apply forall₂_imp_of_mem (h.forall₂_tagged "cluster")
    -- The induction is on the first element: each cluster in it is one of its children.
    intro x hx y _ hxy
    have hlt := sizeOf_lt_of_mem_tagged hx
    exact hxy.cluster
  refine SameIf.congr ⟨?_, ?_, ?_⟩ TruthsKept.cluster_iff
  · intro hkept c
    constructor
    · intro hc
      exact .intro (h.clusterHead_iff.mp hc.head) ((h.registers.same hkept.1 _).mp hc.registers)
        ((hclusters.same hkept.2 _).mp hc.clusters)
    · intro hc
      exact .intro (h.clusterHead_iff.mpr hc.head)
        ((h.registers.same hkept.1 _).mpr hc.registers)
        ((hclusters.same hkept.2 _).mpr hc.clusters)
  · rintro ⟨c, hc⟩
    rcases h.registers.readable ⟨_, hc.registers⟩ with ⟨registers, hr⟩
    rcases hclusters.readable ⟨_, hc.clusters⟩ with ⟨clusters, hs⟩
    have hregisters := eq_nonempty?_iff.mp (Eq.refl (nonempty? registers))
    have hclusters := eq_nonempty?_iff.mp (Eq.refl (nonempty? clusters))
    rw [hregisters.1] at hr
    rw [hclusters.1] at hs
    have hhead := h.clusterHead_iff.mpr hc.head
    exact ⟨{ c with registers := nonempty? registers, clusters := nonempty? clusters },
      .intro { hhead with registers_ne := hregisters.2, clusters_ne := hclusters.2 } hr hs⟩
  · intro c hr hs
    exact ⟨h.registers.holds hr.registers hs.registers, hclusters.holds hr.clusters hs.clusters⟩
termination_by sizeOf a

theorem clusters (h : Padded a b) : SameIf (KeptInAll .cluster a b)
    (List.Forall₂ ReadsCluster (tagged a "cluster"))
    (List.Forall₂ ReadsCluster (tagged b "cluster")) :=
  SameIf.list ((h.forall₂_tagged "cluster").imp fun _ _ hxy => hxy.cluster)

/-- A peripheral without a body has none with space around it. -/
theorem body (h : Padded a b) : SameIf (KeptInFirst .registers a b)
    (fun members : Option (List Register) × Option (List Cluster) =>
      ReadsBody (a.child? "registers") members.1 members.2)
    (fun members => ReadsBody (b.child? "registers") members.1 members.2) := by
  have hchild := h.child? "registers"
  unfold KeptInFirst
  simp only [Container.tag]
  generalize a.child? "registers" = x, b.child? "registers" = y at hchild
  cases hchild with
  | none => exact .refl (by simp)
  | @some x y hxy =>
      refine ⟨?_, ?_, ?_⟩
      · intro hkept
        rcases TruthsKept.registers_iff.mp (hkept x rfl y rfl) with ⟨hregisters, hclusters⟩
        rintro ⟨registers, clusters⟩
        constructor
        · rintro (_ | ⟨hr, hs⟩)
          exact .present ((hxy.registers.same hregisters _).mp hr)
            ((hxy.clusters.same hclusters _).mp hs)
        · rintro (_ | ⟨hr, hs⟩)
          exact .present ((hxy.registers.same hregisters _).mpr hr)
            ((hxy.clusters.same hclusters _).mpr hs)
      · rintro ⟨⟨_, _⟩, _ | ⟨hr, hs⟩⟩
        rcases hxy.registers.readable ⟨_, hr⟩ with ⟨registers, hr⟩
        rcases hxy.clusters.readable ⟨_, hs⟩ with ⟨clusters, hs⟩
        exact ⟨(some registers, some clusters), .present hr hs⟩
      · rintro ⟨_, _⟩ (_ | ⟨hr, hs⟩) (_ | ⟨hr', hs'⟩) _ ⟨⟩ _ ⟨⟩
        exact TruthsKept.registers_iff.mpr
          ⟨hxy.registers.holds hr hr', hxy.clusters.holds hs hs'⟩

theorem peripheralHead_iff (h : Padded a b) {p : Peripheral} :
    ReadsPeripheralHead a p ↔ ReadsPeripheralHead b p := by
  simp only [readsPeripheralHead_iff, h.nameOf_eq, h.descriptionOf_eq, h.integer.ok_iff,
    h.derivedFromOf.ok_iff, h.dimensionOf.ok_iff, h.propertiesOf.ok_iff]

theorem peripheral (h : Padded a b) :
    SameIf (TruthsKept .peripheral a b) (ReadsPeripheral a) (ReadsPeripheral b) := by
  refine SameIf.congr ⟨?_, ?_, ?_⟩ TruthsKept.peripheral_iff
  · intro hkept p
    have hbody := h.body.same hkept (p.registers, p.clusters)
    constructor
    · intro hp
      exact ⟨h.peripheralHead_iff.mp hp.toReadsPeripheralHead, hbody.mp hp.body⟩
    · intro hp
      exact ⟨h.peripheralHead_iff.mpr hp.toReadsPeripheralHead, hbody.mpr hp.body⟩
  · rintro ⟨p, hp⟩
    rcases h.body.readable ⟨(p.registers, p.clusters), hp.body⟩ with ⟨members, hbody⟩
    have hhead := h.peripheralHead_iff.mpr hp.toReadsPeripheralHead
    exact ⟨{ p with registers := members.1, clusters := members.2 }, { hhead with body := hbody }⟩
  · intro p hr hs
    exact h.body.holds (v := (p.registers, p.clusters)) hr.body hs.body

theorem peripherals (h : Padded a b) : SameIf (KeptInFirst .peripherals a b)
    (List.Forall₂ ReadsPeripheral (contained a "peripherals" "peripheral"))
    (List.Forall₂ ReadsPeripheral (contained b "peripherals" "peripheral")) := by
  have hchild := h.child? "peripherals"
  unfold KeptInFirst contained
  simp only [Container.tag]
  generalize a.child? "peripherals" = x, b.child? "peripherals" = y at hchild
  cases hchild with
  | none => exact .refl (by simp)
  | @some x y hxy =>
      apply SameIf.congr
        (SameIf.list ((hxy.forall₂_tagged "peripheral").imp fun _ _ hpq => hpq.peripheral))
      simp only [Option.mem_some_iff, forall_eq', TruthsKept.peripherals_iff]
      rfl

theorem device (h : Padded a b) :
    SameIf (TruthsKept .device a b) (ReadsDevice a) (ReadsDevice b) := by
  refine SameIf.congr ⟨?_, ?_, ?_⟩ TruthsKept.device_iff
  · intro hkept d
    simp only [readsDevice_iff, h.hasTag_eq, h.nameOf_eq, h.descriptionOf_eq,
      h.propertiesOf.ok_iff, h.peripherals.same hkept]
  · rintro ⟨d, hd⟩
    rcases h.peripherals.readable ⟨_, hd.peripherals⟩ with ⟨peripherals, hperipherals⟩
    exact ⟨{ d with peripherals := peripherals }, {
      tag := (h.hasTag_eq "device").trans hd.tag
      name := h.nameOf_eq.trans hd.name
      description := h.descriptionOf_eq.trans hd.description
      properties := h.propertiesOf.ok_iff.mpr hd.properties
      peripherals := hperipherals }⟩
  · intro d hr hs
    exact h.peripherals.holds hr.peripherals hs.peripherals

end Padded

/--
Space around its values leaves what a description is decoded to as it is exactly if it
cannot be decoded anyway, or none of the space stands around the truth value that a write
constraint is read as.  It never makes a description one that can be decoded.
-/
theorem decodeDevice_padded_iff {a b : Element} (h : Padded a b) :
    ((∀ device, decodeDevice a = .ok device ↔ decodeDevice b = .ok device) ↔
      ((∃ device, decodeDevice a = .ok device) → TruthsKept .device a b)) ∧
    ((∃ device, decodeDevice b = .ok device) → ∃ device, decodeDevice a = .ok device) := by
  simp only [decodeDevice_eq_ok_iff]
  exact ⟨h.device.iff, h.device.readable⟩

/-! ### A mode that is written as it is read -/

/-- A constraint with a truth value for each of the two kinds. -/
def modeTruths (value : String) : Element :=
  .mk ⟨none, "writeConstraint"⟩ [] 1
    [textNode "writeAsRead" value, textNode "useEnumeratedValues" "false"]

def modePort (base : String) (constraint : Element) : Element :=
  .mk ⟨none, "peripheral"⟩ [⟨⟨none, "derivedFrom"⟩, base⟩] 1
    [textNode "name" "PORT", textNode "baseAddress" "0",
      groupNode "registers" [groupNode "register"
        [textNode "name" "MODE", textNode "addressOffset" "4", .element constraint]]]

def modeDocument (base value : String) : Element :=
  deviceDocument "Chip" [.element (modePort base (modeTruths value))]

def modeDevice (constraint : WriteConstraint) : Device where
  name := "Chip"
  peripherals := [{
    name := "PORT"
    derivedFrom := some "BASE"
    registers := some [{ name := "MODE", addressOffset := 4, writeConstraint := some constraint }]
    clusters := some [] }]

theorem padded_deviceDocument {name : String} {x y : Element} (h : Padded x y) :
    Padded (deviceDocument name [.element x]) (deviceDocument name [.element y]) := by
  refine @Padded.of_child _ _ _ [_] [] _ _ ?_
  exact @Padded.of_child _ _ _ [] [] _ _ h

/-- Space around the base of an alias is not read. -/
theorem decodeDevice_padded_iff_base :
    Padded (modeDocument "BASE" "1") (modeDocument "\n\tBASE " "1") ∧
      TruthsKept .device (modeDocument "BASE" "1") (modeDocument "\n\tBASE " "1") ∧
      decodeDevice (modeDocument "BASE" "1") = .ok (modeDevice (.writeAsRead true)) ∧
      decodeDevice (modeDocument "\n\tBASE " "1") = .ok (modeDevice (.writeAsRead true)) := by
  have hpads : Pads "BASE" "\n\tBASE " :=
    ⟨['\n', '\t'], [' '], List.all_eq_true.mp rfl, List.all_eq_true.mp rfl, rfl⟩
  have hport : Padded (modePort "BASE" (modeTruths "1")) (modePort "\n\tBASE " (modeTruths "1")) :=
    @Padded.of_attribute _ _ _ [] [] _ _ ⟨rfl, hpads⟩
  have hpadded : Padded (modeDocument "BASE" "1") (modeDocument "\n\tBASE " "1") :=
    padded_deviceDocument hport
  have hkept : TruthsKept .device (modeDocument "BASE" "1") (modeDocument "\n\tBASE " "1") := by
    -- One register is read, and its constraint is the same in both.
    refine TruthsKept.device_iff.mpr ?_
    rintro _ ⟨⟩ _ ⟨⟩
    refine TruthsKept.peripherals_iff.mpr (List.forall_mem_singleton.mpr ?_)
    refine TruthsKept.peripheral_iff.mpr ?_
    rintro _ ⟨⟩ _ ⟨⟩
    refine TruthsKept.registers_iff.mpr ⟨List.forall_mem_singleton.mpr ?_, nofun⟩
    refine TruthsKept.register_iff.mpr ⟨?_, nofun⟩
    rintro _ ⟨⟩ _ ⟨⟩
    exact .constraint (.refl _)
  have hplain : decodeDevice (modeDocument "BASE" "1") = .ok (modeDevice (.writeAsRead true)) := rfl
  have hsame := (decodeDevice_padded_iff hpadded).1.mpr fun _ => hkept
  exact ⟨hpadded, hkept, hplain, (hsame _).mp hplain⟩

/-- Space around a truth value makes another kind of constraint of it, without an error. -/
theorem decodeDevice_padded_truth :
    Padded (modeDocument "BASE" "true") (modeDocument "BASE" " true") ∧
      decodeDevice (modeDocument "BASE" "true") = .ok (modeDevice (.writeAsRead true)) ∧
      decodeDevice (modeDocument "BASE" " true") =
        .ok (modeDevice (.useEnumeratedValues false)) := by
  have hpads : Pads "true" " true" :=
    ⟨[' '], [], List.all_eq_true.mp rfl, List.forall_mem_nil _, rfl⟩
  have htruths : Padded (modeTruths "true") (modeTruths " true") :=
    @Padded.of_child _ _ _ [] _ _ _ (.of_text hpads nofun)
  have hregister : Padded (modePort "BASE" (modeTruths "true"))
      (modePort "BASE" (modeTruths " true")) := by
    refine @Padded.of_child _ _ _ [_, _] [] _ _ ?_
    refine @Padded.of_child _ _ _ [] [] _ _ ?_
    exact @Padded.of_child _ _ _ [_, _] [] _ _ htruths
  exact ⟨padded_deviceDocument hregister, rfl, rfl⟩

end RegisterMap.Description
