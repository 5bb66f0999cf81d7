import RegisterMap.Export.Run
import RegisterMap.Proofs.Model.Expansion
import RegisterMap.Proofs.Report.Settled

/-!
# Declared instances and members

What instances and members look like when they can be declared at all, and what
has then been checked about their addresses: each replica of a peripheral or
cluster, and the last element of a register array, counted from where the element
itself counts from.
-/

namespace RegisterMap.Export

open RegisterMap.Model RegisterMap.Number RegisterMap.Report RegisterMap.Swift

/-- The only errors that declarations can end in. -/
def IsOverflow (e : ExportError) : Prop :=
  ∃ overflow, e = .overflow overflow

theorem ofAccessors_settled {result : Except AddressOverflow (List String)} {P : Prop}
    {texts : List String} (h : ∀ declared, result = .ok declared ↔ P ∧ declared = texts) :
    Trace.Settled IsOverflow (ofAccessors result) P texts [] :=
  Trace.Settled.ofExcept (fun overflow => ⟨overflow, rfl⟩) h

/-! ## Replicas that fit -/

/-- True of replicas that fit in 64 bits, both alone and behind an offset. -/
def ReplicasFit (offset : Int) (x : Expansion) : Prop :=
  ∀ r ∈ x.replicas, isWord r.offset = true ∧ isWord (offset + r.offset) = true

def instanceLine (subject : Subject) (baseAddress : Int) (r : Replica) : String :=
  subject.modifiers ++ "let " ++ subject.propertyName r ++ " = " ++
    identifier subject.typeName ++ "(unsafeAddress: " ++ hexLiteral (baseAddress + r.offset) ++ ")"

def clusterLines (subject : Subject) (addressOffset : Int) (r : Replica) : List String :=
  ["@RegisterBlock(offset: " ++ hexLiteral (addressOffset + r.offset) ++ ")",
    subject.modifiers ++ "var " ++ subject.propertyName r ++ ": " ++ identifier subject.typeName]

private theorem mapReplicas_checked {offset : Int} {x : Expansion} {texts : List String}
    (text : Int → Replica → String) :
    (x.mapReplicas fun r => do
      let total ← checkedSum [offset, r.offset]
      return text total r) = .ok texts ↔
      ReplicasFit offset x ∧ texts = x.replicas.map fun r => text (offset + r.offset) r := by
  rw [Expansion.mapReplicas_checkedSum_eq_ok_iff]
  simp only [List.foldr_cons, List.foldr_nil, Int.add_zero, ReplicasFit]

theorem peripheralAccessors_eq_ok_iff {subject : Subject} {baseAddress : Int} {x : Expansion}
    {texts : List String} :
    subject.peripheralAccessors baseAddress x = .ok texts ↔
      ReplicasFit baseAddress x ∧ texts = x.replicas.map fun r =>
        subject.documented [instanceLine subject baseAddress r] :=
  mapReplicas_checked fun total r => subject.documented
    [subject.modifiers ++ "let " ++ subject.propertyName r ++ " = " ++
      identifier subject.typeName ++ "(unsafeAddress: " ++ hexLiteral total ++ ")"]

theorem clusterAccessors_eq_ok_iff {subject : Subject} {addressOffset : Int} {x : Expansion}
    {texts : List String} :
    subject.clusterAccessors addressOffset x = .ok texts ↔
      ReplicasFit addressOffset x ∧ texts = x.replicas.map fun r =>
        subject.documented (clusterLines subject addressOffset r) :=
  mapReplicas_checked fun total r => subject.documented
    ["@RegisterBlock(offset: " ++ hexLiteral total ++ ")",
      subject.modifiers ++ "var " ++ subject.propertyName r ++ ": " ++
        identifier subject.typeName]

/-- True of a register whose array, if it is one, has a last element with an address. -/
def ArrayFits (addressOffset : Int) (x : Expansion) : Prop :=
  ∀ count, x.count = some count → count ≠ 0 →
    isWord (addressOffset + (count - 1) * x.stride) = true

/-- The lines that declare a register, or the array that stands for its replicas. -/
def registerLines (subject : Subject) (addressOffset : Int) (x : Expansion) : List String :=
  let property := subject.modifiers ++ "var " ++
    identifier (instanceName subject.typeName) ++ ": "
  match x.count with
  | none =>
      ["@RegisterBlock(offset: " ++ hexLiteral addressOffset ++ ")",
        property ++ "Register<" ++ identifier subject.typeName ++ ">"]
  | some count =>
      ["@RegisterBlock(offset: " ++ hexLiteral addressOffset ++ ", stride: " ++
          hexLiteral x.stride ++ ", count: " ++ toString count ++ ")",
        property ++ "RegisterArray<" ++ identifier subject.typeName ++ ">"]

def registerTexts (subject : Subject) (addressOffset : Int) (x : Expansion) : List String :=
  if x.count = some 0 then [] else [subject.documented (registerLines subject addressOffset x)]

theorem registerAccessors_eq_ok_iff {subject : Subject} {addressOffset : Int} {x : Expansion}
    {texts : List String} :
    subject.registerAccessors addressOffset x = .ok texts ↔
      ArrayFits addressOffset x ∧ texts = registerTexts subject addressOffset x := by
  rcases x with ⟨count?, stride⟩
  unfold Subject.registerAccessors registerTexts registerLines
  cases count? with
  | none => simp [ArrayFits, eq_comm (a := texts)]
  | some count =>
      by_cases hzero : count = 0
      · have hfits : ArrayFits addressOffset ⟨some count, stride⟩ := by simp [ArrayFits, hzero]
        simp only [hzero, if_true, Except.ok.injEq, hzero ▸ hfits, true_and]
        exact eq_comm
      · have hfits : ArrayFits addressOffset ⟨some count, stride⟩ ↔
            isWord ([addressOffset, (count - 1) * stride].foldr (· + ·) 0) = true := by
          simp [ArrayFits, hzero]
        simp only [hzero, if_false, Option.some.injEq]
        rw [bind_checkedSum_eq_ok_iff, hfits]
        exact and_congr_right fun _ => eq_comm

/-! ## Left out or not -/

def HasReplica (x : Expansion) : Prop :=
  x.replicas ≠ []

theorem hasReplica_iff {x : Expansion} :
    HasReplica x ↔ ∀ count, x.count = some count → 0 < count := by
  rcases x with ⟨count?, stride⟩
  cases count? with
  | none => simp [HasReplica, Expansion.replicas]
  | some count => simp [HasReplica, Expansion.replicas]

theorem exists_hasReplica_iff (x? : Option Expansion) :
    (match x? with
      | none => false
      | some x =>
          match x.count with
          | none => true
          | some count => decide (0 < count)) = true ↔ ∃ x, x? = some x ∧ HasReplica x := by
  cases x? with
  | none => simp
  | some x =>
      rcases x with ⟨count?, stride⟩
      cases count? <;> simp [hasReplica_iff]

theorem isExportedCluster_iff {c : Cluster} {inherited : RegisterProperties} :
    isExportedCluster c inherited = true ↔
      ∃ x, clusterExpansion? c (c.properties.inheriting inherited) = some x ∧ HasReplica x := by
  unfold isExportedCluster
  exact exists_hasReplica_iff _

theorem isExportedRegister_iff {r : Register} {inherited : RegisterProperties} :
    isExportedRegister r inherited = true ↔
      ∃ size x, (r.properties.inheriting inherited).size = some size ∧
        registerExpansion? r (r.properties.inheriting inherited) = some x ∧
        x.count ≠ some 0 := by
  unfold isExportedRegister
  cases hsize : (r.properties.inheriting inherited).size with
  | none => simp [hsize]
  | some size =>
      cases hx : registerExpansion? r (r.properties.inheriting inherited) <;> simp [hsize, hx]

def MemberFits (inherited : RegisterProperties) : Member → Prop
  | .register r => ∀ x,
      registerExpansion? r (r.properties.inheriting inherited) = some x →
      ArrayFits r.addressOffset x
  | .cluster c => ∀ x,
      clusterExpansion? c (c.properties.inheriting inherited) = some x →
      ReplicasFit c.addressOffset x

def memberSubject (options : Options) : Member → Subject
  | .register r => ⟨r.description, swiftName r.name, options.modifiers⟩
  | .cluster c => ⟨c.description, swiftName c.name, options.modifiers⟩

/-- What a block declares for a member with some replicas: one array or one text for each. -/
def replicaTexts (options : Options) (m : Member) (x : Expansion) : List String :=
  match m with
  | .register r => registerTexts (memberSubject options m) r.addressOffset x
  | .cluster c => x.replicas.map fun replica =>
      (memberSubject options m).documented
        (clusterLines (memberSubject options m) c.addressOffset replica)

/-- The replicas of a member of a block, if what has to be known about it is known. -/
def memberExpansion? (inherited : RegisterProperties) : Member → Option Expansion
  | .register r =>
      let effective := r.properties.inheriting inherited
      effective.size.bind fun _ => registerExpansion? r effective
  | .cluster c => clusterExpansion? c (c.properties.inheriting inherited)

def memberTexts (options : Options) (inherited : RegisterProperties) (m : Member) : List String :=
  match memberExpansion? inherited m with
  | none => []
  | some x => replicaTexts options m x

/-- What is recorded about a member that is left out. -/
def leftOutEvent (inherited : RegisterProperties) : Member → Event
  | .cluster c => .unknownStride c.name
  | .register r =>
      match (r.properties.inheriting inherited).size with
      | none => .unknownSize (swiftName r.name)
      | some _ => .unknownStride r.name

def memberEvents (inherited : RegisterProperties) (m : Member) : List Event :=
  match memberExpansion? inherited m with
  | none => [leftOutEvent inherited m]
  | some _ => []

/-- An element that is left out leaves a message and declares nothing. -/
theorem leftOut_settled (event : Event) {P : Prop} (h : P) :
    Trace.Settled IsOverflow (do Trace.record event; return [] : Exporting (List String)) P []
      [event] :=
  ⟨fun _ => rfl, fun hP => absurd h hP⟩

theorem memberTexts_ne_nil_iff (options : Options) (inherited : RegisterProperties) (m : Member) :
    memberTexts options inherited m ≠ [] ↔ isExportedMember inherited m = true := by
  cases m with
  | register r =>
      simp only [isExportedMember, isExportedRegister_iff, memberTexts, memberExpansion?]
      cases (r.properties.inheriting inherited).size with
      | none => simp
      | some size =>
          cases registerExpansion? r (r.properties.inheriting inherited) with
          | none => simp
          | some x => simp [replicaTexts, registerTexts]
  | cluster c =>
      simp only [isExportedMember, isExportedCluster_iff, memberTexts, memberExpansion?]
      cases clusterExpansion? c (c.properties.inheriting inherited) with
      | none => simp
      | some x => simp [replicaTexts, HasReplica]

theorem memberAccessors_settled (options : Options) (inherited : RegisterProperties) (m : Member) :
    Trace.Settled IsOverflow (memberAccessors options inherited m)
      (isExportedMember inherited m = true → MemberFits inherited m)
      (memberTexts options inherited m) (memberEvents inherited m) := by
  cases m with
  | register r =>
      simp only [memberAccessors, registerAccessors, memberTexts, memberEvents, memberExpansion?,
        leftOutEvent, isExportedMember, isExportedRegister_iff, MemberFits]
      cases hsize : (r.properties.inheriting inherited).size with
      | none =>
          refine leftOut_settled _ ?_
          simp
      | some size =>
          cases hx : registerExpansion? r (r.properties.inheriting inherited) with
          | none =>
              refine leftOut_settled _ ?_
              simp
          | some x =>
              refine (ofAccessors_settled fun _ => registerAccessors_eq_ok_iff).of_iff ?_
              simp only [Option.some.injEq, forall_eq', exists_eq_left', exists_and_left]
              constructor
              · intro hfits _
                exact hfits
              · intro hfits count hcount hne
                exact hfits (by simpa [hcount] using hne) count hcount hne
  | cluster c =>
      simp only [memberAccessors, clusterAccessors, memberTexts, memberEvents, memberExpansion?,
        leftOutEvent, isExportedMember, isExportedCluster_iff, MemberFits]
      cases hx : clusterExpansion? c (c.properties.inheriting inherited) with
      | none => exact leftOut_settled _ (by simp)
      | some x =>
          refine (ofAccessors_settled fun _ => clusterAccessors_eq_ok_iff).of_iff ?_
          simp only [Option.some.injEq, forall_eq', exists_eq_left']
          constructor
          · intro hfits _
            exact hfits
          · intro hfits r hr
            exact hfits (List.ne_nil_of_mem hr) r hr

/-- A member is declared exactly if it is exported, and its addresses then fit. -/
theorem memberAccessors_eq_ok {options : Options} {inherited : RegisterProperties} {m : Member}
    {texts : List String} (h : (memberAccessors options inherited m).outcome = .ok texts) :
    (texts ≠ [] ↔ isExportedMember inherited m = true) ∧
      (isExportedMember inherited m = true → MemberFits inherited m) := by
  rcases (memberAccessors_settled options inherited m).outcome_iff.mp h with ⟨hfits, rfl⟩
  exact ⟨memberTexts_ne_nil_iff options inherited m, hfits⟩

/-! ## Peripherals with an instance -/

/-- True of a peripheral that gets an instance: its stride is known and it has a replica. -/
def isExportedPeripheral (inherited : RegisterProperties) (p : Peripheral) : Bool :=
  match peripheralExpansion? p (p.properties.inheriting inherited) with
  | none => false
  | some x =>
      match x.count with
      | none => true
      | some count => 0 < count

theorem isExportedPeripheral_iff {inherited : RegisterProperties} {p : Peripheral} :
    isExportedPeripheral inherited p = true ↔
      ∃ x, peripheralExpansion? p (p.properties.inheriting inherited) = some x ∧
        HasReplica x := by
  unfold isExportedPeripheral
  exact exists_hasReplica_iff _

def instanceSubject (options : Options) (p : Peripheral) : Subject :=
  ⟨p.description, swiftName p.name, options.instanceModifiers⟩

/-- The instances of a peripheral, one for each replica. -/
def instanceTexts (options : Options) (inherited : RegisterProperties) (p : Peripheral) :
    List String :=
  match peripheralExpansion? p (p.properties.inheriting inherited) with
  | none => []
  | some x => x.replicas.map fun r =>
      (instanceSubject options p).documented
        [instanceLine (instanceSubject options p) p.baseAddress r]

def instanceEvents (inherited : RegisterProperties) (p : Peripheral) : List Event :=
  match peripheralExpansion? p (p.properties.inheriting inherited) with
  | none => [.unknownStride p.name]
  | some _ => []

def InstancesFit (inherited : RegisterProperties) (p : Peripheral) : Prop :=
  ∀ x, peripheralExpansion? p (p.properties.inheriting inherited) = some x →
    ReplicasFit p.baseAddress x

theorem peripheralAccessors_settled (options : Options) (inherited : RegisterProperties)
    (p : Peripheral) :
    Trace.Settled IsOverflow (peripheralAccessors options inherited p) (InstancesFit inherited p)
      (instanceTexts options inherited p) (instanceEvents inherited p) := by
  simp only [peripheralAccessors, InstancesFit, instanceTexts, instanceEvents]
  cases hx : peripheralExpansion? p (p.properties.inheriting inherited) with
  | none => exact leftOut_settled _ (by simp)
  | some x =>
      refine (ofAccessors_settled fun _ => peripheralAccessors_eq_ok_iff).of_iff ?_
      simp

theorem instanceTexts_ne_nil_iff (options : Options) (inherited : RegisterProperties)
    (p : Peripheral) :
    instanceTexts options inherited p ≠ [] ↔ isExportedPeripheral inherited p = true := by
  rw [isExportedPeripheral_iff, instanceTexts]
  cases peripheralExpansion? p (p.properties.inheriting inherited) with
  | none => simp
  | some x => simp [HasReplica]

end RegisterMap.Export
