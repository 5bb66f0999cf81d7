import Mathlib.Data.List.Basic
import Mathlib.Data.List.Perm.Basic
import RegisterMap.Derivation.Order

/-!
# Peripherals that reach a definition

Taking ready peripherals until none is left takes those that come to a peripheral
without a base when their bases are followed by name, and no others.  What still
waits keeps its order.
-/

namespace RegisterMap.Derivation

open RegisterMap.Model

/-- A peripheral that comes to one without a base by following bases, name by name. -/
inductive ReachesDefinition (peripherals : List Peripheral) : Peripheral → Prop
  | definition {p : Peripheral} : p.derivedFrom = none → ReachesDefinition peripherals p
  | derived {p base : Peripheral} :
      p.derivedFrom = some base.name → base ∈ peripherals →
      ReachesDefinition peripherals base → ReachesDefinition peripherals p

theorem derivesFrom_iff {name : String} {p : Peripheral} :
    derivesFrom name p = true ↔ p.derivedFrom = some name := by
  simp [derivesFrom]

/-! ## Taking ready peripherals -/

theorem mem_takeReady {ready waiting : List Peripheral} {p : Peripheral} :
    p ∈ (takeReady ready waiting).1 ↔
      p ∈ ready ∨ p ∈ waiting ∧
        ∃ base ∈ (takeReady ready waiting).1, p.derivedFrom = some base.name := by
  fun_induction takeReady ready waiting with
  | case1 waiting => simp
  | case2 waiting q ready taken left htake ih =>
      rw [htake] at ih
      simp only [List.mem_cons, ih, List.mem_append, List.mem_reverse, followers, others,
        List.mem_filter, derivesFrom_iff, Bool.not_eq_true', Bool.eq_false_iff, ne_eq,
        exists_eq_or_imp]
      tauto

/-- What waits in the end derives from nothing that was taken. -/
theorem left_takeReady (ready waiting : List Peripheral) :
    (takeReady ready waiting).2 = waiting.filter fun p =>
      decide (∀ base ∈ (takeReady ready waiting).1, p.derivedFrom ≠ some base.name) := by
  fun_induction takeReady ready waiting with
  | case1 waiting => simp
  | case2 waiting q ready taken left htake ih =>
      rw [htake] at ih
      simp only [] at ih ⊢
      rw [ih, others, List.filter_filter]
      refine List.filter_congr ?_
      intro p _
      by_cases hp : derivesFrom q.name p = true
      · simp [hp, derivesFrom_iff.mp hp]
      · have hne : p.derivedFrom ≠ some q.name := fun h => hp (derivesFrom_iff.mpr h)
        simp [hp, hne]

theorem reaches_of_mem_takeReady {peripherals ready waiting : List Peripheral}
    (hready : ∀ p ∈ ready, p ∈ peripherals ∧ ReachesDefinition peripherals p)
    (hwaiting : ∀ p ∈ waiting, p ∈ peripherals) :
    ∀ p ∈ (takeReady ready waiting).1, p ∈ peripherals ∧ ReachesDefinition peripherals p := by
  fun_induction takeReady ready waiting with
  | case1 waiting => simp
  | case2 waiting q ready taken left htake ih =>
      rw [htake] at ih
      rcases List.forall_mem_cons.mp hready with ⟨hq, hothers⟩
      refine List.forall_mem_cons.mpr ⟨hq, ih ?_ ?_⟩
      · intro p hp
        rcases List.mem_append.mp hp with hp | hp
        · rcases List.mem_filter.mp (List.mem_reverse.mp hp) with ⟨hp, hbase⟩
          exact ⟨hwaiting p hp, .derived (derivesFrom_iff.mp hbase) hq.1 hq.2⟩
        · exact hothers p hp
      · intro p hp
        exact hwaiting p (List.mem_filter.mp hp).1

/-! ## Sorting -/

/-- The sort takes exactly the peripherals that reach a definition. -/
theorem mem_sortReachable {peripherals : List Peripheral} {p : Peripheral} :
    p ∈ (sortReachable peripherals).1 ↔
      p ∈ peripherals ∧ ReachesDefinition peripherals p := by
  simp only [sortReachable, List.partition_eq_filter_filter]
  constructor
  · refine reaches_of_mem_takeReady ?_ ?_ p
    · intro q hq
      rcases List.mem_filter.mp (List.mem_reverse.mp hq) with ⟨hq, hbase⟩
      exact ⟨hq, .definition (by simpa using hbase)⟩
    · intro q hq
      exact (List.mem_filter.mp hq).1
  · intro ⟨hp, hreaches⟩
    induction hreaches with
    | definition hnone =>
        rw [mem_takeReady]
        exact .inl (by simp [hp, hnone])
    | @derived p base hbase hmem _ ih =>
        rw [mem_takeReady]
        exact .inr ⟨by simp [hp, hbase], base, ih hmem, hbase⟩

theorem reachesDefinition_iff {peripherals : List Peripheral} {p : Peripheral} :
    ReachesDefinition peripherals p ↔
      ∀ name ∈ p.derivedFrom, ∃ base ∈ (sortReachable peripherals).1, base.name = name := by
  constructor
  · intro h name hname
    cases h with
    | definition hnone => simp [hnone] at hname
    | @derived _ base hbase hmem hreaches =>
        rw [hbase, Option.mem_some_iff] at hname
        exact ⟨base, mem_sortReachable.mpr ⟨hmem, hreaches⟩, hname⟩
  · intro h
    cases hp : p.derivedFrom with
    | none => exact .definition hp
    | some name =>
        rcases h name hp with ⟨base, hmem, rfl⟩
        rcases mem_sortReachable.mp hmem with ⟨hmem, hreaches⟩
        exact .derived hp hmem hreaches

instance (peripherals : List Peripheral) : DecidablePred (ReachesDefinition peripherals) :=
  fun _ => decidable_of_iff' _ reachesDefinition_iff

theorem left_sortReachable (peripherals : List Peripheral) :
    (sortReachable peripherals).2 =
      peripherals.filter fun p => ¬ReachesDefinition peripherals p := by
  have hleft := left_takeReady (peripherals.filter fun p => !p.derivedFrom.isSome).reverse
    (peripherals.filter fun p => p.derivedFrom.isSome)
  have htaken : (takeReady (peripherals.filter fun p => !p.derivedFrom.isSome).reverse
      (peripherals.filter fun p => p.derivedFrom.isSome)) = sortReachable peripherals := by
    simp only [sortReachable, List.partition_eq_filter_filter]
    rfl
  rw [htaken, List.filter_filter] at hleft
  rw [hleft]
  refine List.filter_congr ?_
  intro p _
  rw [Bool.eq_iff_iff]
  simp only [Bool.and_eq_true, decide_eq_true_eq, reachesDefinition_iff]
  cases h : p.derivedFrom <;> simp [eq_comm]

/-! ## Grouping -/

theorem groupedByBase_cons (p : Peripheral) (waiting : List Peripheral) :
    groupedByBase (p :: waiting) =
      ((p :: waiting).filter fun q => q.derivedFrom == p.derivedFrom) ++
        groupedByBase ((p :: waiting).filter fun q => !(q.derivedFrom == p.derivedFrom)) := by
  have hrest : ((p :: waiting).filter fun q => !(q.derivedFrom == p.derivedFrom)) =
      waiting.filter fun q => !(q.derivedFrom == p.derivedFrom) := by simp
  rw [hrest, groupedByBase, List.map_cons, List.eraseDups_cons, List.flatMap_cons,
    groupedByBase, List.filter_map]
  congr 1
  refine List.flatMap_congr ?_
  intro base hbase
  have hne : base ≠ p.derivedFrom := by
    rcases List.mem_map.mp (List.mem_eraseDups.mp hbase) with ⟨q, hq, rfl⟩
    simpa using (List.mem_filter.mp hq).2
  rw [← hrest, List.filter_filter]
  refine List.filter_congr ?_
  intro q _
  by_cases hq : q.derivedFrom = base <;> simp [hq, hne]

/-- Grouping peripherals by base loses none of them and repeats none. -/
theorem groupedByBase_perm (waiting : List Peripheral) :
    (groupedByBase waiting).Perm waiting := by
  induction hlength : waiting.length using Nat.strongRecOn generalizing waiting with
  | _ length ih =>
      cases waiting with
      | nil => exact .nil
      | cons p waiting =>
          have hshorter : ((p :: waiting).filter
              fun q => !(q.derivedFrom == p.derivedFrom)).length < length := by
            have hle := List.length_filter_le (fun q => !(q.derivedFrom == p.derivedFrom)) waiting
            simp only [List.length_cons] at hlength
            simp
            omega
          rw [groupedByBase_cons]
          have hsplit := List.filter_append_perm (fun q => q.derivedFrom == p.derivedFrom)
            (p :: waiting)
          exact ((ih _ hshorter _ rfl).append_left _).trans hsplit

/-! ## Outcomes -/

theorem left_eq_nil_iff {peripherals : List Peripheral} :
    (sortReachable peripherals).2 = [] ↔ ∀ p ∈ peripherals, ReachesDefinition peripherals p := by
  simp [left_sortReachable]

theorem sortByBase_eq_ok_iff {peripherals sorted : List Peripheral} :
    sortByBase peripherals = .ok sorted ↔
      (∀ p ∈ peripherals, ReachesDefinition peripherals p) ∧
        sorted = (sortReachable peripherals).1 := by
  rw [← left_eq_nil_iff, sortByBase]
  rcases sortReachable peripherals with ⟨taken, _ | ⟨p, left⟩⟩ <;> simp [eq_comm]

theorem sortByBase_eq_error_iff {peripherals : List Peripheral} {names : List String} :
    sortByBase peripherals = .error names ↔
      (¬∀ p ∈ peripherals, ReachesDefinition peripherals p) ∧
        names = (groupedByBase (peripherals.filter fun p =>
          ¬ReachesDefinition peripherals p)).map (·.name) := by
  rw [← left_eq_nil_iff, sortByBase, ← left_sortReachable]
  rcases sortReachable peripherals with ⟨taken, _ | ⟨p, left⟩⟩ <;> simp [eq_comm]

end RegisterMap.Derivation
