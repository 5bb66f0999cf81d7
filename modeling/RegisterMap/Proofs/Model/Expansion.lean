import RegisterMap.Model.Expansion
import RegisterMap.Proofs.Report.Outcome

/-!
# Replicas as a list

The replicas of an element are known from its expansion alone.  Going through
them succeeds exactly if the distance of each fits in 64 bits and each is dealt
with.
-/

namespace RegisterMap.Model

open RegisterMap.Number RegisterMap.Report

theorem bind_checkedSum_eq_ok_iff {α : Type} {terms : List Int} {f : Int → α} {a : α} :
    (checkedSum terms >>= fun total => pure (f total)) = .ok a ↔
      isWord (terms.foldr (· + ·) 0) = true ∧ f (terms.foldr (· + ·) 0) = a := by
  simp only [Outcome.bind_eq_ok_iff, Outcome.pure_eq_ok_iff, checkedSum_eq_ok_iff]
  constructor
  · intro h
    rcases h with ⟨_, ⟨rfl, hword⟩, rfl⟩
    exact ⟨hword, rfl⟩
  · intro h
    rcases h with ⟨hword, rfl⟩
    exact ⟨_, ⟨rfl, hword⟩, rfl⟩

namespace Expansion

def replica (e : Expansion) (index : Nat) : Replica :=
  ⟨some index, index * e.stride⟩

def replicas (e : Expansion) : List Replica :=
  match e.count with
  | none => [⟨none, 0⟩]
  | some count => (List.range count.toNat).map e.replica

theorem replicaAt_eq_ok_iff {e : Expansion} {index : Nat} {r : Replica} :
    e.replicaAt index = .ok r ↔ isWord (index * e.stride) = true ∧ r = e.replica index := by
  rw [replicaAt, bind_checkedSum_eq_ok_iff, List.foldr_cons, List.foldr_nil, Int.add_zero,
    replica, eq_comm (a := r)]

theorem mapFrom_eq_ok_iff {α : Type} {e : Expansion} {f : Replica → Except AddressOverflow α}
    {count index : Nat} {ys : List α} :
    e.mapFrom f count index = .ok ys ↔
      (∀ r ∈ (List.range' index count).map e.replica, isWord r.offset = true) ∧
        List.Forall₂ (fun r y => f r = .ok y) ((List.range' index count).map e.replica) ys := by
  induction count generalizing index ys with
  | zero =>
      rw [mapFrom, Outcome.pure_eq_ok_iff]
      constructor
      · intro heq
        subst heq
        simp
      · intro ⟨_, heach⟩
        cases heach
        rfl
  | succ count ih =>
      simp only [mapFrom, Outcome.bind_eq_ok_iff, Outcome.pure_eq_ok_iff, replicaAt_eq_ok_iff, ih,
        List.range'_succ, List.map_cons, List.forall_mem_cons]
      constructor
      · intro h
        rcases h with ⟨_, ⟨hword, rfl⟩, first, hfirst, others, ⟨hwords, heach⟩, rfl⟩
        exact ⟨⟨hword, hwords⟩, .cons hfirst heach⟩
      · intro h
        rcases h with ⟨⟨hword, hwords⟩, heach⟩
        cases heach with
        | cons hfirst heach => exact ⟨_, ⟨hword, rfl⟩, _, hfirst, _, ⟨hwords, heach⟩, rfl⟩

theorem mapReplicas_eq_ok_iff {α : Type} {e : Expansion}
    {f : Replica → Except AddressOverflow α} {ys : List α} :
    e.mapReplicas f = .ok ys ↔
      (∀ r ∈ e.replicas, isWord r.offset = true) ∧
        List.Forall₂ (fun r y => f r = .ok y) e.replicas ys := by
  rcases e with ⟨count, stride⟩
  cases count with
  | none =>
      simp only [mapReplicas, replicas, Outcome.bind_eq_ok_iff, Outcome.pure_eq_ok_iff,
        List.forall_mem_singleton]
      constructor
      · intro h
        rcases h with ⟨only, honly, rfl⟩
        exact ⟨by decide, .cons honly .nil⟩
      · intro h
        rcases h with ⟨_, heach⟩
        cases heach with
        | cons honly hnil =>
            cases hnil
            exact ⟨_, honly, rfl⟩
  | some count =>
      have hrange := List.range_eq_range' (n := count.toNat)
      simp only [mapReplicas, replicas, mapFrom_eq_ok_iff, hrange]

/-- With one sum to be checked for each replica, the results are those of the sums. -/
theorem mapReplicas_checkedSum_eq_ok_iff {α : Type} {e : Expansion} {terms : Replica → List Int}
    {f : Int → Replica → α} {ys : List α} :
    (e.mapReplicas fun r => do
      let total ← checkedSum (terms r)
      return f total r) = .ok ys ↔
      (∀ r ∈ e.replicas, isWord r.offset = true ∧
          isWord ((terms r).foldr (· + ·) 0) = true) ∧
        ys = e.replicas.map fun r => f ((terms r).foldr (· + ·) 0) r := by
  simp only [mapReplicas_eq_ok_iff, bind_checkedSum_eq_ok_iff]
  induction e.replicas generalizing ys with
  | nil => simp
  | cons r rs ih =>
      cases ys with
      | nil => simp
      | cons y ys =>
          have hrest := @ih ys
          simp only [List.forall_mem_cons, List.forall₂_cons, List.map_cons, List.cons.injEq]
          grind

/-! ## The last replica -/

/-- Distance of the last replica from the first. -/
def lastOffset (e : Expansion) : Int :=
  match e.count with
  | none => 0
  | some count => (count - 1) * e.stride

theorem offset_bounds {e : Expansion} (hstride : 0 ≤ e.stride) {r : Replica}
    (hr : r ∈ e.replicas) : 0 ≤ r.offset ∧ r.offset ≤ e.lastOffset := by
  rcases e with ⟨count?, stride⟩
  cases count? with
  | none =>
      obtain rfl := List.mem_singleton.mp hr
      exact ⟨Int.le_refl 0, Int.le_refl 0⟩
  | some count =>
      rcases List.mem_map.mp hr with ⟨i, hi, rfl⟩
      have hle : (i : Int) ≤ count - 1 := by
        have hlt := List.mem_range.mp hi
        omega
      exact ⟨Int.mul_nonneg (Int.natCast_nonneg i) hstride,
        Int.mul_le_mul_of_nonneg_right hle hstride⟩

theorem exists_offset_eq_last {e : Expansion} (h : e.replicas ≠ []) :
    ∃ r ∈ e.replicas, r.offset = e.lastOffset := by
  rcases e with ⟨count?, stride⟩
  cases count? with
  | none => exact ⟨_, List.mem_singleton_self _, rfl⟩
  | some count =>
      have hpos : 0 < count.toNat := by
        apply Nat.pos_of_ne_zero
        intro hzero
        simp [replicas, hzero] at h
      have hmem : count.toNat - 1 ∈ List.range count.toNat := List.mem_range.mpr (by omega)
      have hindex : ((count.toNat - 1 : Nat) : Int) = count - 1 := by omega
      refine ⟨_, List.mem_map_of_mem hmem, ?_⟩
      rw [replica, lastOffset, hindex]

/-- If replicas go upwards, all of them fit behind a base exactly if the last one does. -/
theorem forall_isWord_iff {e : Expansion} {base : Int} (hstride : 0 ≤ e.stride)
    (hbase : 0 ≤ base) :
    (∀ r ∈ e.replicas, isWord r.offset = true ∧ isWord (base + r.offset) = true) ↔
      (e.replicas ≠ [] → base + e.lastOffset < wordLimit) := by
  simp only [isWord, Bool.and_eq_true, decide_eq_true_eq]
  constructor
  · intro h hne
    rcases exists_offset_eq_last hne with ⟨r, hr, hlast⟩
    have hfits := (h r hr).2.2
    omega
  · intro h r hr
    have hbounds := offset_bounds hstride hr
    have hlast := h (List.ne_nil_of_mem hr)
    omega

end Expansion

/-! ## Expansions of dimensions -/

namespace Dimension

/-- The distance of replicas that is known from a dimension or a default. -/
def stride? (dimension : Option Dimension) (default : Option Int) : Option Int :=
  (dimension.bind Dimension.stride).or default

theorem expansion?_eq_some_iff {dimension : Option Dimension} {default : Option Int}
    {x : Expansion} :
    expansion? dimension default = some x ↔
      match dimension.bind Dimension.count with
      | none => x = .scalar
      | some count => x = ⟨some count, (stride? dimension default).getD 0⟩ ∧
          (count ≠ 0 → stride? dimension default ≠ none) := by
  unfold expansion? stride?
  cases dimension.bind Dimension.count with
  | none => simp [eq_comm (a := x)]
  | some count =>
      by_cases hzero : count = 0
      · simp [hzero, eq_comm (a := x)]
      · cases (dimension.bind Dimension.stride).or default with
        | none => simp [hzero]
        | some stride => simp [hzero, eq_comm (a := x)]

/-- Replicas cannot be told apart exactly if there are any and no distance is known. -/
theorem expansion?_eq_none_iff {dimension : Option Dimension} {default : Option Int} :
    expansion? dimension default = none ↔
      (∃ count, dimension.bind Dimension.count = some count ∧ count ≠ 0) ∧
        stride? dimension default = none := by
  unfold expansion? stride?
  cases dimension.bind Dimension.count with
  | none => simp
  | some count =>
      by_cases hzero : count = 0
      · simp [hzero]
      · simp [hzero]

theorem count_of_expansion? {dimension : Option Dimension} {default : Option Int} {x : Expansion}
    (hx : expansion? dimension default = some x) : x.count = dimension.bind Dimension.count := by
  rw [expansion?_eq_some_iff] at hx
  cases hcount : dimension.bind Dimension.count with
  | none =>
      simp only [hcount] at hx
      rw [hx, Expansion.scalar]
  | some count =>
      simp only [hcount] at hx
      rw [hx.1]

/-- A dimension without a stride of its own takes the default one. -/
theorem exists_default_of_expansion? {d : Dimension} {default : Option Int} {x : Expansion}
    {count : Int} (hx : expansion? (some d) default = some x) (hcount : d.count = some count)
    (hstride : d.stride = none) (hne : count ≠ 0) :
    ∃ stride, default = some stride ∧ x = ⟨some count, stride⟩ := by
  have hdefault : stride? (some d) default = default := by simp [stride?, hstride]
  rw [expansion?_eq_some_iff] at hx
  simp only [Option.bind_some, hcount, hdefault] at hx
  rcases Option.ne_none_iff_exists'.mp (hx.2 hne) with ⟨stride, hsome⟩
  exact ⟨stride, hsome, by rw [hx.1, hsome, Option.getD_some]⟩

/-- Replicas do not go downwards if no distance is negative. -/
theorem stride_of_expansion?_nonneg {dimension : Option Dimension} {default : Option Int}
    {x : Expansion} (hx : expansion? dimension default = some x)
    (hstride : ∀ n ∈ stride? dimension default, 0 ≤ n) : 0 ≤ x.stride := by
  rw [expansion?_eq_some_iff] at hx
  cases hcount : dimension.bind Dimension.count with
  | none =>
      simp only [hcount] at hx
      simp [hx, Expansion.scalar]
  | some count =>
      simp only [hcount] at hx
      rw [hx.1]
      cases hdist : stride? dimension default with
      | none => simp
      | some n => exact hstride n hdist

/-- Distance of the last replica, for a dimension that may leave its stride to a default. -/
def lastOffset (dimension : Option Dimension) (default : Option Int) : Int :=
  match dimension.bind Dimension.count with
  | none => 0
  | some count => (count - 1) * (stride? dimension default).getD 0

theorem lastOffset_of_expansion? {dimension : Option Dimension} {default : Option Int}
    {x : Expansion} (hx : expansion? dimension default = some x) :
    x.lastOffset = lastOffset dimension default := by
  rw [expansion?_eq_some_iff] at hx
  cases hcount : dimension.bind Dimension.count with
  | none =>
      simp only [hcount] at hx
      simp [hx, Expansion.scalar, Expansion.lastOffset, lastOffset, hcount]
  | some count =>
      simp only [hcount] at hx
      simp [hx.1, Expansion.lastOffset, lastOffset, hcount]

end Dimension

end RegisterMap.Model
