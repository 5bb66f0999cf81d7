import Mathlib.Data.List.Nodup
import RegisterMap.Swift.Layout

/-!
# Stored units

A stored unit stays until another one of its name is put in its place.  So a store
holds all units that were put into it exactly if no two of them have one name.
-/

namespace RegisterMap.Swift.UnitStore

def names (store : UnitStore) : List String :=
  store.units.map (·.name)

theorem replace_eq_none {unit : SourceUnit} {us : List SourceUnit}
    (h : unit.name ∉ us.map (·.name)) : replace unit us = none := by
  induction us with
  | nil => rfl
  | cons u us ih =>
      rw [List.map_cons, List.mem_cons, not_or] at h
      rw [replace, if_neg (Ne.symm h.1), ih h.2]
      rfl

theorem replace_eq_some {unit : SourceUnit} {us : List SourceUnit}
    (h : unit.name ∈ us.map (·.name)) :
    ∃ vs, replace unit us = some vs ∧ vs.map (·.name) = us.map (·.name) := by
  induction us with
  | nil => cases h
  | cons u us ih =>
      by_cases hname : u.name = unit.name
      · exact ⟨unit :: us, by rw [replace, if_pos hname], by simp [hname]⟩
      · rw [List.map_cons, List.mem_cons] at h
        rcases ih (h.resolve_left (Ne.symm hname)) with ⟨vs, hvs, hnames⟩
        exact ⟨u :: vs, by rw [replace, if_neg hname, hvs]; rfl, by simp [hnames]⟩

theorem units_put_of_not_mem {store : UnitStore} {unit : SourceUnit}
    (h : unit.name ∉ store.names) : (store.put unit).units = store.units ++ [unit] := by
  rw [put, replace_eq_none h]
  rfl

theorem names_put_of_mem {store : UnitStore} {unit : SourceUnit} (h : unit.name ∈ store.names) :
    (store.put unit).names = store.names := by
  rcases replace_eq_some h with ⟨vs, hvs, hnames⟩
  rw [put, hvs]
  exact hnames

theorem nodup_names_put {store : UnitStore} (h : store.names.Nodup) (unit : SourceUnit) :
    (store.put unit).names.Nodup := by
  by_cases hmem : unit.name ∈ store.names
  · rw [names_put_of_mem hmem]
    exact h
  · rw [names, units_put_of_not_mem hmem, List.map_append, ← names, List.map_singleton,
      ← List.concat_eq_append]
    exact h.concat hmem

theorem mem_replace_iff {unit u : SourceUnit} {us vs : List SourceUnit}
    (hnodup : (us.map (·.name)).Nodup) (h : replace unit us = some vs) :
    u ∈ vs ↔ u = unit ∨ u ∈ us ∧ u.name ≠ unit.name := by
  induction us generalizing vs with
  | nil => cases h
  | cons v us ih =>
      rw [List.map_cons, List.nodup_cons] at hnodup
      by_cases hname : v.name = unit.name
      · rw [replace, if_pos hname] at h
        obtain rfl := Option.some.inj h
        -- No other unit has the name, so those behind the replaced one stay.
        have hothers : ∀ w ∈ us, w.name ≠ unit.name := by
          intro w hw heq
          exact hnodup.1 (List.mem_map.mpr ⟨w, hw, heq.trans hname.symm⟩)
        grind
      · rw [replace, if_neg hname] at h
        rcases Option.map_eq_some_iff.mp h with ⟨ws, hws, rfl⟩
        have hrest := ih hnodup.2 hws
        grind

/-- A store holds the last unit that was put into it for each name. -/
theorem mem_units_put_iff {store : UnitStore} (h : store.names.Nodup) {unit u : SourceUnit} :
    u ∈ (store.put unit).units ↔ u = unit ∨ u ∈ store.units ∧ u.name ≠ unit.name := by
  by_cases hmem : unit.name ∈ store.names
  · rcases replace_eq_some hmem with ⟨vs, hvs, -⟩
    rw [put, hvs]
    exact mem_replace_iff h hvs
  · rw [units_put_of_not_mem hmem, List.mem_append, List.mem_singleton, or_comm]
    refine or_congr_right ⟨fun hu => ⟨hu, ?_⟩, And.left⟩
    intro hname
    exact hmem (List.mem_map.mpr ⟨u, hu, hname⟩)

theorem length_put_le (store : UnitStore) (unit : SourceUnit) :
    (store.put unit).names.length ≤ store.names.length + 1 := by
  by_cases h : unit.name ∈ store.names
  · rw [names_put_of_mem h]
    exact Nat.le_succ _
  · rw [names, units_put_of_not_mem h]
    simp [names]

/-! ## Several units -/

theorem length_foldl_put_le (store : UnitStore) (units : List SourceUnit) :
    (units.foldl put store).names.length ≤ store.names.length + units.length := by
  induction units generalizing store with
  | nil => exact Nat.le_refl _
  | cons unit units ih =>
      have hfirst := store.length_put_le unit
      have hothers := ih (store.put unit)
      rw [List.foldl_cons, List.length_cons]
      omega

theorem units_foldl_put_of_nodup (store : UnitStore) (units : List SourceUnit)
    (h : (store.names ++ units.map (·.name)).Nodup) :
    (units.foldl put store).units = store.units ++ units := by
  induction units generalizing store with
  | nil => simp
  | cons unit units ih =>
      have hnew : unit.name ∉ store.names := by
        intro hmem
        exact List.disjoint_of_nodup_append h hmem (by simp)
      have hunits := units_put_of_not_mem hnew
      have hothers : ((store.put unit).names ++ units.map (·.name)).Nodup := by
        rw [names, hunits]
        simpa [names] using h
      rw [List.foldl_cons, ih _ hothers, hunits, List.append_assoc, List.singleton_append]

/-- A store that grows with every unit has been given units of different names. -/
theorem nodup_of_length_foldl_put (store : UnitStore) (units : List SourceUnit)
    (hstore : store.names.Nodup)
    (h : (units.foldl put store).names.length = store.names.length + units.length) :
    (store.names ++ units.map (·.name)).Nodup := by
  induction units generalizing store with
  | nil => simpa using hstore
  | cons unit units ih =>
      rw [List.foldl_cons, List.length_cons] at h
      have hle := length_foldl_put_le (store.put unit) units
      by_cases hmem : unit.name ∈ store.names
      · rw [names_put_of_mem hmem] at hle
        omega
      · have hnames : (store.put unit).names = store.names ++ [unit.name] := by
          rw [names, units_put_of_not_mem hmem]
          simp [names]
        have hput := nodup_names_put hstore unit
        have hlength : (units.foldl put (store.put unit)).names.length =
            (store.put unit).names.length + units.length := by
          rw [h, hnames, List.length_append, List.length_singleton]
          omega
        simpa [hnames] using ih _ hput hlength

theorem units_ofUnits_of_nodup {units : List SourceUnit} (h : (units.map (·.name)).Nodup) :
    (ofUnits units).units = units := by
  have hkept := units_foldl_put_of_nodup {} units (by simpa [names] using h)
  rwa [List.nil_append] at hkept

theorem nodup_of_length_ofUnits {units : List SourceUnit}
    (h : (ofUnits units).units.length = units.length) : (units.map (·.name)).Nodup := by
  have hlength : (units.foldl put {}).names.length = (names {}).length + units.length := by
    rw [names, List.length_map, ← ofUnits, h]
    exact (Nat.zero_add _).symm
  have hnodup := nodup_of_length_foldl_put {} units (by simp [names]) hlength
  simpa [names] using hnodup

end RegisterMap.Swift.UnitStore
