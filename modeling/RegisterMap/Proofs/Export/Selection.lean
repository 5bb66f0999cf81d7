import Mathlib.Data.List.Nodup
import Mathlib.Data.List.Perm.Basic
import RegisterMap.Export.Selection
import RegisterMap.Proofs.Report.Failure

/-!
# Selections by name

If no two peripherals have one name, there is one order of their names only.  So a
selection is the part of all sorted peripherals that has a selected name, and neither
the order of the device nor that of the selected names counts.
-/

namespace RegisterMap.Export

open RegisterMap.Model RegisterMap.Report

/-! ## Sorted peripherals -/

theorem sortByName_perm (peripherals : List Peripheral) :
    (sortByName peripherals).Perm peripherals :=
  List.mergeSort_perm _ _

theorem sortByName_sorted (peripherals : List Peripheral) :
    (sortByName peripherals).Pairwise fun p q => p.name ≤ q.name := by
  have htrans : ∀ p q r : Peripheral, decide (p.name ≤ q.name) = true →
      decide (q.name ≤ r.name) = true → decide (p.name ≤ r.name) = true := by
    intro p q r hpq hqr
    exact decide_eq_true (String.le_trans (of_decide_eq_true hpq) (of_decide_eq_true hqr))
  have htotal : ∀ p q : Peripheral,
      (decide (p.name ≤ q.name) || decide (q.name ≤ p.name)) = true := by
    intro p q
    simpa using String.le_total p.name q.name
  exact (List.pairwise_mergeSort htrans htotal peripherals).imp of_decide_eq_true

/-- Peripherals of different names have one sorted order. -/
theorem eq_sortByName {sorted peripherals : List Peripheral}
    (hnodup : (peripherals.map (·.name)).Nodup) (hperm : sorted.Perm peripherals)
    (hsorted : sorted.Pairwise fun p q => p.name ≤ q.name) :
    sorted = sortByName peripherals := by
  have hboth := hperm.trans (sortByName_perm peripherals).symm
  refine List.Perm.eq_of_pairwise ?_ hsorted (sortByName_sorted peripherals) hboth
  intro p q hp hq hpq hqp
  have hp := hperm.mem_iff.mp hp
  have hq := (sortByName_perm peripherals).mem_iff.mp hq
  exact List.inj_on_of_nodup_map hnodup hp hq (String.le_antisymm hpq hqp)

theorem sortByName_eq_of_perm {peripherals others : List Peripheral}
    (hnodup : (others.map (·.name)).Nodup) (hperm : peripherals.Perm others) :
    sortByName peripherals = sortByName others :=
  eq_sortByName hnodup ((sortByName_perm peripherals).trans hperm) (sortByName_sorted peripherals)

/-! ## Peripherals found by name -/

theorem findPeripheral_eq_ok_iff {device : Device} (hnodup : device.peripheralNames.Nodup)
    {name : String} {p : Peripheral} :
    findPeripheral device name = .ok p ↔ p ∈ device.peripherals ∧ p.name = name := by
  unfold findPeripheral
  cases hfound : device.peripherals.reverse.find? (·.name == name) with
  | none =>
      rw [List.find?_eq_none] at hfound
      simp only [reduceCtorEq, false_iff, not_and]
      intro hp hname
      exact hfound p (List.mem_reverse.mpr hp) (by simp [hname])
  | some q =>
      have hq := List.mem_reverse.mp (List.mem_of_find?_eq_some hfound)
      have hname : q.name = name := by simpa using List.find?_some hfound
      simp only [Except.ok.injEq]
      constructor
      · intro heq
        rw [← heq]
        exact ⟨hq, hname⟩
      · intro ⟨hp, heq⟩
        exact List.inj_on_of_nodup_map hnodup hq hp (hname.trans heq.symm)

theorem findPeripheral_eq_error_iff {device : Device} {name : String} {e : UnknownPeripheral} :
    findPeripheral device name = .error e ↔
      name ∉ device.peripheralNames ∧ e = ⟨name, device.peripheralNames⟩ := by
  have hnone : device.peripherals.reverse.find? (·.name == name) = none ↔
      name ∉ device.peripheralNames := by
    simp [Device.peripheralNames]
  unfold findPeripheral
  cases hfound : device.peripherals.reverse.find? (·.name == name) with
  | none => simp [hnone.mp hfound, eq_comm]
  | some q =>
      have hmem : name ∈ device.peripheralNames := by
        by_contra hunknown
        rw [hnone.mpr hunknown] at hfound
        cases hfound
      simp [hmem]

/-! ## Selected peripherals -/

/-- Names without their copies are worked out from the front: what follows a name is taken
without the copies of that name. -/
theorem eraseDups_induction {motive : List String → Prop} (nil : motive [])
    (cons : ∀ name names, motive (names.filter fun other => !(other == name)) →
      motive (name :: names)) (names : List String) : motive names := by
  induction hlength : names.length using Nat.strongRecOn generalizing names with
  | _ length ih =>
      cases names with
      | nil => exact nil
      | cons name names =>
          have hshorter : (names.filter fun other => !(other == name)).length < length := by
            have hle := List.length_filter_le (fun other => !(other == name)) names
            simp only [List.length_cons] at hlength
            omega
          exact cons name names (ih _ hshorter _ rfl)

theorem nodup_eraseDups (names : List String) : names.eraseDups.Nodup := by
  induction names using eraseDups_induction with
  | nil => exact .nil
  | cons name names ih =>
      rw [List.eraseDups_cons, List.nodup_cons]
      exact ⟨by simp, ih⟩

/-- The peripherals with one of some names, in the order of their names. -/
def namedPeripherals (device : Device) (names : List String) : List Peripheral :=
  (sortByName device.peripherals).filter fun p => names.contains p.name

theorem mem_namedPeripherals {device : Device} {names : List String} {p : Peripheral} :
    p ∈ namedPeripherals device names ↔ p ∈ device.peripherals ∧ p.name ∈ names := by
  simp [namedPeripherals, (sortByName_perm device.peripherals).mem_iff]

/-- Each selected name finds its peripheral, whatever the order of the names. -/
theorem namedPeripherals_perm {device : Device} (hnodup : device.peripheralNames.Nodup)
    {names : List String} {found : List Peripheral}
    (hfound : names.eraseDups.mapM (findPeripheral device) = .ok found) :
    found.Perm (namedPeripherals device names) := by
  have heach : List.Forall₂ (fun name p => p ∈ device.peripherals ∧ p.name = name)
      names.eraseDups found :=
    (Outcome.mapM_eq_ok_iff.mp hfound).imp fun _ _ h => (findPeripheral_eq_ok_iff hnodup).mp h
  have hnames : names.eraseDups = found.map (·.name) := by
    rw [← List.forall₂_eq_eq_eq, List.forall₂_map_right_iff]
    exact heach.imp fun _ _ h => h.2.symm
  have hnamed : (namedPeripherals device names).Nodup :=
    (((sortByName_perm device.peripherals).nodup_iff).mpr (.of_map _ hnodup)).filter _
  have hdistinct : found.Nodup := .of_map (·.name) (hnames ▸ nodup_eraseDups names)
  refine (List.perm_ext_iff_of_nodup hdistinct hnamed).mpr fun p => ?_
  rw [mem_namedPeripherals]
  constructor
  · intro hp
    rcases Outcome.exists_mem_left heach hp with ⟨name, hname, hmem, rfl⟩
    exact ⟨hmem, List.mem_eraseDups.mp hname⟩
  · intro ⟨hmem, hname⟩
    rcases Outcome.exists_mem_right heach (List.mem_eraseDups.mpr hname) with ⟨q, hq, hq', heq⟩
    rwa [← List.inj_on_of_nodup_map hnodup hq' hmem heq]

/-- Whatever is selected comes in the order of the names. -/
theorem selectPeripherals_sorted {device : Device} {names : List String}
    {selected : List Peripheral} (h : selectPeripherals device names = .ok selected) :
    selected.Pairwise fun p q => p.name ≤ q.name := by
  rw [selectPeripherals] at h
  split at h
  · cases h
    exact sortByName_sorted _
  · rcases Outcome.bind_eq_ok_iff.mp h with ⟨found, -, hsorted⟩
    cases hsorted
    exact sortByName_sorted found

/-- A search for several names fails at a name that no peripheral has. -/
theorem exists_unknown {device : Device} {names : List String} {e : UnknownPeripheral}
    (h : names.mapM (findPeripheral device) = .error e) :
    ∃ name ∈ names, name ∉ device.peripheralNames ∧ e = ⟨name, device.peripheralNames⟩ := by
  have hfirst : Outcome.error? (names.mapM (findPeripheral device)) =
      (names.flatMap fun name => [name]).findSome? fun name =>
        Outcome.error? (findPeripheral device name) :=
    Outcome.error?_mapM fun name _ => by simp only [List.findSome?_singleton]
  rw [h, List.flatMap_singleton'] at hfirst
  rcases List.exists_of_findSome?_eq_some hfirst.symm with ⟨name, hname, herror⟩
  rw [Outcome.error?_eq_some_iff, findPeripheral_eq_error_iff] at herror
  exact ⟨name, hname, herror⟩

/-- A selection of known names is made of the peripherals with these names. -/
theorem selectPeripherals_of_known {device : Device} (hnodup : device.peripheralNames.Nodup)
    {names : List String} (hne : names ≠ [])
    (hknown : ∀ name ∈ names, name ∈ device.peripheralNames) :
    selectPeripherals device names = .ok (namedPeripherals device names) := by
  have hempty : names.isEmpty = false := by simpa using hne
  rw [selectPeripherals, hempty]
  cases hfound : names.eraseDups.mapM (findPeripheral device) with
  | error e =>
      rcases exists_unknown hfound with ⟨name, hname, hunknown, -⟩
      exact absurd (hknown name (List.mem_eraseDups.mp hname)) hunknown
  | ok found =>
      have hnames : ((namedPeripherals device names).map (·.name)).Nodup :=
        (((sortByName_perm device.peripherals).map _).nodup_iff.mpr hnodup).sublist
          (List.filter_sublist.map _)
      have hsorted : namedPeripherals device names = sortByName (namedPeripherals device names) :=
        eq_sortByName hnames .rfl ((sortByName_sorted device.peripherals).filter _)
      rw [hsorted, ← sortByName_eq_of_perm hnames (namedPeripherals_perm hnodup hfound)]
      rfl

/-- A selection with an unknown name is refused. -/
theorem selectPeripherals_of_unknown {device : Device} {names : List String} {name : String}
    (hname : name ∈ names) (hunknown : name ∉ device.peripheralNames) :
    ∃ unknown, selectPeripherals device names = .error ⟨unknown, device.peripheralNames⟩ := by
  have hempty : names.isEmpty = false := by simpa using List.ne_nil_of_mem hname
  rw [selectPeripherals, hempty]
  cases hfound : names.eraseDups.mapM (findPeripheral device) with
  | error e =>
      rcases exists_unknown hfound with ⟨unknown, -, -, rfl⟩
      exact ⟨unknown, rfl⟩
  | ok found =>
      obtain ⟨p, -, hp⟩ := Outcome.exists_mem_right (Outcome.mapM_eq_ok_iff.mp hfound)
        (List.mem_eraseDups.mpr hname)
      rw [findPeripheral_eq_error_iff.mpr ⟨hunknown, rfl⟩] at hp
      cases hp

theorem namedPeripherals_perm_eq {device other : Device}
    (hperm : device.peripherals.Perm other.peripherals) (hnodup : other.peripheralNames.Nodup)
    {names others : List String} (hnames : ∀ name, name ∈ names ↔ name ∈ others) :
    namedPeripherals device names = namedPeripherals other others := by
  rw [namedPeripherals, namedPeripherals, sortByName_eq_of_perm hnodup hperm]
  refine List.filter_congr fun p _ => ?_
  simp only [List.contains_eq_mem, hnames]

/-- The order of a device and that of the selected names do not count in a selection. -/
theorem selectPeripherals_perm {device other : Device}
    (hperm : device.peripherals.Perm other.peripherals) (hnodup : device.peripheralNames.Nodup)
    {names others : List String} (hnames : ∀ name, name ∈ names ↔ name ∈ others) :
    (∃ selected, selectPeripherals device names = .ok selected ∧
        selectPeripherals other others = .ok selected) ∨
      ∃ e e', selectPeripherals device names = .error e ∧
        selectPeripherals other others = .error e' ∧ e.validNames.Perm e'.validNames := by
  have hvalid : device.peripheralNames.Perm other.peripheralNames := hperm.map _
  have hnodup' := hvalid.nodup_iff.mp hnodup
  by_cases hempty : names = []
  · have hempty' : others = [] := by
      refine List.eq_nil_iff_forall_not_mem.mpr fun name hname => ?_
      simpa [hempty] using (hnames name).mpr hname
    rw [hempty, hempty']
    exact .inl ⟨_, rfl, congrArg Except.ok (sortByName_eq_of_perm hnodup' hperm).symm⟩
  · have hempty' : others ≠ [] := by
      rcases List.exists_mem_of_ne_nil _ hempty with ⟨name, hname⟩
      exact List.ne_nil_of_mem ((hnames name).mp hname)
    by_cases hknown : ∀ name ∈ names, name ∈ device.peripheralNames
    · have hknown' : ∀ name ∈ others, name ∈ other.peripheralNames := by
        intro name hname
        exact hvalid.mem_iff.mp (hknown name ((hnames name).mpr hname))
      rw [selectPeripherals_of_known hnodup hempty hknown,
        selectPeripherals_of_known hnodup' hempty' hknown',
        namedPeripherals_perm_eq hperm hnodup' hnames]
      exact .inl ⟨_, rfl, rfl⟩
    · simp only [not_forall, exists_prop] at hknown
      rcases hknown with ⟨name, hname, hunknown⟩
      rcases selectPeripherals_of_unknown hname hunknown with ⟨unknown, herror⟩
      have hunknown' : name ∉ other.peripheralNames :=
        fun hmem => hunknown (hvalid.mem_iff.mpr hmem)
      rcases selectPeripherals_of_unknown ((hnames name).mp hname) hunknown' with
        ⟨unknown', herror'⟩
      exact .inr ⟨_, _, herror, herror', hvalid⟩

end RegisterMap.Export
