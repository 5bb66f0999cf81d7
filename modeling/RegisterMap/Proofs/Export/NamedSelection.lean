import Mathlib.Data.List.Nodup
import Mathlib.Data.List.Perm.Basic
import RegisterMap.Proofs.Export.Selection

/-!
# Selections and repeated names

A selection by name looks each name up in a dictionary, in which a later peripheral
takes the place of an earlier one of its name.  The empty selection does no such
search, so it keeps every peripheral.  The two paths agree as long as no selected
name is that of two peripherals, and part at the first device in which one is.
-/

namespace RegisterMap.Export

open RegisterMap.Model RegisterMap.Report

/-! ## The last peripheral of a name -/

/-- The peripheral of a device that a search for its name finds: no later one has the name. -/
def LastNamed (device : Device) (p : Peripheral) : Prop :=
  ∃ front back, device.peripherals = front ++ p :: back ∧ ∀ q ∈ back, q.name ≠ p.name

namespace LastNamed

variable {device : Device} {p : Peripheral}

theorem mem (h : LastNamed device p) : p ∈ device.peripherals := by
  obtain ⟨front, back, hsplit, -⟩ := h
  simp [hsplit]

/-- Without a repeated name, every peripheral is the last one of its name. -/
theorem of_mem (hp : p ∈ device.peripherals) (honce : device.peripheralNames.count p.name ≤ 1) :
    LastNamed device p := by
  obtain ⟨front, back, hsplit⟩ := List.append_of_mem hp
  refine ⟨front, back, hsplit, fun q hq hname => ?_⟩
  have hagain : 0 < (back.map (·.name)).count p.name :=
    List.count_pos_iff.mpr (List.mem_map.mpr ⟨q, hq, hname⟩)
  simp only [Device.peripheralNames, hsplit, List.map_append, List.map_cons, List.count_append,
    List.count_cons_self] at honce
  omega

end LastNamed

theorem findPeripheral_eq_ok_iff_lastNamed {device : Device} {name : String} {p : Peripheral} :
    findPeripheral device name = .ok p ↔ p.name = name ∧ LastNamed device p := by
  have hfind : findPeripheral device name = .ok p ↔
      device.peripherals.reverse.find? (·.name == name) = some p := by
    unfold findPeripheral
    cases device.peripherals.reverse.find? (·.name == name) <;> simp
  rw [hfind, List.find?_eq_some_iff_append]
  constructor
  · rintro ⟨hname, behind, ahead, hsplit, hlater⟩
    have hname : p.name = name := by simpa using hname
    refine ⟨hname, ahead.reverse, behind.reverse, ?_, fun q hq => ?_⟩
    · rw [← List.reverse_reverse device.peripherals, hsplit]
      simp
    · simpa [hname] using hlater q (List.mem_reverse.mp hq)
  · rintro ⟨rfl, front, back, hsplit, hlater⟩
    refine ⟨by simp, back.reverse, front.reverse, by simp [hsplit], fun q hq => ?_⟩
    simpa using hlater q (List.mem_reverse.mp hq)

/-! ## Refused selections -/

/-- Names at which a search finds nothing can be dropped from it. -/
theorem findSome?_filter_ne {β : Type} {f : String → Option β} {name : String}
    (hname : f name = none) (names : List String) :
    (names.filter fun other => !(other == name)).findSome? f = names.findSome? f := by
  induction names with
  | nil => rfl
  | cons other names ih =>
      by_cases hcopy : other = name
      · simp [hcopy, hname, ih]
      · simp [hcopy, List.findSome?_cons, ih]

theorem findSome?_eraseDups {β : Type} (f : String → Option β) (names : List String) :
    names.eraseDups.findSome? f = names.findSome? f := by
  induction names using eraseDups_induction with
  | nil => rfl
  | cons name names ih =>
      rw [List.eraseDups_cons, List.findSome?_cons, List.findSome?_cons, ih]
      cases hname : f name with
      | some b => rfl
      | none => exact findSome?_filter_ne hname names

/-- The first selected name that no peripheral has, with the names there are. -/
def FirstUnknown (device : Device) (names : List String) (e : UnknownPeripheral) : Prop :=
  e.validNames = device.peripheralNames ∧ e.name ∉ device.peripheralNames ∧
    ∃ front back, names = front ++ e.name :: back ∧ ∀ name ∈ front, name ∈ device.peripheralNames

theorem error?_findPeripheral_eq_none_iff {device : Device} {name : String} :
    Outcome.error? (findPeripheral device name) = none ↔ name ∈ device.peripheralNames := by
  by_contra hdiffers
  cases hfound : findPeripheral device name with
  | error e => simp [hfound, Outcome.error?, (findPeripheral_eq_error_iff.mp hfound).1] at hdiffers
  | ok p =>
      obtain ⟨rfl, hlast⟩ := findPeripheral_eq_ok_iff_lastNamed.mp hfound
      have hmem : p.name ∈ device.peripheralNames := List.mem_map.mpr ⟨p, hlast.mem, rfl⟩
      simp [hfound, Outcome.error?, hmem] at hdiffers

theorem selectPeripherals_eq_error_iff {device : Device} {names : List String}
    (hne : names ≠ []) {e : UnknownPeripheral} :
    selectPeripherals device names = .error e ↔ FirstUnknown device names e := by
  have hempty : names.isEmpty = false := by simpa using hne
  have hsearch : selectPeripherals device names = .error e ↔
      names.eraseDups.mapM (findPeripheral device) = .error e := by
    rw [selectPeripherals, hempty]
    cases names.eraseDups.mapM (findPeripheral device) <;>
      simp [bind, Except.bind, pure, Except.pure]
  have hfirst : Outcome.error? (names.eraseDups.mapM (findPeripheral device)) =
      (names.eraseDups.flatMap fun name => [name]).findSome? fun name =>
        Outcome.error? (findPeripheral device name) :=
    Outcome.error?_mapM fun name _ => by simp only [List.findSome?_singleton]
  rw [List.flatMap_singleton', findSome?_eraseDups] at hfirst
  rw [hsearch, ← Outcome.error?_eq_some_iff, hfirst, List.findSome?_eq_some_iff]
  simp only [Outcome.error?_eq_some_iff, error?_findPeripheral_eq_none_iff,
    findPeripheral_eq_error_iff]
  constructor
  · rintro ⟨front, name, back, hsplit, ⟨hunknown, rfl⟩, hknown⟩
    exact ⟨rfl, hunknown, front, back, hsplit, hknown⟩
  · rintro ⟨hvalid, hunknown, front, back, hsplit, hknown⟩
    exact ⟨front, e.name, back, hsplit, ⟨hunknown, by rw [← hvalid]⟩, hknown⟩

/-! ## Granted selections -/

section Granted

variable {device : Device} {names : List String} {selected : List Peripheral}

/-- A selection by name holds one peripheral for each name, the last one of the name. -/
theorem selectPeripherals_eq_ok_iff_found (hne : names ≠ []) :
    selectPeripherals device names = .ok selected ↔
      ∃ found, names.eraseDups = found.map (·.name) ∧ (∀ p ∈ found, LastNamed device p) ∧
        sortByName found = selected := by
  have hempty : names.isEmpty = false := by simpa using hne
  have heach : ∀ found, names.eraseDups.mapM (findPeripheral device) = .ok found ↔
      names.eraseDups = found.map (·.name) ∧ ∀ p ∈ found, LastNamed device p := by
    intro found
    rw [Outcome.mapM_eq_ok_iff]
    simp only [findPeripheral_eq_ok_iff_lastNamed]
    rw [← List.forall₂_eq_eq_eq, List.forall₂_map_right_iff]
    constructor
    · intro h
      refine ⟨h.imp fun _ _ h => h.1.symm, fun p hp => ?_⟩
      obtain ⟨name, -, -, hlast⟩ := Outcome.exists_mem_left h hp
      exact hlast
    · intro ⟨h, hlast⟩
      exact Outcome.forall₂_imp_of_mem h fun _ _ p hp hname => ⟨hname.symm, hlast p hp⟩
  rw [selectPeripherals, hempty]
  simp only [Bool.false_eq_true, if_false, Outcome.bind_eq_ok_iff, Outcome.pure_eq_ok_iff, heach,
    and_assoc]

theorem mem_selectPeripherals_iff (hne : names ≠ [])
    (h : selectPeripherals device names = .ok selected) {p : Peripheral} :
    p ∈ selected ↔ p.name ∈ names ∧ LastNamed device p := by
  obtain ⟨found, hnames, hlast, rfl⟩ := (selectPeripherals_eq_ok_iff_found hne).mp h
  rw [(sortByName_perm found).mem_iff]
  constructor
  · intro hp
    refine ⟨List.mem_eraseDups.mp ?_, hlast p hp⟩
    rw [hnames]
    exact List.mem_map_of_mem hp
  · intro ⟨hname, hp⟩
    have hname := List.mem_eraseDups.mpr hname
    rw [hnames] at hname
    obtain ⟨q, hq, heq⟩ := List.mem_map.mp hname
    have hfound := findPeripheral_eq_ok_iff_lastNamed.mpr ⟨heq, hlast q hq⟩
    rw [findPeripheral_eq_ok_iff_lastNamed.mpr ⟨rfl, hp⟩] at hfound
    cases hfound
    exact hq

/-- A selection by name comes in the order of the names, each of them once. -/
theorem selectPeripherals_names_increase (hne : names ≠ [])
    (h : selectPeripherals device names = .ok selected) :
    selected.Pairwise fun p q => p.name < q.name := by
  obtain ⟨found, hnames, -, rfl⟩ := (selectPeripherals_eq_ok_iff_found hne).mp h
  have hdistinct : ((sortByName found).map (·.name)).Nodup := by
    rw [((sortByName_perm found).map _).nodup_iff, ← hnames]
    exact nodup_eraseDups names
  refine (sortByName_sorted found).imp₂ ?_ (List.pairwise_map.mp hdistinct)
  intro p q hle hne
  exact String.not_le.mp fun hback => hne (String.le_antisymm hle hback)

/-- The peripherals with a selected name have different names exactly if no selected name
is that of two peripherals. -/
theorem nodup_named_iff :
    ((device.peripherals.filter fun p => names.contains p.name).map (·.name)).Nodup ↔
      ∀ name ∈ names, device.peripheralNames.count name ≤ 1 := by
  have hfilter : (device.peripherals.filter fun p => names.contains p.name).map (·.name) =
      device.peripheralNames.filter fun name => names.contains name := by
    rw [Device.peripheralNames, List.filter_map]
    rfl
  rw [hfilter, List.nodup_iff_count_le_one]
  constructor
  · intro h name hname
    rw [← List.count_filter (p := fun name => names.contains name) (by simpa using hname)]
    exact h name
  · intro h name
    by_cases hname : name ∈ names
    · rw [List.count_filter (by simpa using hname)]
      exact h name hname
    · have habsent : name ∉ device.peripheralNames.filter fun name => names.contains name := by
        simp [hname]
      rw [List.count_eq_zero_of_not_mem habsent]
      exact Nat.zero_le 1

/-- A selection by name holds each peripheral with a selected name exactly if no selected
name is that of two peripherals. -/
theorem selectPeripherals_perm_named_iff (hne : names ≠ [])
    (h : selectPeripherals device names = .ok selected) :
    selected.Perm (device.peripherals.filter fun p => names.contains p.name) ↔
      ∀ name ∈ names, device.peripheralNames.count name ≤ 1 := by
  have hdistinct : (selected.map (·.name)).Nodup :=
    List.pairwise_map.mpr ((selectPeripherals_names_increase hne h).imp String.ne_of_lt)
  rw [← nodup_named_iff]
  constructor
  · intro hperm
    exact (hperm.map _).nodup_iff.mp hdistinct
  · intro hnamed
    refine (List.perm_ext_iff_of_nodup (.of_map _ hdistinct) (.of_map _ hnamed)).mpr fun p => ?_
    rw [mem_selectPeripherals_iff hne h, List.mem_filter, List.contains_iff_mem]
    constructor
    · intro ⟨hname, hlast⟩
      exact ⟨hlast.mem, hname⟩
    · intro ⟨hp, hname⟩
      exact ⟨hname, .of_mem hp (nodup_named_iff.mp hnamed _ hname)⟩

end Granted

/-- The selection of all names is the empty selection exactly if no name is repeated. -/
theorem selectPeripherals_all_names_iff {device : Device} {names : List String}
    (hne : names ≠ []) (hall : ∀ name, name ∈ names ↔ name ∈ device.peripheralNames) :
    selectPeripherals device names = selectPeripherals device [] ↔
      device.peripheralNames.Nodup := by
  constructor
  · intro hsame
    have hok : selectPeripherals device names = .ok (sortByName device.peripherals) := hsame
    have hdistinct : ((sortByName device.peripherals).map (·.name)).Nodup :=
      List.pairwise_map.mpr ((selectPeripherals_names_increase hne hok).imp String.ne_of_lt)
    exact ((sortByName_perm device.peripherals).map _).nodup_iff.mp hdistinct
  · intro hnodup
    have hnamed : namedPeripherals device names = sortByName device.peripherals := by
      refine List.filter_eq_self.mpr fun p hp => ?_
      have hp := (sortByName_perm device.peripherals).mem_iff.mp hp
      simpa using (hall p.name).mpr (List.mem_map.mpr ⟨p, hp, rfl⟩)
    rw [selectPeripherals_of_known hnodup hne fun name hname => (hall name).mp hname, hnamed]
    rfl

/-- What a selection by name gives.  It is refused exactly at the first selected name that
no peripheral has.  Otherwise it holds, by increasing name, the last peripheral of each
selected name; these are all peripherals with a selected name, exactly if no selected
name is that of two peripherals.  So the selection of all names is the empty one,
exactly if no two peripherals have one name. -/
theorem selectPeripherals_byName_iff {device : Device} {names : List String} (hne : names ≠ []) :
    (∀ e, selectPeripherals device names = .error e ↔ FirstUnknown device names e) ∧
      (∀ selected, selectPeripherals device names = .ok selected →
        (selected.Pairwise fun p q => p.name < q.name) ∧
        (∀ p, p ∈ selected ↔ p.name ∈ names ∧ LastNamed device p) ∧
        (selected.Perm (device.peripherals.filter fun p => names.contains p.name) ↔
          ∀ name ∈ names, device.peripheralNames.count name ≤ 1)) ∧
      ((∀ name, name ∈ names ↔ name ∈ device.peripheralNames) →
        (selectPeripherals device names = selectPeripherals device [] ↔
          device.peripheralNames.Nodup)) := by
  refine ⟨fun e => selectPeripherals_eq_error_iff hne, fun selected h => ⟨?_, fun p => ?_, ?_⟩,
    fun hall => ?_⟩
  · exact selectPeripherals_names_increase hne h
  · exact mem_selectPeripherals_iff hne h
  · exact selectPeripherals_perm_named_iff hne h
  · exact selectPeripherals_all_names_iff hne hall

/-- A device in which two peripherals are called `A`. -/
def repeatedDevice : Device :=
  { name := "Chip"
    peripherals := [{ name := "A", baseAddress := 4096 }, { name := "A", baseAddress := 8192 }] }

/-- Both peripherals have the selected name, but only the later one is selected, while the
empty selection holds both. -/
theorem selectPeripherals_byName_drops :
    selectPeripherals repeatedDevice ["A"] = .ok [{ name := "A", baseAddress := 8192 }] ∧
      selectPeripherals repeatedDevice [] = .ok repeatedDevice.peripherals := by
  constructor
  · refine (selectPeripherals_eq_ok_iff_found (by decide)).mpr
      ⟨[{ name := "A", baseAddress := 8192 }], by decide, fun p hp => ?_,
        List.mergeSort_singleton _⟩
    rw [List.mem_singleton.mp hp]
    exact ⟨[{ name := "A", baseAddress := 4096 }], [], rfl, by simp⟩
  · refine congrArg Except.ok (List.mergeSort_of_pairwise ?_)
    decide

theorem selectPeripherals_byName_iff_repeated :
    (["A", "B"] : List String) ≠ [] ∧
      selectPeripherals repeatedDevice ["A", "B"] = .error ⟨"B", ["A", "A"]⟩ := by
  have hne : (["A", "B"] : List String) ≠ [] := by decide
  refine ⟨hne, ((selectPeripherals_byName_iff hne).1 _).mpr ⟨rfl, by decide, ["A"], [], rfl, ?_⟩⟩
  decide

end RegisterMap.Export
