import RegisterMap.Proofs.Derivation.PrintedReference
import RegisterMap.Proofs.Description.Words

/-!
# Lexical lookup

The first name of a path in source text is bound in the innermost scope that has a
type of this name, and the other names are looked up inside that type only.
Validation looks for the whole path in each scope instead.  So the two agree exactly
if no scope closer to the reference has a type of its first name.
-/

namespace RegisterMap.Derivation

open RegisterMap.Model RegisterMap.Swift
open RegisterMap.Description (decodeDevice deviceDocument groupNode textNode)

/-! ## Declared types -/

/-- The names on the way to each type of a device: peripherals, clusters and their registers. -/
def declaredPaths (device : Device) : List (List String) :=
  (device.peripherals.flatMap fun p =>
      [p.name] :: (p.registers.getD []).map fun r => [p.name, r.name]) ++
    (deviceClusters device).flatMap fun (path, c) =>
      path :: (c.registers.getD []).map fun r => path ++ [r.name]

def declaredTypes (device : Device) : List (List String) :=
  (declaredPaths device).map typePath

/-- The type to which some names lead, each of them inside the type before it. -/
def descend (types : List (List String)) (type : List String) : List String → Option (List String)
  | [] => some type
  | name :: rest =>
      if type ++ [name] ∈ types then descend types (type ++ [name]) rest else none

/--
The type that a path names in a scope: its first name is bound in the innermost scope
that has a type of this name, and the others are looked up strictly inside.
-/
def lexicalLookup (types : List (List String)) (scope : List String) :
    List String → Option (List String)
  | [] => none
  | name :: rest => (resolveIn types scope [name]).bind (descend types · rest)

/--
A scope around a reference has a type of its first name, but neither there nor further
in is there a cluster that the whole reference names.
-/
def Shadowed (device : Device) (scope target : List String) : Prop :=
  ∃ closer, closer <+: scope ∧ closer ++ target.take 1 ∈ declaredTypes device ∧
    ∀ longer, closer <+: longer → longer <+: scope → longer ++ target ∉ clusterTypes device

theorem descend_eq_some {types : List (List String)} {type rest found : List String} :
    descend types type rest = some found ↔
      found = type ++ rest ∧ ∀ front, front <+: rest → front ≠ [] → type ++ front ∈ types := by
  induction rest generalizing type with
  | nil => simp [descend, eq_comm]
  | cons name rest ih =>
      rw [descend]
      split
      · rename_i hname
        rw [ih, List.append_assoc, List.singleton_append]
        refine and_congr_right fun _ => ?_
        constructor
        · intro hinside front hfront hne
          obtain ⟨first, front, rfl⟩ := List.exists_cons_of_ne_nil hne
          obtain ⟨rfl, htail⟩ := List.cons_prefix_cons.mp hfront
          by_cases hempty : front = []
          · rwa [hempty]
          · simpa using hinside front htail hempty
        · intro hinside front hfront _
          simpa using hinside (name :: front) (List.cons_prefix_cons.mpr ⟨rfl, hfront⟩) (by simp)
      · rename_i hname
        constructor
        · intro h
          cases h
        · rintro ⟨-, hinside⟩
          exact absurd (hinside [name] (by simp) (by simp)) hname

theorem lexicalLookup_eq_some {types : List (List String)} {scope rest found : List String}
    {name : String} :
    lexicalLookup types scope (name :: rest) = some found ↔
      ∃ outer, outer <+: scope ∧ found = outer ++ name :: rest ∧
        (∀ front, front <+: rest → outer ++ name :: front ∈ types) ∧
        ∀ longer, longer <+: scope → longer ++ [name] ∈ types →
          longer.length ≤ outer.length := by
  rw [lexicalLookup, Option.bind_eq_some_iff]
  constructor
  · rintro ⟨bound, hbound, hfound⟩
    rcases resolveIn_eq_some.mp hbound with ⟨outer, houter, rfl, hname, hlongest⟩
    rcases descend_eq_some.mp hfound with ⟨rfl, hinside⟩
    refine ⟨outer, houter, by simp, ?_, hlongest⟩
    intro front hfront
    by_cases hempty : front = []
    · rwa [hempty]
    · simpa using hinside front hfront hempty
  · rintro ⟨outer, houter, rfl, hinside, hlongest⟩
    have hname := hinside [] List.nil_prefix
    refine ⟨outer ++ [name], resolveIn_eq_some.mpr ⟨outer, houter, rfl, hname, hlongest⟩, ?_⟩
    refine descend_eq_some.mpr ⟨by simp, ?_⟩
    intro front hfront _
    simpa using hinside front hfront

/-! ## Types around a cluster -/

theorem mem_deviceClusters {device : Device} {path : List String} {c : Cluster} :
    (path, c) ∈ deviceClusters device ↔ ∃ place, clusterAt? device place = some (path, c) := by
  simp only [← map_snd_placedClusters, List.mem_map, Prod.exists,
    (isPreorder_placedClusters device).mem_iff]
  simp

theorem prefix_of_clusterBelow? {scope path : List String} {c d : Cluster} {place : List Nat}
    (h : clusterBelow? scope c place = some (path, d)) : scope ++ [c.name] <+: path := by
  induction place generalizing scope c with
  | nil =>
      obtain ⟨rfl, -⟩ := Prod.mk.inj (Option.some.inj h)
      exact List.prefix_rfl
  | cons i place ih =>
      rcases Option.bind_eq_some_iff.mp h with ⟨b, -, hbelow⟩
      exact (List.prefix_append _ [b.name]).trans (ih hbelow)

theorem exists_clusterBelow?_of_prefix {scope path front : List String} {c d : Cluster}
    {place : List Nat} (h : clusterBelow? scope c place = some (path, d))
    (hfront : front <+: path) (hlonger : scope.length < front.length) :
    ∃ place d, clusterBelow? scope c place = some (front, d) := by
  by_cases hown : front.length = scope.length + 1
  · have hlength : front.length = (scope ++ [c.name]).length := by simp [hown]
    have hsame := List.prefix_of_prefix_length_le hfront (prefix_of_clusterBelow? h) hlength.le
    obtain rfl := hsame.eq_of_length hlength
    exact ⟨[], c, rfl⟩
  · cases place with
    | nil =>
        obtain ⟨rfl, -⟩ := Prod.mk.inj (Option.some.inj h)
        have hle := hfront.length_le
        rw [List.length_append, List.length_singleton] at hle
        omega
    | cons i place =>
        rcases Option.bind_eq_some_iff.mp h with ⟨b, hb, hbelow⟩
        have hinside : (scope ++ [c.name]).length < front.length := by
          rw [List.length_append, List.length_singleton]
          omega
        rcases exists_clusterBelow?_of_prefix hbelow hfront hinside with ⟨place, e, he⟩
        exact ⟨i :: place, e, Option.bind_eq_some_iff.mpr ⟨b, hb, he⟩⟩

/-- Whatever stands on the way to a cluster is declared. -/
theorem mem_declaredPaths_of_isPrefix {device : Device} {place : List Nat}
    {path front : List String} {c : Cluster} (h : clusterAt? device place = some (path, c))
    (hfront : front <+: path) (hne : front ≠ []) : front ∈ declaredPaths device := by
  match place with
  | [] => cases h
  | [_] =>
      rcases Option.bind_eq_some_iff.mp h with ⟨p, -, hnone⟩
      cases hnone
  | i :: j :: place =>
      rcases Option.bind_eq_some_iff.mp h with ⟨p, hp, hamong⟩
      rcases Option.bind_eq_some_iff.mp hamong with ⟨b, hb, hbelow⟩
      by_cases hlonger : [p.name].length < front.length
      · rcases exists_clusterBelow?_of_prefix hbelow hfront hlonger with ⟨place, d, hd⟩
        have hat : clusterAt? device (i :: j :: place) = some (front, d) :=
          Option.bind_eq_some_iff.mpr ⟨p, hp, Option.bind_eq_some_iff.mpr ⟨b, hb, hd⟩⟩
        refine List.mem_append_right _ (List.mem_flatMap.mpr ⟨(front, d), ?_, List.mem_cons_self⟩)
        exact mem_deviceClusters.mpr ⟨_, hat⟩
      · have hscope : [p.name] <+: path :=
          (List.prefix_append _ _).trans (prefix_of_clusterBelow? hbelow)
        have hlength : front.length = [p.name].length :=
          Nat.le_antisymm (Nat.not_lt.mp hlonger) (List.length_pos_of_ne_nil hne)
        have hsame := List.prefix_of_prefix_length_le hfront hscope hlength.le
        obtain rfl := hsame.eq_of_length hlength
        exact List.mem_append_left _
          (List.mem_flatMap.mpr ⟨p, List.mem_of_getElem? hp, List.mem_cons_self⟩)

theorem mem_declaredTypes_of_isPrefix {device : Device} {type front : List String}
    (htype : type ∈ clusterTypes device) (hfront : front <+: type) (hne : front ≠ []) :
    front ∈ declaredTypes device := by
  rcases mem_clusterTypes.mp htype with ⟨place, path, c, hat, rfl⟩
  rw [List.prefix_iff_eq_take.mp hfront, typePath, ← List.map_take] at hne ⊢
  refine List.mem_map_of_mem (mem_declaredPaths_of_isPrefix hat (List.take_prefix _ _) ?_)
  simpa using hne

/-! ## Both lookups -/

variable {device : Device} {scope target found : List String}

/-- What validation finds is what lexical lookup finds, unless the first name is shadowed. -/
theorem LeadsTo.lexicalLookup_iff (h : LeadsTo device scope target found) (hne : target ≠ []) :
    lexicalLookup (declaredTypes device) scope target = some found ↔
      ¬Shadowed device scope target := by
  obtain ⟨name, rest, rfl⟩ := List.exists_cons_of_ne_nil hne
  rcases h with ⟨outer, houter, rfl, htype, hlongest⟩
  rw [lexicalLookup_eq_some]
  constructor
  · rintro ⟨outer', houter', heq, -, hinnermost⟩ ⟨closer, hcloser, hname, hnone⟩
    obtain rfl := List.append_cancel_right heq
    have hle := hinnermost closer hcloser hname
    have hinside := List.prefix_of_prefix_length_le hcloser houter hle
    exact hnone outer hinside houter (mem_clusterTypes.mpr htype)
  · intro hclear
    refine ⟨outer, houter, rfl, ?_, ?_⟩
    · intro front hfront
      have hprefix : outer ++ name :: front <+: outer ++ name :: rest :=
        (List.prefix_append_right_inj outer).mpr (List.cons_prefix_cons.mpr ⟨rfl, hfront⟩)
      exact mem_declaredTypes_of_isPrefix (mem_clusterTypes.mpr htype) hprefix (by simp)
    · intro closer hcloser hname
      by_contra hlonger
      refine hclear ⟨closer, hcloser, hname, ?_⟩
      intro longer hcover hlonger' hcluster
      have hle := hlongest longer hlonger' (mem_clusterTypes.mp hcluster)
      have hcovered := hcover.length_le
      omega

/-- If lexical lookup finds a cluster at all, validation finds the same one. -/
theorem LeadsTo.eq_of_lexicalLookup (h : LeadsTo device scope target found) {other : List String}
    (hother : lexicalLookup (declaredTypes device) scope target = some other)
    (hcluster : other ∈ clusterTypes device) : other = found := by
  cases target with
  | nil => cases hother
  | cons name rest =>
      rcases h with ⟨outer, houter, rfl, htype, hlongest⟩
      rcases lexicalLookup_eq_some.mp hother with ⟨outer', houter', rfl, -, hinnermost⟩
      have hname : outer ++ [name] ∈ declaredTypes device := by
        have hprefix : outer ++ [name] <+: outer ++ name :: rest := by simp
        exact mem_declaredTypes_of_isPrefix (mem_clusterTypes.mpr htype) hprefix (by simp)
      have hlength : outer'.length = outer.length :=
        Nat.le_antisymm (hlongest outer' houter' (mem_clusterTypes.mp hcluster))
          (hinnermost outer houter hname)
      have hsame := List.prefix_of_prefix_length_le houter' houter hlength.le
      rw [hsame.eq_of_length hlength]

/--
In a device that passes validation, the reference of every derived cluster resolves to
the type that lexical lookup gives for the printed alias exactly if no scope closer to
the cluster shadows its first name.  If lexical lookup gives any cluster, it is that one.
-/
theorem validate_lexicalLookup_iff (h : validate device = .ok ()) {place : List Nat}
    {path : List String} {c : Cluster} {reference : String}
    (hc : clusterAt? device place = some (path, c)) (hreference : c.derivedFrom = some reference) :
    let scope := typePath path.dropLast
    let printed := components (aliasTarget reference)
    ∃ found, resolveIn (clusterTypes device) scope (referencePath reference) = some found ∧
      (lexicalLookup (declaredTypes device) scope printed = some found ↔
        ¬Shadowed device scope printed) ∧
      ∀ other ∈ clusterTypes device,
        lexicalLookup (declaredTypes device) scope printed = some other → other = found := by
  intro scope printed
  have hprinted : printed = referencePath reference := components_aliasTarget reference
  rcases (resolves_of_validate h).2 place path c hc reference hreference with
    ⟨found, hleads, -⟩
  rw [← referencePath_eq] at hleads
  refine ⟨found, resolveIn_eq_some_iff.mpr hleads, ?_, ?_⟩
  · rw [hprinted]
    exact hleads.lexicalLookup_iff (referencePath_ne_nil reference)
  · rw [hprinted]
    exact fun other hcluster hother => hleads.eq_of_lexicalLookup hother hcluster

/-! ### A channel with the name of a peripheral -/

def derivedChannel : Cluster where
  name := "A"
  addressOffset := 0x10
  derivedFrom := some "CH.CTRL"

/-- The reference is meant for the cluster of the second peripheral. -/
def channelDevice (sibling : String) : Device where
  name := "D"
  peripherals := [
    { name := "DMA", baseAddress := 0x1000, registers := some [],
      clusters := some [{ name := sibling, addressOffset := 0 }, derivedChannel] },
    { name := "CH", baseAddress := 0x2000, registers := some [],
      clusters := some [{ name := "CTRL", addressOffset := 0 }] }]

/-- The cluster next to the derived one has the name that its reference begins with. -/
def shadowedDocument : Xml.Element :=
  deviceDocument "D" [
    groupNode "peripheral" [
      textNode "name" "DMA", textNode "baseAddress" "0x1000",
      groupNode "registers" [
        groupNode "cluster" [textNode "name" "CH", textNode "addressOffset" "0"],
        .element (.mk ⟨none, "cluster"⟩ [⟨⟨none, "derivedFrom"⟩, "CH.CTRL"⟩] 1 [
          textNode "name" "A", textNode "addressOffset" "0x10"])]],
    groupNode "peripheral" [
      textNode "name" "CH", textNode "baseAddress" "0x2000",
      groupNode "registers" [
        groupNode "cluster" [textNode "name" "CTRL", textNode "addressOffset" "0"]]]]

theorem validate_channelDevice {sibling : String}
    (h : danglingElements (channelDevice sibling) = []) :
    validate (channelDevice sibling) = .ok () := by
  refine validate_of_reachable h (unreachable_eq_nil_iff.mpr ?_)
  intro p hp
  refine .definition ?_
  rcases List.mem_cons.mp hp with rfl | hp
  · rfl
  · obtain rfl := List.mem_singleton.mp hp
    rfl

theorem not_shadowed_channelDevice :
    ¬Shadowed (channelDevice "TX") (typePath ["DMA"]) (components (aliasTarget "CH.CTRL")) := by
  have hprinted : components (aliasTarget "CH.CTRL") = ["CH", "CTRL"] := by
    rw [components_aliasTarget]
    rfl
  rw [hprinted]
  rintro ⟨closer, hcloser, hname, hnone⟩
  obtain rfl | rfl : closer = [] ∨ closer = ["DMA"] := by
    rcases List.prefix_cons_iff.mp hcloser with rfl | ⟨front, rfl, hfront⟩
    · exact .inl rfl
    · exact .inr (congrArg _ (List.prefix_nil.mp hfront))
  · exact hnone [] List.prefix_rfl List.nil_prefix (by decide)
  · exact absurd hname (by decide)

theorem validate_lexicalLookup_iff_channel :
    validate (channelDevice "TX") = .ok () ∧
      clusterAt? (channelDevice "TX") [0, 1] = some (["DMA", "A"], derivedChannel) ∧
      lexicalLookup (declaredTypes (channelDevice "TX")) (typePath ["DMA"])
        (components (aliasTarget "CH.CTRL")) = some ["CH", "CTRL"] := by
  have hvalid : validate (channelDevice "TX") = .ok () := validate_channelDevice rfl
  have hat : clusterAt? (channelDevice "TX") [0, 1] = some (["DMA", "A"], derivedChannel) := rfl
  rcases validate_lexicalLookup_iff hvalid hat rfl with ⟨found, hfound, hlookup, -⟩
  obtain rfl : ["CH", "CTRL"] = found := Option.some.inj hfound
  exact ⟨hvalid, hat, hlookup.mpr not_shadowed_channelDevice⟩

/-- A sibling that shadows the first name of a reference makes lexical lookup fail. -/
theorem validate_accepts_shadowed :
    decodeDevice shadowedDocument = .ok (channelDevice "CH") ∧
      validate (channelDevice "CH") = .ok () ∧
      clusterAt? (channelDevice "CH") [0, 1] = some (["DMA", "A"], derivedChannel) ∧
      derivedChannel.derivedFrom = some "CH.CTRL" ∧
      resolveIn (clusterTypes (channelDevice "CH")) (typePath ["DMA"])
        (referencePath "CH.CTRL") = some ["CH", "CTRL"] ∧
      lexicalLookup (declaredTypes (channelDevice "CH")) (typePath ["DMA"])
        (components (aliasTarget "CH.CTRL")) = none := by
  refine ⟨rfl, validate_channelDevice rfl, rfl, rfl, rfl, ?_⟩
  rw [components_aliasTarget]
  rfl

end RegisterMap.Derivation
