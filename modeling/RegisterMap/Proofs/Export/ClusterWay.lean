import RegisterMap.Proofs.Derivation.Validation
import RegisterMap.Proofs.Export.Way

/-!
# Ways to clusters

References are looked up among all clusters of a device by their places, while the
export comes to elements by the ways to them.  Both tell the same clusters, under
the same names.
-/

namespace RegisterMap.Derivation

open RegisterMap.Model

def placedBelow (names : List String) (c : Cluster) (i : Nat) : Option NamedCluster :=
  (c.clusters.getD [])[i]?.map fun d => (names ++ [d.name], d)

theorem clusterBelow?_concat {scope names : List String} {c d : Cluster} {place : List Nat}
    (h : clusterBelow? scope c place = some (names, d)) (i : Nat) :
    clusterBelow? scope c (place ++ [i]) = placedBelow names d i := by
  induction place generalizing scope c with
  | nil =>
      obtain ⟨rfl, rfl⟩ := Prod.mk.inj (Option.some.inj h)
      rw [placedBelow, List.nil_append, clusterBelow?, Option.map_eq_bind]
      rfl
  | cons j place ih =>
      rcases Option.bind_eq_some_iff.mp h with ⟨b, hb, hd⟩
      rw [List.cons_append, clusterBelow?, hb]
      exact ih hd

theorem clusterAt?_concat {device : Device} {names : List String} {c : Cluster}
    {place : List Nat} (h : clusterAt? device place = some (names, c)) (i : Nat) :
    clusterAt? device (place ++ [i]) = placedBelow names c i := by
  match place with
  | [] => cases h
  | [_] =>
      rcases Option.bind_eq_some_iff.mp h with ⟨p, -, hnone⟩
      cases hnone
  | k :: j :: place =>
      rcases Option.bind_eq_some_iff.mp h with ⟨p, hp, hamong⟩
      rcases Option.bind_eq_some_iff.mp hamong with ⟨b, hb, hbelow⟩
      have hconcat := clusterBelow?_concat hbelow i
      simp only [List.cons_append, clusterAt?, hp, Option.bind_some, clusterAmong?, hb]
      exact hconcat

end RegisterMap.Derivation

namespace RegisterMap.Export

open RegisterMap.Derivation RegisterMap.Model

/-- The way to an element of a device, whether it is declared or not. -/
inductive DeviceWay (device : Device) : List Element → Prop
  | peripheral {p : Peripheral} : p ∈ device.peripherals → DeviceWay device [.peripheral p]
  | member {e : Element} {outer : List Element} {m : Member} :
      DeviceWay device (e :: outer) → m ∈ e.allMembers → DeviceWay device (.member m :: e :: outer)

/-- The names on a way, the outermost first. -/
def wayNames (way : List Element) : List String :=
  (way.map Element.name).reverse

theorem wayNames_cons (e : Element) (outer : List Element) :
    wayNames (e :: outer) = wayNames outer ++ [e.name] := by
  simp [wayNames]

theorem mem_allMembers_cluster {e : Element} {c : Cluster} :
    Member.cluster c ∈ e.allMembers ↔ c ∈ e.clusters := by
  simp [Element.allMembers_eq]

theorem DeclaredWay.deviceWay {device : Device} {p : Peripheral} {way : List Element}
    (h : DeclaredWay device p way) (hp : p ∈ device.peripherals) : DeviceWay device way := by
  induction h with
  | peripheral => exact .peripheral hp
  | member _ _ hm _ ih => exact .member ih hm

theorem DeviceWay.exists_clusterAt? {device : Device} {way : List Element}
    (h : DeviceWay device way) {c : Cluster} {outer : List Element}
    (hway : way = .member (.cluster c) :: outer) :
    ∃ place, clusterAt? device place = some (wayNames way, c) := by
  induction h generalizing c outer with
  | peripheral _ => cases hway
  | @member e outer' m houter hm ih =>
      obtain ⟨rfl⟩ := Element.member.inj (List.cons.inj hway).1
      rw [mem_allMembers_cluster] at hm
      rcases List.getElem?_of_mem hm with ⟨i, hi⟩
      rw [wayNames_cons]
      cases e with
      | peripheral p =>
          cases houter with
          | peripheral hp =>
              rcases List.getElem?_of_mem hp with ⟨k, hk⟩
              refine ⟨[k, i], ?_⟩
              simp only [Element.clusters] at hi
              simp only [clusterAt?, hk, Option.bind_some, clusterAmong?, hi]
              rfl
      | member n =>
          cases n with
          | register r => cases hm
          | cluster b =>
              rcases ih rfl with ⟨place, hplace⟩
              refine ⟨place ++ [i], ?_⟩
              simp only [Element.clusters] at hi
              rw [clusterAt?_concat hplace, placedBelow, hi]
              rfl

theorem exists_deviceWay_below {device : Device} {scope names : List String} {b c : Cluster}
    {outer : List Element} {place : List Nat}
    (hway : DeviceWay device (.member (.cluster b) :: outer)) (hscope : wayNames outer = scope)
    (h : clusterBelow? scope b place = some (names, c)) :
    ∃ outer, DeviceWay device (.member (.cluster c) :: outer) ∧
      wayNames (.member (.cluster c) :: outer) = names := by
  induction place generalizing scope b outer with
  | nil =>
      obtain ⟨rfl, rfl⟩ := Prod.mk.inj (Option.some.inj h)
      exact ⟨outer, hway, by rw [wayNames_cons, hscope]; rfl⟩
  | cons i place ih =>
      rcases Option.bind_eq_some_iff.mp h with ⟨d, hd, hbelow⟩
      have hmem : Member.cluster d ∈ (Element.member (.cluster b)).allMembers :=
        mem_allMembers_cluster.mpr (List.mem_of_getElem? hd)
      have hnames : wayNames (.member (.cluster b) :: outer) = scope ++ [b.name] := by
        rw [wayNames_cons, hscope]
        rfl
      exact ih (.member hway hmem) hnames hbelow

/-- The clusters at the places of a device are those at the ends of its ways. -/
theorem exists_clusterAt?_iff {device : Device} {names : List String} {c : Cluster} :
    (∃ place, clusterAt? device place = some (names, c)) ↔
      ∃ outer, DeviceWay device (.member (.cluster c) :: outer) ∧
        wayNames (.member (.cluster c) :: outer) = names := by
  constructor
  · rintro ⟨place, hplace⟩
    match place with
    | [] => cases hplace
    | [_] =>
        rcases Option.bind_eq_some_iff.mp hplace with ⟨p, -, hnone⟩
        cases hnone
    | k :: i :: place =>
        rcases Option.bind_eq_some_iff.mp hplace with ⟨p, hp, hamong⟩
        rcases Option.bind_eq_some_iff.mp hamong with ⟨b, hb, hbelow⟩
        have hmem : Member.cluster b ∈ (Element.peripheral p).allMembers :=
          mem_allMembers_cluster.mpr (List.mem_of_getElem? hb)
        have hway := DeviceWay.member (.peripheral (List.mem_of_getElem? hp)) hmem
        exact exists_deviceWay_below hway rfl hbelow
  · rintro ⟨outer, hway, rfl⟩
    exact hway.exists_clusterAt? rfl

end RegisterMap.Export
