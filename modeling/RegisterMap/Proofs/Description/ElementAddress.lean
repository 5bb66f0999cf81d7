import RegisterMap.Proofs.Description.ChainText
import RegisterMap.Proofs.Description.FirstFault

/-!
# Addresses of reported elements

An element of a document has an address: the places, among elements and instructions,
of the children that lead to it from the root.  Errors show the chain of the element
that they stand at.  The chains of all elements that an error can stand at are told by
their texts, so such a text and such an address belong together one by one.
-/

namespace RegisterMap.Description

open RegisterMap.Report RegisterMap.Xml

/-! ## Addresses -/

/-- The element at a place among the elements and instructions of some nodes. -/
def elementAt? : List Node → Nat → Option Element
  | [], _ => none
  | .text _ :: nodes, i => elementAt? nodes i
  | .instruction :: _, 0 => none
  | .instruction :: nodes, i + 1 => elementAt? nodes i
  | .element e :: _, 0 => some e
  | .element _ :: nodes, i + 1 => elementAt? nodes i

namespace Located

/-- The element at an address below an element. -/
def at? (l : Located) : List Nat → Option Located
  | [] => some l
  | i :: path => (elementAt? l.element.children i).bind fun e =>
      at? ⟨e, .ofElement (some i) e :: l.chain⟩ path

theorem at?_append (l : Located) (path more : List Nat) :
    l.at? (path ++ more) = (l.at? path).bind (·.at? more) := by
  induction path generalizing l with
  | nil => rfl
  | cons i path ih =>
      rw [List.cons_append, at?, at?]
      cases elementAt? l.element.children i with
      | none => rfl
      | some e => exact ih ⟨e, _⟩

/-- The chain of an element shows its address, from the inside out. -/
theorem indices_of_at? {l m : Located} {path : List Nat} (h : l.at? path = some m) :
    m.chain.filterMap (·.index) = path.reverse ++ l.chain.filterMap (·.index) := by
  induction path generalizing l with
  | nil =>
      obtain rfl := Option.some.inj h
      rfl
  | cons i path ih =>
      rw [at?, Option.bind_eq_some_iff] at h
      obtain ⟨e, -, hbelow⟩ := h
      rw [ih hbelow, List.reverse_cons, List.append_assoc]
      rfl

theorem exists_elementAt?_of_mem_childrenFrom {chain : List Link} {first : Nat}
    {nodes : List Node} {m : Located} (h : m ∈ childrenFrom chain first nodes) :
    ∃ i, elementAt? nodes i = some m.element ∧
      m.chain = .ofElement (some (first + i)) m.element :: chain := by
  induction nodes generalizing first with
  | nil => cases h
  | cons node nodes ih =>
      cases node with
      | text content => exact ih h
      | instruction =>
          obtain ⟨i, helement, hchain⟩ := ih h
          exact ⟨i + 1, helement, by rw [hchain, Nat.add_assoc, Nat.add_comm 1]⟩
      | element e =>
          rcases List.mem_cons.mp h with rfl | h
          · exact ⟨0, rfl, rfl⟩
          · obtain ⟨i, helement, hchain⟩ := ih h
            exact ⟨i + 1, helement, by rw [hchain, Nat.add_assoc, Nat.add_comm 1]⟩

/-- Every child has a place, and one more link in its chain. -/
theorem exists_at?_of_mem_children {l m : Located} (h : m ∈ l.children) :
    ∃ i, l.at? [i] = some m ∧ m.chain = .ofElement (some i) m.element :: l.chain := by
  obtain ⟨i, helement, hchain⟩ := exists_elementAt?_of_mem_childrenFrom h
  rw [Nat.zero_add] at hchain
  refine ⟨i, ?_, hchain⟩
  rw [at?, helement, Option.bind_some, ← hchain]
  rfl

end Located

/-! ## Elements that are visited -/

/-- The tags of the elements that the decoder looks for in other elements. -/
def soughtTags : List String :=
  ["peripherals", "peripheral", "registers", "register", "cluster", "fields", "field",
    "writeConstraint"]

theorem mem_childrenNamed_of_child? {l m : Located} {tag : String} (h : l.child? tag = some m) :
    m ∈ l.childrenNamed tag :=
  List.mem_of_mem_head? h

section Descent

-- What holds of the root and passes on to the children that the decoder looks for.
variable {P : Located → Prop}

theorem of_mem_childrenWithin
    (hchild : ∀ tag ∈ soughtTags, ∀ l, P l → ∀ m ∈ l.childrenNamed tag, P m)
    {container tag : String} (hcontainer : container ∈ soughtTags) (htag : tag ∈ soughtTags)
    {l m : Located} (hl : P l) (hm : m ∈ l.childrenWithin container tag) : P m := by
  rw [Located.childrenWithin] at hm
  cases hbody : l.child? container with
  | none =>
      rw [hbody] at hm
      cases hm
  | some body =>
      rw [hbody] at hm
      have hbody := hchild container hcontainer l hl body (mem_childrenNamed_of_child? hbody)
      exact hchild tag htag body hbody m hm

theorem forall_mem_registerVisits
    (hchild : ∀ tag ∈ soughtTags, ∀ l, P l → ∀ m ∈ l.childrenNamed tag, P m)
    {l : Located} (hl : P l) : ∀ v ∈ registerVisits l, P v.place := by
  intro v hv
  rw [registerVisits, List.mem_append, List.mem_map, List.mem_singleton] at hv
  rcases hv with ⟨field, hfield, rfl⟩ | rfl
  · exact of_mem_childrenWithin hchild (by decide) (by decide) hl hfield
  · exact hl

theorem forall_mem_clusterVisitsAt
    (hchild : ∀ tag ∈ soughtTags, ∀ l, P l → ∀ m ∈ l.childrenNamed tag, P m)
    {l : Located} (hl : P l) : ∀ v ∈ clusterVisitsAt l, P v.place := by
  induction l using Located.cluster_induction with
  | h l ih =>
      intro v hv
      rw [clusterVisitsAt_eq, List.mem_append, List.mem_append, List.mem_flatMap,
        List.mem_flatMap, List.mem_singleton] at hv
      rcases hv with (⟨register, hregister, hv⟩ | ⟨cluster, hcluster, hv⟩) | rfl
      · have hregister := hchild "register" (by decide) l hl register hregister
        exact forall_mem_registerVisits hchild hregister v hv
      · exact ih cluster hcluster (hchild "cluster" (by decide) l hl cluster hcluster) v hv
      · exact hl

theorem forall_mem_peripheralVisits
    (hchild : ∀ tag ∈ soughtTags, ∀ l, P l → ∀ m ∈ l.childrenNamed tag, P m)
    {l : Located} (hl : P l) : ∀ v ∈ peripheralVisits l, P v.place := by
  intro v hv
  rw [peripheralVisits, List.mem_append, List.mem_append, List.mem_flatMap, List.mem_flatMap,
    List.mem_singleton] at hv
  rcases hv with (⟨register, hregister, hv⟩ | ⟨cluster, hcluster, hv⟩) | rfl
  · have hregister := of_mem_childrenWithin hchild (by decide) (by decide) hl hregister
    exact forall_mem_registerVisits hchild hregister v hv
  · have hcluster := of_mem_childrenWithin hchild (by decide) (by decide) hl hcluster
    exact forall_mem_clusterVisitsAt hchild hcluster v hv
  · exact hl

theorem forall_mem_visits
    (hchild : ∀ tag ∈ soughtTags, ∀ l, P l → ∀ m ∈ l.childrenNamed tag, P m)
    {root : Element} (hroot : P (.root root)) : ∀ v ∈ visits root, P v.place := by
  intro v hv
  rw [visits, List.mem_cons, List.mem_flatMap] at hv
  rcases hv with rfl | ⟨peripheral, hperipheral, hv⟩
  · exact hroot
  · have hperipheral := of_mem_childrenWithin hchild (by decide) (by decide) hroot hperipheral
    exact forall_mem_peripheralVisits hchild hperipheral v hv

end Descent

/-! ## Elements that are reported -/

/-- True of a place below a root, with links that have lettered tags only. -/
structure Placed (root : Element) (l : Located) : Prop where
  address : ∃ path, (Located.root root).at? path = some l
  lettered : ∀ link ∈ l.chain, link.Lettered

theorem lettered_ofElement {e : Element} {tag : String} (h : e.hasTag tag = true)
    (htag : ∀ c ∈ tag.toList, c.isAlpha = true) (index : Option Nat) :
    (Link.ofElement index e).Lettered := by
  have hname : e.name = ⟨none, tag⟩ := beq_iff_eq.mp h
  intro c hc
  rw [Link.ofElement, hname] at hc
  exact htag c hc

theorem Placed.root {root : Element} (hroot : root.hasTag "device" = true) :
    Placed root (.root root) where
  address := ⟨[], rfl⟩
  lettered link hlink := by
    rw [List.mem_singleton.mp hlink]
    exact lettered_ofElement hroot (by simp) none

theorem Placed.child {root : Element} {tag : String} (htag : tag ∈ soughtTags) {l m : Located}
    (hl : Placed root l) (hm : m ∈ l.childrenNamed tag) : Placed root m := by
  have hletters : ∀ tag ∈ soughtTags, ∀ c ∈ tag.toList, c.isAlpha = true := by
    simp [soughtTags]
  rw [Located.childrenNamed, List.mem_filter] at hm
  obtain ⟨path, hpath⟩ := hl.address
  obtain ⟨i, hplace, hchain⟩ := Located.exists_at?_of_mem_children hm.1
  constructor
  · exact ⟨path ++ [i], by rw [Located.at?_append, hpath, Option.bind_some, hplace]⟩
  · rw [hchain, List.forall_mem_cons]
    exact ⟨lettered_ofElement hm.2 (hletters tag htag) _, hl.lettered⟩

/-- True of the address and the location of an element that an error can stand at: a root
that is no device, or a visited element of a device, or the write constraint of one. -/
inductive ReportedAt (root : Element) : List Nat → Location → Prop
  | stranger (hroot : root.hasTag "device" = false) :
      ReportedAt root [] ⟨root.line, [{ tag := root.name.text }]⟩
  | visited (hroot : root.hasTag "device" = true) {v : Visit} (hv : v ∈ visits root)
      {path : List Nat} (hpath : (Located.root root).at? path = some v.place) :
      ReportedAt root path v.place.location
  | constraint (hroot : root.hasTag "device" = true) {v : Visit} (hv : v ∈ visits root)
      (hread : .writeConstraint ∈ v.shape.ownValues) {child : Located}
      (hchild : v.place.child? "writeConstraint" = some child) {path : List Nat}
      (hpath : (Located.root root).at? path = some child) :
      ReportedAt root path child.location

theorem placed_of_mem_visits {root : Element} (hroot : root.hasTag "device" = true) :
    ∀ v ∈ visits root, Placed root v.place :=
  forall_mem_visits (fun _ htag _ hl _ hm => hl.child htag hm) (.root hroot)

theorem placed_constraint {root : Element} (hroot : root.hasTag "device" = true) {v : Visit}
    (hv : v ∈ visits root) {child : Located}
    (hchild : v.place.child? "writeConstraint" = some child) : Placed root child :=
  (placed_of_mem_visits hroot v hv).child (by decide) (mem_childrenNamed_of_child? hchild)

/-- Reported elements of a device are placed below it. -/
theorem ReportedAt.placed {root : Element} (hroot : root.hasTag "device" = true)
    {path : List Nat} {location : Location} (h : ReportedAt root path location) :
    ∃ l, Placed root l ∧ (Located.root root).at? path = some l ∧ location = l.location := by
  cases h with
  | stranger hother => simp [hroot] at hother
  | @visited _ v hv _ hpath => exact ⟨v.place, placed_of_mem_visits hroot v hv, hpath, rfl⟩
  | constraint _ hv _ hchild hpath => exact ⟨_, placed_constraint hroot hv hchild, hpath, rfl⟩

/-- Every error stands at a reported element. -/
theorem exists_reportedAt {root : Element} {e : DecodeError} (h : decodeDevice root = .error e) :
    ∃ path, ReportedAt root path e.location := by
  by_cases hroot : root.hasTag "device" = true
  · obtain ⟨before, v, after, hvisits, -, front, value, back, hvalues, -, hfault⟩ :=
      (decodeDevice_eq_error_iff hroot).mp h
    have hv : v ∈ visits root := by simp [hvisits]
    cases hfault with
    | own _ =>
        obtain ⟨path, hpath⟩ := (placed_of_mem_visits hroot v hv).address
        exact ⟨path, .visited hroot hv hpath⟩
    | constraint hchild _ =>
        obtain ⟨path, hpath⟩ := (placed_constraint hroot hv hchild).address
        exact ⟨path, .constraint hroot hv (by simp [hvalues]) hchild hpath⟩
  · have hother : root.hasTag "device" = false := by simpa using hroot
    simp only [decodeDevice, hother] at h
    cases h
    exact ⟨[], .stranger hother⟩

/-- Every error stands at a reported element, and two reported elements of a document have
one text of their chains only if they are one, whatever their names and references hold. -/
theorem decodeDevice_chainText_identifies (root : Element) :
    (∀ e, decodeDevice root = .error e → ∃ path, ReportedAt root path e.location) ∧
      ∀ path path' location location', ReportedAt root path location →
        ReportedAt root path' location' →
        (Location.chainText location.chain = Location.chainText location'.chain ↔
          path = path') := by
  refine ⟨fun e h => exists_reportedAt h, fun path path' location location' h h' => ?_⟩
  by_cases hroot : root.hasTag "device" = true
  · obtain ⟨l, hl, hpath, rfl⟩ := h.placed hroot
    obtain ⟨l', hl', hpath', rfl⟩ := h'.placed hroot
    constructor
    · intro htext
      have hchain : l.chain = l'.chain := Location.chainText_inj hl.lettered hl'.lettered htext
      have hindices := Located.indices_of_at? hpath
      rw [hchain, Located.indices_of_at? hpath', List.append_cancel_right_eq,
        List.reverse_inj] at hindices
      exact hindices.symm
    · rintro rfl
      rw [hpath] at hpath'
      rw [Option.some.inj hpath']
  · cases h with
    | stranger _ =>
        cases h' with
        | stranger _ => simp
        | visited hdevice => exact absurd hdevice hroot
        | constraint hdevice => exact absurd hdevice hroot
    | visited hdevice => exact absurd hdevice hroot
    | constraint hdevice => exact absurd hdevice hroot

/-- A peripheral whose name ends like a link and starts another one. -/
def imitatingElement : Element :=
  .mk ⟨none, "peripheral"⟩ [] 1 [textNode "name" "A'\x7d] in [peripherals(1)\\"]

def imitatingDocument : Element :=
  deviceDocument "Chip" [.element imitatingElement, .element imitatingElement]

/-- The peripheral at a place of the document. -/
def imitatingPeripheral (place : Nat) : Located :=
  ⟨imitatingElement, [.ofElement (some place) imitatingElement,
    { tag := "peripherals", index := some 1 },
    { tag := "device", identity := some ⟨some "Chip", none⟩ }]⟩

theorem decodeDevice_chainText_identifies_imitating :
    ReportedAt imitatingDocument [1, 0] (imitatingPeripheral 0).location ∧
      ReportedAt imitatingDocument [1, 1] (imitatingPeripheral 1).location ∧
      Location.chainText (imitatingPeripheral 0).chain ≠
        Location.chainText (imitatingPeripheral 1).chain := by
  have hfirst : ReportedAt imitatingDocument [1, 0] (imitatingPeripheral 0).location :=
    .visited rfl (v := ⟨.peripheral, imitatingPeripheral 0⟩) (.tail _ (.head _)) rfl
  have hsecond : ReportedAt imitatingDocument [1, 1] (imitatingPeripheral 1).location :=
    .visited rfl (v := ⟨.peripheral, imitatingPeripheral 1⟩) (.tail _ (.tail _ (.head _))) rfl
  have hiff := (decodeDevice_chainText_identifies imitatingDocument).2 _ _ _ _ hfirst hsecond
  exact ⟨hfirst, hsecond, fun htext => absurd (hiff.mp htext) (by decide)⟩

end RegisterMap.Description
