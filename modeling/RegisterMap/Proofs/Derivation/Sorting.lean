import Mathlib.Logic.Function.Iterate
import RegisterMap.Proofs.Derivation.Order

/-!
# Peripherals sorted by base

The sort goes on in rounds, one for each peripheral that it takes.  It takes all of
them exactly if all reach a definition, each one behind a peripheral with the name of
its base.  Other peripherals with that name can come later: the followers of a name
are taken right behind the first peripheral that has it, the last one first.
-/

namespace RegisterMap.Derivation

open RegisterMap.Model

variable {peripherals ready waiting sorted : List Peripheral}

/-! ## Rounds -/

/-- What the sort has done so far, and what is left to do. -/
structure Progress where
  taken : List Peripheral
  ready : List Peripheral
  waiting : List Peripheral

namespace Progress

/-- One round: the peripheral that got ready last is taken, and its followers get ready. -/
def next (s : Progress) : Progress :=
  match s.ready with
  | [] => s
  | p :: ready =>
      ⟨s.taken ++ [p], (followers p.name s.waiting).reverse ++ ready, others p.name s.waiting⟩

def start (peripherals : List Peripheral) : Progress where
  taken := []
  ready := (peripherals.filter fun p => !p.derivedFrom.isSome).reverse
  waiting := peripherals.filter fun p => p.derivedFrom.isSome

end Progress

theorem iterate_next (taken ready waiting : List Peripheral) :
    Progress.next^[(takeReady ready waiting).1.length] ⟨taken, ready, waiting⟩ =
      ⟨taken ++ (takeReady ready waiting).1, [], (takeReady ready waiting).2⟩ := by
  fun_induction takeReady ready waiting generalizing taken with
  | case1 waiting => simp
  | case2 waiting p ready rest left htake ih =>
      rw [htake] at ih
      rw [List.length_cons, Function.iterate_succ_apply, Progress.next, ih]
      simp

theorem sortReachable_eq (peripherals : List Peripheral) :
    sortReachable peripherals =
      takeReady (Progress.start peripherals).ready (Progress.start peripherals).waiting := by
  simp only [sortReachable, List.partition_eq_filter_filter]
  rfl

/-! ## Nothing is lost -/

theorem takeReady_perm (ready waiting : List Peripheral) :
    ((takeReady ready waiting).1 ++ (takeReady ready waiting).2).Perm (ready ++ waiting) := by
  fun_induction takeReady ready waiting with
  | case1 waiting => exact .rfl
  | case2 waiting p ready taken left htake ih =>
      rw [htake] at ih
      have hwaiting : (followers p.name waiting ++ others p.name waiting).Perm waiting :=
        List.filter_append_perm _ _
      have hready : ((followers p.name waiting).reverse ++ ready).Perm
          (ready ++ followers p.name waiting) :=
        ((List.reverse_perm _).append_right ready).trans List.perm_append_comm
      have hboth := hready.append_right (others p.name waiting)
      rw [List.append_assoc ready] at hboth
      exact (ih.trans (hboth.trans (hwaiting.append_left ready))).cons p

theorem sortReachable_perm (peripherals : List Peripheral) :
    ((sortReachable peripherals).1 ++ (sortReachable peripherals).2).Perm peripherals := by
  rw [sortReachable_eq]
  refine (takeReady_perm _ _).trans ?_
  have hsplit := List.filter_append_perm (fun p : Peripheral => !p.derivedFrom.isSome) peripherals
  simp only [Bool.not_not] at hsplit
  exact ((List.reverse_perm _).append_right _).trans hsplit

/-! ## Bases in front -/

/-- True of an order in which every derived peripheral stands behind one with its base's name. -/
def BasesFirst (sorted : List Peripheral) : Prop :=
  ∀ before p after, sorted = before ++ p :: after →
    ∀ base ∈ p.derivedFrom, ∃ q ∈ before, q.name = base

/-- What is taken has its base in front, if what is ready has one among those taken before. -/
theorem exists_base_of_takeReady {known before after : List Peripheral} {p : Peripheral}
    (hready : ∀ q ∈ ready, ∀ base ∈ q.derivedFrom, ∃ b ∈ known, b.name = base)
    (htaken : (takeReady ready waiting).1 = before ++ p :: after) :
    ∀ base ∈ p.derivedFrom, ∃ b ∈ known ++ before, b.name = base := by
  fun_induction takeReady ready waiting generalizing known before with
  | case1 waiting => simp at htaken
  | case2 waiting q ready rest left htake ih =>
      rw [htake] at ih
      rcases List.forall_mem_cons.mp hready with ⟨hq, hothers⟩
      cases before with
      | nil =>
          obtain ⟨rfl, -⟩ := List.cons.inj htaken
          simpa using hq
      | cons first before =>
          obtain ⟨rfl, hrest⟩ := List.cons.inj htaken
          have hready' : ∀ r ∈ (followers q.name waiting).reverse ++ ready,
              ∀ base ∈ r.derivedFrom, ∃ b ∈ known ++ [q], b.name = base := by
            intro r hr base hbase
            rcases List.mem_append.mp hr with hr | hr
            · have hfollows := derivesFrom_iff.mp (List.mem_filter.mp (List.mem_reverse.mp hr)).2
              rw [hfollows, Option.mem_some_iff] at hbase
              exact ⟨q, by simp, hbase⟩
            · rcases hothers r hr base hbase with ⟨b, hb, hname⟩
              exact ⟨b, by simp [hb], hname⟩
          simpa using ih hready' hrest

theorem basesFirst_sortReachable (peripherals : List Peripheral) :
    BasesFirst (sortReachable peripherals).1 := by
  intro before p after hsorted base hbase
  rw [sortReachable_eq] at hsorted
  have hdefined : ∀ q ∈ (Progress.start peripherals).ready, ∀ base ∈ q.derivedFrom,
      ∃ b ∈ ([] : List Peripheral), b.name = base := by
    intro q hq base hbase
    have hnone := (List.mem_filter.mp (List.mem_reverse.mp hq)).2
    simp [Option.mem_def.mp hbase] at hnone
  exact exists_base_of_takeReady hdefined hsorted base hbase

/-! ## Outcomes -/

theorem perm_of_sortByBase (h : sortByBase peripherals = .ok sorted) :
    sorted.Perm peripherals := by
  rcases sortByBase_eq_ok_iff.mp h with ⟨hreach, rfl⟩
  have hperm := sortReachable_perm peripherals
  rwa [left_eq_nil_iff.mpr hreach, List.append_nil] at hperm

theorem basesFirst_of_sortByBase (h : sortByBase peripherals = .ok sorted) :
    BasesFirst sorted := by
  obtain ⟨-, rfl⟩ := sortByBase_eq_ok_iff.mp h
  exact basesFirst_sortReachable peripherals

/--
The sort ends after no more rounds than there are peripherals.  It succeeds exactly if
every peripheral reaches a definition; its result then holds the given peripherals,
each of them behind one with the name of its base.  Otherwise the error names the
peripherals that do not reach a definition, each as often as it is given.
-/
theorem sortByBase_spec (peripherals : List Peripheral) :
    (∃ rounds ≤ peripherals.length,
        Progress.next^[rounds] (.start peripherals) =
          ⟨(sortReachable peripherals).1, [], (sortReachable peripherals).2⟩) ∧
      ((∃ sorted, sortByBase peripherals = .ok sorted) ↔
        ∀ p ∈ peripherals, ReachesDefinition peripherals p) ∧
      (∀ sorted, sortByBase peripherals = .ok sorted →
        sorted.Perm peripherals ∧ BasesFirst sorted) ∧
      ((∃ names, sortByBase peripherals = .error names) ↔
        ∃ p ∈ peripherals, ¬ReachesDefinition peripherals p) ∧
      ∀ names, sortByBase peripherals = .error names →
        names.Perm ((peripherals.filter fun p => ¬ReachesDefinition peripherals p).map (·.name)) := by
  refine ⟨⟨(sortReachable peripherals).1.length, ?_, ?_⟩, ?_, ?_, ?_, ?_⟩
  · have hlength := (sortReachable_perm peripherals).length_eq
    rw [List.length_append] at hlength
    omega
  · rw [sortReachable_eq]
    exact iterate_next [] _ _
  · simp [sortByBase_eq_ok_iff]
  · exact fun sorted h => ⟨perm_of_sortByBase h, basesFirst_of_sortByBase h⟩
  · simp [sortByBase_eq_error_iff]
  · intro names h
    obtain ⟨-, rfl⟩ := sortByBase_eq_error_iff.mp h
    exact (groupedByBase_perm _).map _

/-! ## Bases behind -/

/-- True of an order in which no peripheral is derived from a name that one behind it has. -/
def NoBaseBehind (sorted : List Peripheral) : Prop :=
  sorted.Pairwise fun p q => p.derivedFrom ≠ some q.name

/-- How many peripherals have a name. -/
def bearers (peripherals : List Peripheral) (name : String) : Nat :=
  (peripherals.map (·.name)).count name

/--
True of peripherals of which, for every base, at most one has its name.  The last one
that is derived from the base may have its name too.
-/
def BasesAlone (peripherals : List Peripheral) : Prop :=
  ∀ name last, (followers name peripherals).getLast? = some last →
    bearers peripherals name ≤ if last.name = name then 2 else 1

variable {name : String} {last : Peripheral}

/-- Right behind the first peripheral with a name comes the last of those derived from it. -/
theorem exists_first_of_takeReady (hlast : (followers name waiting).getLast? = some last)
    (hname : ∃ p ∈ (takeReady ready waiting).1, p.name = name) :
    ∃ before base after, (takeReady ready waiting).1 = before ++ base :: last :: after ∧
      base.name = name ∧ ∀ q ∈ before, q.name ≠ name := by
  fun_induction takeReady ready waiting with
  | case1 waiting => simp at hname
  | case2 waiting p ready rest left htake ih =>
      rw [htake] at ih
      by_cases hp : p.name = name
      · subst hp
        have hhead : (followers p.name waiting).reverse.head? = some last := by
          rwa [List.head?_reverse]
        obtain ⟨others, hothers⟩ := List.head?_eq_some_iff.mp hhead
        rw [hothers, List.cons_append, takeReady] at htake
        obtain rfl := (Prod.mk.inj htake).1
        exact ⟨[], p, _, rfl, rfl, by simp⟩
      · have hsame : followers name (others p.name waiting) = followers name waiting := by
          rw [followers, others, List.filter_filter, followers]
          refine List.filter_congr fun q _ => ?_
          by_cases hq : derivesFrom name q = true
          · have hne : derivesFrom p.name q = false := by
              simp [derivesFrom, derivesFrom_iff.mp hq, Ne.symm hp]
            simp [hq, hne]
          · simp [hq]
        have hrest : ∃ q ∈ rest, q.name = name := by simpa [hp] using hname
        obtain ⟨before, base, after, rfl, hbase, hbefore⟩ := ih (hsame ▸ hlast) hrest
        refine ⟨p :: before, base, after, rfl, hbase, ?_⟩
        exact List.forall_mem_cons.mpr ⟨hp, hbefore⟩

theorem followers_start (name : String) (peripherals : List Peripheral) :
    followers name (Progress.start peripherals).waiting = followers name peripherals := by
  rw [followers, Progress.start, List.filter_filter, followers]
  refine List.filter_congr fun q _ => ?_
  cases hq : q.derivedFrom <;> simp [derivesFrom, hq]

/-- In the sorted order, all other peripherals with the name of a base come behind its first. -/
theorem exists_first_of_sortByBase (h : sortByBase peripherals = .ok sorted)
    (hlast : (followers name peripherals).getLast? = some last) :
    ∃ before base after, sorted = before ++ base :: last :: after ∧ base.name = name ∧
      ∀ q ∈ before, q.name ≠ name := by
  have hmem := List.mem_filter.mp (List.mem_of_getLast? hlast)
  obtain ⟨hreach, rfl⟩ := sortByBase_eq_ok_iff.mp h
  have htaken : last ∈ (sortReachable peripherals).1 :=
    mem_sortReachable.mpr ⟨hmem.1, hreach last hmem.1⟩
  have hname : ∃ p ∈ (sortReachable peripherals).1, p.name = name := by
    rcases List.append_of_mem htaken with ⟨before, after, hsplit⟩
    obtain ⟨q, hq, hname⟩ := basesFirst_sortReachable peripherals before last after hsplit name
      (derivesFrom_iff.mp hmem.2)
    exact ⟨q, by simp [hsplit, hq], hname⟩
  rw [← followers_start] at hlast
  rw [sortReachable_eq] at hname ⊢
  exact exists_first_of_takeReady hlast hname

theorem bearers_split {before after : List Peripheral} {base : Peripheral}
    (hbase : base.name = name) (hbefore : ∀ q ∈ before, q.name ≠ name) :
    bearers (before ++ base :: last :: after) name =
      (if last.name = name then 2 else 1) + bearers after name := by
  have hnone : bearers before name = 0 := by
    rw [bearers, List.count_eq_zero]
    simpa using hbefore
  rw [bearers] at hnone
  rw [bearers, List.map_append, List.count_append, hnone, List.map_cons, List.map_cons, hbase,
    List.count_cons_self, List.count_cons, bearers]
  by_cases hname : last.name = name <;> simp [hname] <;> omega

/-- Behind the first peripheral with a name, and behind the first that is derived from it. -/
theorem mem_after_of_split {before after front back : List Peripheral} {base p q : Peripheral}
    (hsplit : before ++ base :: last :: after = front ++ p :: back)
    (hbefore : ∀ r ∈ before, r.name ≠ name) (hfront : ∃ r ∈ front, r.name = name)
    (hq : q ∈ back) : q ∈ after := by
  rcases hfront with ⟨r, hr, hname⟩
  rcases List.append_eq_append_iff.mp hsplit with ⟨rest, rfl, htail⟩ | ⟨rest, rfl, htail⟩
  · cases rest with
    | nil =>
        rw [List.append_nil] at hr
        exact absurd hname (hbefore r hr)
    | cons first rest =>
        have htail := (List.cons.inj htail).2
        cases rest with
        | nil =>
            obtain rfl := (List.cons.inj htail).2
            exact hq
        | cons second rest =>
            obtain rfl := (List.cons.inj htail).2
            simp [hq]
  · exact absurd hname (hbefore r (List.mem_append_left _ hr))

/--
In the sorted order no peripheral is derived from a name that one behind it has exactly
if every base is alone with its name, the last peripheral derived from it apart.
-/
theorem sortByBase_noBaseBehind_iff (h : sortByBase peripherals = .ok sorted) :
    NoBaseBehind sorted ↔ BasesAlone peripherals := by
  have hperm := perm_of_sortByBase h
  have hbearers : ∀ name, bearers peripherals name = bearers sorted name :=
    fun name => ((hperm.map _).count_eq name).symm
  have hfirst := basesFirst_of_sortByBase h
  constructor
  · intro hnone name last hlast
    obtain ⟨before, base, after, rfl, hbase, hbefore⟩ := exists_first_of_sortByBase h hlast
    have hderived := derivesFrom_iff.mp (List.mem_filter.mp (List.mem_of_getLast? hlast)).2
    have hbehind := (List.pairwise_cons.mp
      (List.pairwise_cons.mp (List.pairwise_append.mp hnone).2.1).2).1
    have hafter : bearers after name = 0 := by
      rw [bearers, List.count_eq_zero, List.mem_map]
      rintro ⟨q, hq, hname⟩
      exact hbehind q hq (by rw [hderived, hname])
    rw [hbearers, bearers_split hbase hbefore, hafter]
    exact Nat.le_refl _
  · intro halone
    rw [NoBaseBehind, List.pairwise_iff_forall_sublist]
    intro p q hsub hderived
    obtain ⟨front, back, hsplit, hp, hq⟩ := List.cons_sublist_iff.mp hsub
    obtain ⟨front, middle, rfl⟩ := List.append_of_mem hp
    have hback : q ∈ middle ++ back := by simp [List.singleton_sublist.mp hq]
    rw [List.append_assoc, List.cons_append] at hsplit
    have hmem : p ∈ followers q.name peripherals := by
      refine List.mem_filter.mpr ⟨hperm.mem_iff.mp ?_, derivesFrom_iff.mpr hderived⟩
      simp [hsplit]
    obtain ⟨last, hlast⟩ : ∃ last, (followers q.name peripherals).getLast? = some last :=
      Option.isSome_iff_exists.mp (by simpa using List.ne_nil_of_mem hmem)
    obtain ⟨before, base, after, rfl, hbase, hbefore⟩ := exists_first_of_sortByBase h hlast
    have hafter := mem_after_of_split hsplit hbefore (hfirst front p _ hsplit _ hderived) hback
    have hpos : 0 < bearers after q.name :=
      List.count_pos_iff.mpr (List.mem_map_of_mem hafter)
    have hle := halone q.name last hlast
    rw [hbearers, bearers_split hbase hbefore] at hle
    omega

/-! ### Ports that share a name -/

def port (name : String) (baseAddress : Int) (base : Option String) : Peripheral where
  name := name
  baseAddress := baseAddress
  derivedFrom := base

/-- The second port with the name of the base is the last one derived from it. -/
def settledPorts : List Peripheral :=
  [port "A" 0x1000 none, port "B" 0x2000 (some "A"), port "A" 0x3000 (some "A")]

/-- Two ports have the name of the base, and neither is derived from it. -/
def rivalPorts : List Peripheral :=
  [port "A" 0x1000 none, port "A" 0x2000 none, port "B" 0x3000 (some "A")]

theorem sortByBase_settledPorts :
    sortByBase settledPorts =
      .ok [port "A" 0x1000 none, port "A" 0x3000 (some "A"), port "B" 0x2000 (some "A")] := by
  simp [sortByBase, sortReachable, settledPorts, port, takeReady, followers, others, derivesFrom]

theorem basesAlone_settledPorts : BasesAlone settledPorts := by
  intro name last hlast
  by_cases hname : name = "A"
  · subst hname
    obtain rfl : port "A" 0x3000 (some "A") = last := Option.some.inj hlast
    decide
  · have hnone : followers name settledPorts = [] := by
      simp [followers, settledPorts, port, derivesFrom, Ne.symm hname]
    rw [hnone] at hlast
    cases hlast

theorem sortByBase_noBaseBehind_iff_ports :
    sortByBase settledPorts =
        .ok [port "A" 0x1000 none, port "A" 0x3000 (some "A"), port "B" 0x2000 (some "A")] ∧
      NoBaseBehind
        [port "A" 0x1000 none, port "A" 0x3000 (some "A"), port "B" 0x2000 (some "A")] :=
  ⟨sortByBase_settledPorts,
    (sortByBase_noBaseBehind_iff sortByBase_settledPorts).mpr basesAlone_settledPorts⟩

/-- A derived port is taken before a second port with the name of its base. -/
theorem sortByBase_base_behind :
    sortByBase rivalPorts =
        .ok [port "A" 0x2000 none, port "B" 0x3000 (some "A"), port "A" 0x1000 none] ∧
      ¬NoBaseBehind [port "A" 0x2000 none, port "B" 0x3000 (some "A"), port "A" 0x1000 none] := by
  constructor
  · simp [sortByBase, sortReachable, rivalPorts, port, takeReady, followers, others, derivesFrom]
  · simp [NoBaseBehind, port]

end RegisterMap.Derivation
