import RegisterMap.CommandLine.Request
import RegisterMap.Proofs.Report.Outcome

/-!
# What a command line asks for

A request holds what the items of its command line say: the last value of each
parameter, all peripherals that were named, and the flags that were given, in whatever
order and however often.
-/

namespace RegisterMap.CommandLine

open RegisterMap.Export RegisterMap.Number RegisterMap.Report

/-! ## What items say -/

/-- The values that items give to a parameter, in order. -/
def valuesOf (p : Parameter) (items : List Item) : List String :=
  items.filterMap fun
    | .parameter q value => if q = p then some value else none
    | _ => none

/-- The value that counts where a parameter takes one. -/
def lastValue? (p : Parameter) (items : List Item) : Option String :=
  (valuesOf p items).getLast?

/-- True of the width that items choose: the last one, or the usual one. -/
def ChoosesWidth (items : List Item) (width : Int) : Prop :=
  match lastValue? .indentWidth items with
  | none => width = usualWidth
  | some value => Numeral.read .decimal value.toList = .ok width

/-- True of an item that says something about a request. -/
def Item.IsChoice : Item → Prop
  | .flag f => f ≠ .help
  | .parameter _ _ => True
  | _ => False

/-- True of a request that is what items ask for. -/
structure Asks (items : List Item) (request : Request) : Prop where
  choices : ∀ item ∈ items, item.IsChoice
  verbosity : request.verbosity = items.count (.flag .verbose)
  input : (lastValue? .input items).map Path.ofText = some request.input
  output : (lastValue? .output items).map Path.ofText = some request.output
  indentation : ∃ width : Nat, ChoosesWidth items width ∧
    request.options.indentation =
      if .flag .indentTabs ∈ items then "\t" else String.ofList (List.replicate width ' ')
  accessLevel : request.options.accessLevel.map AccessLevel.word = lastValue? .accessLevel items
  selectedPeripherals : request.options.selectedPeripherals = valuesOf .peripheral items
  namespaceUnderDevice :
    request.options.namespaceUnderDevice = decide (.flag .namespaceUnderDevice ∈ items)
  instanceMemberPeripherals : request.options.instanceMemberPeripherals =
    decide (.flag .instanceMemberPeripherals ∈ items)
  deviceName : request.options.deviceName = lastValue? .deviceName items
  validateDerivations :
    request.options.validateDerivations = decide (.flag .noValidateDerivations ∉ items)

variable {items : List Item}

@[simp] theorem valuesOf_concat_flag (p : Parameter) (f : Flag) :
    valuesOf p (items ++ [.flag f]) = valuesOf p items := by
  simp [valuesOf]

theorem valuesOf_concat_parameter (p q : Parameter) (value : String) :
    valuesOf p (items ++ [.parameter q value]) =
      if q = p then valuesOf p items ++ [value] else valuesOf p items := by
  by_cases h : q = p <;> simp [valuesOf, h]

@[simp] theorem lastValue?_concat_flag (p : Parameter) (f : Flag) :
    lastValue? p (items ++ [.flag f]) = lastValue? p items := by
  rw [lastValue?, valuesOf_concat_flag, lastValue?]

@[simp] theorem lastValue?_concat_self (p : Parameter) (value : String) :
    lastValue? p (items ++ [.parameter p value]) = some value := by
  rw [lastValue?, valuesOf_concat_parameter, if_pos rfl, List.getLast?_concat]

theorem lastValue?_concat_of_ne {p q : Parameter} (h : q ≠ p) (value : String) :
    lastValue? p (items ++ [.parameter q value]) = lastValue? p items := by
  rw [lastValue?, valuesOf_concat_parameter, if_neg h, lastValue?]

/-! ## Choices -/

namespace Choices

/-- True of choices that are what items say. -/
structure Follow (items : List Item) (c : Choices) : Prop where
  verbosity : c.verbosity = items.count (.flag .verbose)
  input : c.input = lastValue? .input items
  output : c.output = lastValue? .output items
  validateDerivations : c.validateDerivations = decide (.flag .noValidateDerivations ∉ items)
  peripherals : c.peripherals = valuesOf .peripheral items
  indentWidth : ChoosesWidth items c.indentWidth
  indentTabs : c.indentTabs = decide (.flag .indentTabs ∈ items)
  accessLevel : c.accessLevel.map AccessLevel.word = lastValue? .accessLevel items
  namespaceUnderDevice : c.namespaceUnderDevice = decide (.flag .namespaceUnderDevice ∈ items)
  instanceMemberPeripherals :
    c.instanceMemberPeripherals = decide (.flag .instanceMemberPeripherals ∈ items)
  deviceName : c.deviceName = lastValue? .deviceName items

theorem follow_nil : Follow [] {} where
  verbosity := rfl
  input := rfl
  output := rfl
  validateDerivations := rfl
  peripherals := rfl
  indentWidth := rfl
  indentTabs := rfl
  accessLevel := rfl
  namespaceUnderDevice := rfl
  instanceMemberPeripherals := rfl
  deviceName := rfl

variable {c next : Choices}

/-- A flag adds what it says, and leaves the rest as it was. -/
theorem Follow.withFlag (h : Follow items c) {f : Flag} (hf : c.withFlag f = .ok next) :
    Follow (items ++ [.flag f]) next := by
  rcases h with ⟨hverbosity, hinput, houtput, hvalidate, hperipherals, hwidth, htabs, haccess,
    hnamespace, hmembers, hname⟩
  cases f with
  | indentTabs =>
      rw [Choices.withFlag] at hf
      split at hf
      · cases hf
      · obtain rfl := Except.ok.inj hf
        constructor <;> simp_all [ChoosesWidth]
  | help | verbose | noValidateDerivations | namespaceUnderDevice | instanceMemberPeripherals =>
      obtain rfl := Except.ok.inj hf
      constructor <;> simp_all [ChoosesWidth]

theorem withWidth_eq_ok {width : Int} (h : c.withWidth width = .ok next) :
    ∃ isChosen, next = { c with indentWidth := width, isWidthChosen := isChosen } := by
  rw [withWidth] at h
  split at h
  · exact ⟨c.isWidthChosen, (Except.ok.inj h).symm⟩
  · split at h
    · cases h
    · exact ⟨true, (Except.ok.inj h).symm⟩

theorem withParameter_indentWidth_eq_ok {value : String}
    (h : c.withParameter .indentWidth value = .ok next) :
    ∃ width isChosen, Numeral.read .decimal value.toList = .ok width ∧
      next = { c with indentWidth := width, isWidthChosen := isChosen } := by
  rw [withParameter] at h
  split at h
  · rename_i width hread
    rcases withWidth_eq_ok h with ⟨isChosen, hnext⟩
    exact ⟨width, isChosen, hread, hnext⟩
  · cases h

theorem withParameter_accessLevel_eq_ok {value : String}
    (h : c.withParameter .accessLevel value = .ok next) :
    ∃ level : AccessLevel, level.word = value ∧ next = { c with accessLevel := some level } := by
  rw [withParameter] at h
  split at h
  · rename_i level hlevel
    refine ⟨level, ?_, (Except.ok.inj h).symm⟩
    have hword := List.find?_some hlevel
    simpa using hword
  · cases h

/-- A parameter takes its value, and leaves the rest as it was. -/
theorem Follow.withParameter (h : Follow items c) {p : Parameter} {value : String}
    (hp : c.withParameter p value = .ok next) : Follow (items ++ [.parameter p value]) next := by
  rcases h with ⟨hverbosity, hinput, houtput, hvalidate, hperipherals, hwidth, htabs, haccess,
    hnamespace, hmembers, hname⟩
  cases p with
  | indentWidth =>
      obtain ⟨width, isChosen, hread, rfl⟩ := withParameter_indentWidth_eq_ok hp
      constructor <;>
        simp_all [ChoosesWidth, valuesOf_concat_parameter, lastValue?_concat_of_ne]
  | accessLevel =>
      obtain ⟨level, hword, rfl⟩ := withParameter_accessLevel_eq_ok hp
      constructor <;>
        simp_all [ChoosesWidth, valuesOf_concat_parameter, lastValue?_concat_of_ne]
  | input | output | peripheral | deviceName =>
      obtain rfl := Except.ok.inj hp
      constructor <;>
        simp_all [ChoosesWidth, valuesOf_concat_parameter, lastValue?_concat_of_ne]

/-! ## Requests -/

theorem request_eq_ok {strays : List String} {request : Request}
    (h : c.request strays = .ok request) :
    strays = [] ∧ 0 ≤ c.indentWidth ∧ c.input.map Path.ofText = some request.input ∧
      c.output.map Path.ofText = some request.output ∧ request.verbosity = c.verbosity ∧
      request.options = c.options := by
  rw [Choices.request] at h
  split at h
  · rename_i input output hinput houtput
    split at h
    · cases h
    · rename_i hstrays
      split at h
      · cases h
      · rename_i hwidth
        obtain rfl := Except.ok.inj h
        rw [hinput, houtput]
        exact ⟨not_not.mp hstrays, Int.not_lt.mp hwidth, rfl, rfl, rfl, rfl⟩
  · cases h

theorem Follow.asks (h : Follow items c) (hchoices : ∀ item ∈ items, item.IsChoice)
    {strays : List String} {request : Request} (hrequest : c.request strays = .ok request) :
    Asks items request := by
  rcases request_eq_ok hrequest with ⟨-, hwidth, hinput, houtput, hverbosity, hoptions⟩
  have hnat : ((c.indentWidth.toNat : Nat) : Int) = c.indentWidth := Int.toNat_of_nonneg hwidth
  constructor
  case choices => exact hchoices
  case verbosity => rw [hverbosity, h.verbosity]
  case input => rw [← h.input, hinput]
  case output => rw [← h.output, houtput]
  case indentation =>
    refine ⟨c.indentWidth.toNat, ?_, ?_⟩
    · rw [hnat]
      exact h.indentWidth
    · simp only [hoptions, options, indentation, h.indentTabs, decide_eq_true_eq]
  case accessLevel => rw [hoptions, ← h.accessLevel, options]
  case selectedPeripherals => rw [hoptions, ← h.peripherals, options]
  case namespaceUnderDevice => rw [hoptions, ← h.namespaceUnderDevice, options]
  case instanceMemberPeripherals => rw [hoptions, ← h.instanceMemberPeripherals, options]
  case deviceName => rw [hoptions, ← h.deviceName, options]
  case validateDerivations => rw [hoptions, ← h.validateDerivations, options]

end Choices

/-! ## Command lines -/

namespace Command

theorem ofItems_flag {c : Choices} {strays : List String} {f : Flag} {rest : List Item}
    (hf : f ≠ .help) :
    ofItems c strays (.flag f :: rest) = c.withFlag f >>= fun next => ofItems next strays rest := by
  cases f with
  | help => exact absurd rfl hf
  | verbose | noValidateDerivations | indentTabs | namespaceUnderDevice
  | instanceMemberPeripherals => rfl

/-- The items that are left are taken one by one, each with what was said before it. -/
theorem asks_of_ofItems {c : Choices} {strays : List String} {rest : List Item}
    {request : Request} (hfollow : c.Follow items) (hchoices : ∀ item ∈ items, item.IsChoice)
    (h : ofItems c strays rest = .ok (.generate request)) :
    strays = [] ∧ Asks (items ++ rest) request := by
  induction rest generalizing items c strays with
  | nil =>
      rw [ofItems] at h
      cases hrequest : c.request strays with
      | error e =>
          rw [hrequest] at h
          cases h
      | ok asked =>
          rw [hrequest] at h
          obtain rfl : asked = request := Command.generate.inj (Except.ok.inj h)
          rw [List.append_nil]
          exact ⟨(Choices.request_eq_ok hrequest).1, hfollow.asks hchoices hrequest⟩
  | cons item rest ih =>
      have hsplit : items ++ item :: rest = (items ++ [item]) ++ rest := by simp
      have hmore (hitem : item.IsChoice) : ∀ i ∈ items ++ [item], i.IsChoice := by
        intro i hi
        rcases List.mem_append.mp hi with hi | hi
        · exact hchoices i hi
        · rw [List.mem_singleton.mp hi]
          exact hitem
      cases item with
      | fault e => cases h
      | stray text =>
          -- A word without a meaning is never forgotten, so nothing is generated.
          rw [ofItems] at h
          have hstrays := (ih hfollow hchoices h).1
          simp at hstrays
      | flag f =>
          by_cases hhelp : f = .help
          · rw [hhelp] at h
            cases h
          · rw [ofItems_flag hhelp] at h
            rcases Outcome.bind_eq_ok_iff.mp h with ⟨next, hnext, hrest⟩
            rw [hsplit]
            exact ih (hfollow.withFlag hnext) (hmore hhelp) hrest
      | parameter p value =>
          rw [ofItems] at h
          rcases Outcome.bind_eq_ok_iff.mp h with ⟨next, hnext, hrest⟩
          rw [hsplit]
          exact ih (hfollow.withParameter hnext) (hmore trivial) hrest

/-- A command line that generates source asks for its request. -/
theorem asks_of_ofArguments {arguments : List String} {request : Request}
    (h : ofArguments arguments = .ok (.generate request)) :
    Asks (itemsOf (Word.ofTexts arguments)) request :=
  (asks_of_ofItems Choices.follow_nil (fun _ hitem => by cases hitem) h).2

end Command

end RegisterMap.CommandLine
