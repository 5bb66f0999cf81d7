import RegisterMap.Proofs.CommandLine.Choices
import RegisterMap.Proofs.CommandLine.FileTree
import RegisterMap.Proofs.Export.Outcome
import RegisterMap.Proofs.Export.StoredUnits
import RegisterMap.Proofs.Export.UnitNames

/-!
# Generated files

A run that generates source succeeds exactly if its device is read and exported and the
text of every unit can be encoded.  The output directory then gets what a store would hold
after the export, as entries of its own, and a run that fails before the first unit is
finished touches nothing.
-/

namespace RegisterMap.CommandLine

open RegisterMap.Description RegisterMap.Export RegisterMap.Model RegisterMap.Report
open RegisterMap.Swift

/-! ## Units as files -/

/-- Whatever the names in a device are, its units are named after types. -/
theorem isSourceName_of_mem_writtenUnits {options : Options} {device : Device} {unit : SourceUnit}
    (h : unit ∈ writtenUnits (exportDevice options device).events) :
    IsSourceName unit.name := by
  rcases exists_typeName_of_mem_writtenUnits h with ⟨typeName, -, hname, heq⟩
  exact ⟨typeName, hname.isName, heq⟩

section Delivered

variable {strays : List Char} {units : List SourceUnit}

theorem delivered_of_isEncodable (h : ∀ unit ∈ units, isEncodable strays unit.text) :
    delivered strays units = units := by
  induction units with
  | nil => rfl
  | cons unit units ih =>
      rw [delivered, if_pos (h unit List.mem_cons_self),
        ih fun u hu => h u (List.mem_cons_of_mem unit hu)]

theorem exists_name_of_mem_delivered {found : SourceUnit} (h : found ∈ delivered strays units) :
    ∃ unit ∈ units, found.name = unit.name := by
  induction units with
  | nil => cases h
  | cons unit units ih =>
      rw [delivered] at h
      split at h
      · rcases List.mem_cons.mp h with rfl | hmem
        · exact ⟨found, List.mem_cons_self, rfl⟩
        · rcases ih hmem with ⟨u, hu, hname⟩
          exact ⟨u, List.mem_cons_of_mem unit hu, hname⟩
      · rw [List.mem_singleton] at h
        exact ⟨unit, List.mem_cons_self, h ▸ rfl⟩

end Delivered

/-! ## Runs -/

theorem readDevice_finishesNone (source : String) (bytes : List UInt8) :
    FinishesNone (readDevice source bytes) := by
  rw [readDevice]
  refine .bind (.ofExcept _ _) fun root => .bind (.ofExcept _ _) fun device => ?_
  exact .bind (.record rfl) fun _ => .pure device

namespace Request

variable {request : Request} {directory : Path} {bytes : List UInt8} {device : Device}

theorem run_none (request : Request) (directory : Path) :
    request.run directory none = ⟨[], .error (.noSuchFile (directory.within request.input))⟩ :=
  rfl

theorem run_some (request : Request) (directory : Path) (bytes : List UInt8) :
    request.run directory (some bytes) =
      (readDevice request.input.text bytes).mapError .document >>= fun device =>
        (exportDevice request.options device).mapError .exporting :=
  rfl

theorem run_of_read_error {e : DocumentError}
    (h : (readDevice request.input.text bytes).outcome = .error e) :
    (request.run directory (some bytes)).outcome = .error (.document e) ∧
      writtenUnits (request.run directory (some bytes)).events = [] := by
  have hread : ((readDevice request.input.text bytes).mapError Failure.document).outcome =
      .error (.document e) := by
    rw [Trace.outcome_mapError, h]
    rfl
  rw [run_some, Trace.bind_of_error hread]
  exact ⟨rfl, readDevice_finishesNone request.input.text bytes⟩

theorem run_of_read (h : (readDevice request.input.text bytes).outcome = .ok device) :
    (request.run directory (some bytes)).outcome =
        (exportDevice request.options device).outcome.mapError .exporting ∧
      writtenUnits (request.run directory (some bytes)).events =
        writtenUnits (exportDevice request.options device).events := by
  have hread : ((readDevice request.input.text bytes).mapError Failure.document).outcome =
      .ok device := by
    rw [Trace.outcome_mapError, h]
    rfl
  have hnone : writtenUnits (readDevice request.input.text bytes).events = [] :=
    readDevice_finishesNone request.input.text bytes
  rw [run_some, Trace.bind_of_ok hread]
  refine ⟨rfl, ?_⟩
  rw [writtenUnits_append, Trace.events_mapError, Trace.events_mapError, hnone, List.nil_append]

/-- A run succeeds exactly if the device is read and exported. -/
theorem outcome_run_eq_ok_iff {contents? : Option (List UInt8)} :
    (request.run directory contents?).outcome = .ok () ↔
      ∃ bytes device, contents? = some bytes ∧
        (readDevice request.input.text bytes).outcome = .ok device ∧
        (exportDevice request.options device).outcome = .ok () := by
  cases contents? with
  | none => simp [run_none]
  | some bytes =>
      simp only [run_some, Trace.outcome_bind_eq_ok_iff, Trace.outcome_mapError,
        Outcome.mapError_eq_ok_iff, Option.some.injEq]
      constructor
      · intro h
        rcases h with ⟨device, hread, hexport⟩
        exact ⟨bytes, device, rfl, hread, hexport⟩
      · intro h
        rcases h with ⟨_, device, rfl, hread, hexport⟩
        exact ⟨device, hread, hexport⟩

theorem isSourceName_of_mem_run {contents? : Option (List UInt8)} {unit : SourceUnit}
    (h : unit ∈ writtenUnits (request.run directory contents?).events) :
    IsSourceName unit.name := by
  cases contents? with
  | none =>
      rw [run_none] at h
      cases h
  | some bytes =>
      cases hread : (readDevice request.input.text bytes).outcome with
      | error e =>
          rw [(run_of_read_error hread).2] at h
          cases h
      | ok device =>
          rw [(run_of_read hread).2] at h
          exact isSourceName_of_mem_writtenUnits h

/-- True of a run that fails before any unit is finished. -/
inductive FailsEarly (request : Request) : Option (List UInt8) → Prop
  | noSuchFile : FailsEarly request none
  | document {bytes : List UInt8} {e : DocumentError} :
      (readDevice request.input.text bytes).outcome = .error e → FailsEarly request (some bytes)
  | derivation {bytes : List UInt8} {device : Device} {e : Derivation.DerivationError} :
      (readDevice request.input.text bytes).outcome = .ok device →
      (exportDevice request.options device).outcome = .error (.derivation e) →
      FailsEarly request (some bytes)
  | selection {bytes : List UInt8} {device : Device} {e : UnknownPeripheral} :
      (readDevice request.input.text bytes).outcome = .ok device →
      (exportDevice request.options device).outcome = .error (.selection e) →
      FailsEarly request (some bytes)

theorem FailsEarly.writtenUnits_run {contents? : Option (List UInt8)}
    (h : FailsEarly request contents?) (directory : Path) :
    writtenUnits (request.run directory contents?).events = [] := by
  have hexporting {bytes : List UInt8} {device : Device} {e : ExportError}
      (hread : (readDevice request.input.text bytes).outcome = .ok device)
      (hexport : (exportDevice request.options device).outcome = .error e)
      (he : ¬IsOverflow e) : writtenUnits (request.run directory (some bytes)).events = [] := by
    rw [(run_of_read hread).2, ((exportDevice_error_cases hexport).resolve_right he).2]
    rfl
  cases h with
  | noSuchFile => rfl
  | document hread => exact (run_of_read_error hread).2
  | derivation hread hexport => exact hexporting hread hexport (by simp [IsOverflow])
  | selection hread hexport => exact hexporting hread hexport (by simp [IsOverflow])

theorem FailsEarly.outcome_run_ne_ok {contents? : Option (List UInt8)}
    (h : FailsEarly request contents?) (directory : Path) :
    (request.run directory contents?).outcome ≠ .ok () := by
  intro hok
  rcases outcome_run_eq_ok_iff.mp hok with ⟨bytes, device, hbytes, hread, hexport⟩
  cases h with
  | noSuchFile => cases hbytes
  | document herror =>
      obtain rfl := Option.some.inj hbytes
      rw [herror] at hread
      cases hread
  | derivation hread' herror | selection hread' herror =>
      obtain rfl := Option.some.inj hbytes
      obtain rfl := Except.ok.inj (hread'.symm.trans hread)
      rw [herror] at hexport
      cases hexport

end Request

/-! ## Responses -/

theorem Ending.of_eq_success_iff {unencodable? : Option SourceUnit}
    {outcome : Except Failure Unit} :
    Ending.of unencodable? outcome = .success ↔ unencodable? = none ∧ outcome = .ok () := by
  cases unencodable? with
  | none => cases outcome <;> simp [Ending.of]
  | some unit => simp [Ending.of]

theorem exitCode_ran (conclusion : Conclusion) :
    (Response.ran conclusion).exitCode = if conclusion.ending = .success then 0 else 1 := rfl

theorem exitCode_ran_eq_zero_iff {conclusion : Conclusion} :
    (Response.ran conclusion).exitCode = 0 ↔ conclusion.ending = .success := by
  rw [exitCode_ran]
  by_cases hending : conclusion.ending = .success <;> simp [hending]

section Conclude

variable {request : Request} {strays : List Char} {directory : Path}
  {contents? : Option (List UInt8)}

/-- A run succeeds exactly if the device is read and exported and all its units have bytes. -/
theorem exitCode_conclude_eq_zero_iff :
    (Response.ran (request.conclude strays directory contents?)).exitCode = 0 ↔
      ∃ bytes device, contents? = some bytes ∧
        (readDevice request.input.text bytes).outcome = .ok device ∧
        (exportDevice request.options device).outcome = .ok () ∧
        ∀ unit ∈ writtenUnits (exportDevice request.options device).events,
          isEncodable strays unit.text := by
  rw [exitCode_ran_eq_zero_iff, Request.conclude, Ending.of_eq_success_iff,
    Request.outcome_run_eq_ok_iff, List.find?_eq_none]
  simp only [Bool.not_eq_true', Bool.not_eq_false]
  constructor
  · intro h
    rcases h with ⟨hencodable, bytes, device, rfl, hread, hexport⟩
    rw [(Request.run_of_read hread).2] at hencodable
    exact ⟨bytes, device, rfl, hread, hexport, hencodable⟩
  · intro h
    rcases h with ⟨bytes, device, rfl, hread, hexport, hencodable⟩
    rw [(Request.run_of_read hread).2]
    exact ⟨hencodable, bytes, device, rfl, hread, hexport⟩

end Conclude

/-- Everything that a run writes gets into a directory that takes source files. -/
theorem receives_conclude (request : Request) (strays : List Char) (directory : Path)
    (contents? : Option (List UInt8)) {tree : FileTree}
    (hwritable : tree.IsWritable request.output) :
    ∃ after, tree.writeAll? (request.conclude strays directory contents?).files = some after ∧
      tree.Receives request.output
        (UnitStore.ofUnits
          (delivered strays (writtenUnits (request.run directory contents?).events))).units
        after := by
  refine FileTree.receives_writeAll? hwritable fun found hfound => ?_
  rcases exists_name_of_mem_delivered hfound with ⟨unit, hunit, hname⟩
  rw [hname]
  exact Request.isSourceName_of_mem_run hunit

/--
A command line that asks for source gets all of it or a failure.  Success is that the
device is read and exported as asked, and that no stray of the arguments gets into the
text of a unit.  The files are then those units that a store would hold after the export,
in the output directory and nowhere else, and none at all if the device cannot be read,
its references are out of order or its selection unknown.
-/
theorem respond_generate {arguments : List String} {request : Request}
    (h : Command.ofArguments arguments = .ok (.generate request)) (strays : List Char)
    (directory : Path) (contents? : Option (List UInt8)) {tree : FileTree}
    (hwritable : tree.IsWritable request.output) :
    let response := respond (Command.ofArguments arguments) strays directory contents?
    Asks (itemsOf (Word.ofTexts arguments)) request ∧
      (response.exitCode = 0 ∨ response.exitCode = 1) ∧
      (response.exitCode = 0 ↔ ∃ bytes device, contents? = some bytes ∧
        (readDevice request.input.text bytes).outcome = .ok device ∧
        (exportDevice request.options device).outcome = .ok () ∧
        ∀ unit ∈ writtenUnits (exportDevice request.options device).events,
          isEncodable strays unit.text) ∧
      ∃ after, tree.writeAll? response.files = some after ∧
        (∀ bytes device, contents? = some bytes →
          (readDevice request.input.text bytes).outcome = .ok device →
          (∀ unit ∈ writtenUnits (exportDevice request.options device).events,
            isEncodable strays unit.text) →
          tree.Receives request.output (storedUnits request.options device) after) ∧
        (request.FailsEarly contents? → response.exitCode = 1 ∧ after = tree) := by
  intro response
  have hresponse : response = .ran (request.conclude strays directory contents?) :=
    congrArg (respond · strays directory contents?) h
  have hcode : response.exitCode = 0 ∨ response.exitCode = 1 := by
    rw [hresponse, exitCode_ran]
    split
    · exact .inl rfl
    · exact .inr rfl
  have hsuccess := @exitCode_conclude_eq_zero_iff request strays directory contents?
  rw [← hresponse] at hsuccess
  rcases receives_conclude request strays directory contents? hwritable with
    ⟨after, hafter, hreceives⟩
  refine ⟨Command.asks_of_ofArguments h, hcode, hsuccess, after, ?_, ?_, ?_⟩
  · rw [hresponse]
    exact hafter
  · intro bytes device hbytes hread hencodable
    rw [hbytes, (Request.run_of_read hread).2, delivered_of_isEncodable hencodable] at hreceives
    exact hreceives
  · intro hearly
    have hnone := hearly.writtenUnits_run directory
    have hfiles : (request.conclude strays directory contents?).files = [] := by
      rw [Request.conclude, hnone]
      rfl
    rw [hfiles] at hafter
    refine ⟨hcode.resolve_left fun hzero => ?_, (Option.some.inj hafter).symm⟩
    rcases hsuccess.mp hzero with ⟨bytes, device, hbytes, hread, hexport, -⟩
    exact hearly.outcome_run_ne_ok directory
      (Request.outcome_run_eq_ok_iff.mpr ⟨bytes, device, hbytes, hread, hexport⟩)

/-! ### A device with one peripheral -/

def timerArguments : List String :=
  ["-p", "TIMER", "--indent-tabs", "-i", "chip.svd", "-o", "generated"]

def timerRequest : Request where
  verbosity := 0
  input := ⟨.here, ["chip.svd"]⟩
  output := ⟨.here, ["generated"]⟩
  options := { indentation := "\t", selectedPeripherals := ["TIMER"] }

def timerDocument : List UInt8 :=
  ("<device><name>Chip</name><peripherals><peripheral><name>TIMER</name>" ++
    "<baseAddress>0x1000</baseAddress></peripheral></peripherals></device>").toUTF8.toList

def emptyTree : FileTree := ⟨fun _ => false, fun _ => none⟩

theorem respond_generate_timer :
    let response := respond (Command.ofArguments timerArguments) [] ⟨.root, []⟩
      (some timerDocument)
    Command.ofArguments timerArguments = .ok (.generate timerRequest) ∧
      emptyTree.IsWritable timerRequest.output ∧
      Asks (itemsOf (Word.ofTexts timerArguments)) timerRequest ∧ response.exitCode = 0 ∧
      ∃ device after, (exportDevice timerRequest.options device).outcome = .ok () ∧
        emptyTree.writeAll? response.files = some after ∧
        emptyTree.Receives timerRequest.output (storedUnits timerRequest.options device)
          after := by
  intro response
  have hitems : itemsOf (Word.ofTexts timerArguments) =
      [.parameter .peripheral "TIMER", .flag .indentTabs, .parameter .input "chip.svd",
        .parameter .output "generated"] := by decide +kernel
  have harguments : Command.ofArguments timerArguments = .ok (.generate timerRequest) := by
    rw [Command.ofArguments, hitems]
    rfl
  have hwritable : emptyTree.IsWritable timerRequest.output :=
    ⟨fun _ _ => rfl, fun _ _ => rfl⟩
  have hexit : response.exitCode = 0 := by decide +kernel
  rcases respond_generate harguments [] ⟨.root, []⟩ (some timerDocument) hwritable with
    ⟨hasks, -, hsuccess, after, hafter, hfiles, -⟩
  rcases hsuccess.mp hexit with ⟨bytes, device, hbytes, hread, hexport, hencodable⟩
  exact ⟨harguments, hwritable, hasks, hexit, device, after, hexport, hafter,
    hfiles bytes device hbytes hread hencodable⟩

/-! ### A device that is named with a byte that is part of no character -/

def strayArguments : List String :=
  ["-i", "chip.svd", "-o", "generated", "--namespace-under-device", "--device-name", "Caf\uffff"]

def strayRequest : Request where
  verbosity := 0
  input := ⟨.here, ["chip.svd"]⟩
  output := ⟨.here, ["generated"]⟩
  options := { indentation := "  ", namespaceUnderDevice := true, deviceName := some "Caf\uffff" }

/-- The device is read and exported to two units, but the run crashes at the first.  All
that is left is an empty file. -/
theorem respond_generate_stray :
    let response := respond (Command.ofArguments strayArguments) ['\uffff'] ⟨.root, []⟩
      (some timerDocument)
    Command.ofArguments strayArguments = .ok (.generate strayRequest) ∧
      (∃ device, (readDevice strayRequest.input.text timerDocument).outcome = .ok device ∧
        (exportDevice strayRequest.options device).outcome = .ok () ∧
        (storedUnits strayRequest.options device).map (·.name) =
          ["Device.swift", "TIMER.swift"]) ∧
      response.exitCode = 1 ∧
      response.files.map (fun file => (file.path, file.contents.size)) =
        [(strayRequest.output.child "Device.swift", 0)] := by
  intro response
  have hitems : itemsOf (Word.ofTexts strayArguments) =
      [.parameter .input "chip.svd", .parameter .output "generated", .flag .namespaceUnderDevice,
        .parameter .deviceName "Caf\uffff"] := by decide +kernel
  have harguments : Command.ofArguments strayArguments = .ok (.generate strayRequest) := by
    rw [Command.ofArguments, hitems]
    rfl
  have hrun : (strayRequest.run ⟨.root, []⟩ (some timerDocument)).outcome = .ok () := by
    decide +kernel
  have hnames : ((UnitStore.ofUnits (writtenUnits
      (strayRequest.run ⟨.root, []⟩ (some timerDocument)).events)).units.map (·.name)) =
        ["Device.swift", "TIMER.swift"] := by decide +kernel
  rcases Request.outcome_run_eq_ok_iff.mp hrun with ⟨bytes, device, hbytes, hread, hexport⟩
  obtain rfl := Option.some.inj hbytes
  rw [(Request.run_of_read hread).2] at hnames
  exact ⟨harguments, ⟨device, hread, hexport, hnames⟩, by decide +kernel, by decide +kernel⟩

end RegisterMap.CommandLine
