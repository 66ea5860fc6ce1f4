import HeaderKeys.CommandLine.Run
import HeaderKeys.Proofs.HeaderFiles
import HeaderKeys.Proofs.ScannerRuns

/-! A run in two halves: what it decides from the inputs, and what it then does with the
files. The first half sees the inputs only through the table they are collected in, so
runs that collect the same table decide the same. -/

namespace HeaderKeys

namespace KeyTable

/-- Scans contents of files in order. -/
def scanContents (table : KeyTable) (contents : List Bytes) : KeyTable :=
  contents.foldl (fun current content => (scanText (Utf8.decode content) current).2) table

theorem scanContents_eq (table : KeyTable) (contents : List Bytes) :
    table.scanContents contents = table.recordAll (contents.flatMap fun content => findings (Utf8.decode content)) := by
  induction contents generalizing table with
  | nil => rfl
  | cons content contents ih =>
    rw [List.flatMap_cons, recordAll_append]
    exact ih _

end KeyTable

theorem collect_result {inputs : List Input} {contents : List Bytes}
    (held : inputs.map Input.content = contents.map .ok) (table : KeyTable) :
    (collect table inputs).result = .ok (table.scanContents contents) := by
  induction inputs generalizing table contents with
  | nil =>
    obtain rfl : contents = [] := by simpa using held.symm
    rfl
  | cons input inputs ih =>
    cases contents with
    | nil => cases held
    | cons content contents =>
      obtain ⟨first, later⟩ := List.cons.inj held
      simp only [collect, first]
      exact ih later _

theorem level_eventsOfAll (table : KeyTable) (findings : List Finding) :
    ∀ event ∈ table.eventsOfAll findings, event.level ≠ .warn := by
  induction findings generalizing table with
  | nil => simp [KeyTable.eventsOfAll]
  | cons finding findings ih =>
    cases finding with
    | opened key => simpa [KeyTable.eventsOfAll, KeyTable.eventsOf, Event.level] using ih _
    | closed key block =>
      by_cases present : (table.get? key).isSome <;>
        simpa [KeyTable.eventsOfAll, KeyTable.eventsOf, present, Event.level] using ih _

/-- Missing keys are no concern of collecting. -/
theorem collect_not_warning (table : KeyTable) (inputs : List Input) (text : Text) :
    Event.warning text ∉ (collect table inputs).events := by
  induction inputs generalizing table with
  | nil => simp [collect]
  | cons input inputs ih =>
    simp only [collect]
    split
    next content read =>
      have unwarned : Event.warning text ∉ table.eventsOfAll (findings (Utf8.decode content)) :=
        fun member => level_eventsOfAll _ _ _ member rfl
      simp [scanEvents, unwarned, ih]
    next failure read => cases failure <;> simp [failureEvents]

namespace CommandLine

theorem content_inputsOf {fs : FileSystem} {paths : List Path} {contents : List Bytes}
    (held : paths.map fs.node? = contents.map fun content => some (.file content)) :
    (inputsOf fs paths).map Input.content = contents.map .ok := by
  induction paths generalizing contents with
  | nil =>
    obtain rfl : contents = [] := by simpa using held.symm
    rfl
  | cons path paths ih =>
    cases contents with
    | nil => cases held
    | cons content contents =>
      obtain ⟨first, later⟩ := List.cons.inj held
      have read : fs.readHeader path = .ok content := FileSystem.readHeader_eq_ok_iff.mpr first
      exact congr (congrArg List.cons read) (ih later)

/-- What a run comes to once it is decided. -/
def Decision.outcome (decided : Decision) (verbosity : Nat) (fs : FileSystem) : Outcome :=
  ⟨decided.ending verbosity (decided.plan.perform fs).2, (decided.plan.perform fs).1⟩

theorem stdout_of_print {decided : Decision} {text : Text} (plan : decided.plan = .print text) (verbosity : Nat)
    (fs : FileSystem) : (decided.outcome verbosity fs).ending.stdout = text := by
  simp only [Decision.outcome, Decision.ending, plan]
  rfl

section Writing

variable {path : Path} {text : Text} {fs : FileSystem} (events : List Event) (verbosity : Nat)

theorem ending_of_stored (stored : (fs.store path (Utf8.encode text)).2 = .ok ()) :
    ((⟨events, .write path text⟩ : Decision).outcome verbosity fs).ending =
      .success verbosity (events ++ [.wrote path (Utf8.encode text).length])
        ("Wrote ".toList ++ path.display ++ "\n".toList) := by
  simp only [Decision.outcome, Decision.ending, Plan.perform, stored]

theorem ending_of_unstored {failure : Failure} (failed : (fs.store path (Utf8.encode text)).2 = .error failure) :
    ((⟨events, .write path text⟩ : Decision).outcome verbosity fs).ending =
      .failure verbosity events (.generation path failure) := by
  simp only [Decision.outcome, Decision.ending, Plan.perform, failed]

end Writing

theorem run_of_parse {invocation : Invocation} {options : Options} (parsed : parse invocation.arguments = .ok options)
    (fs : FileSystem) : run invocation fs =
      (decision invocation.program.display options (inputsOf fs options.files)).outcome options.verbosity fs := by
  rw [run, parsed]
  rfl

section Decisions

variable {invokedAs : Text} {options : Options} {inputs : List Input}

theorem decision_misplaced (outside : occurs toolsDirectory invokedAs = false) :
    decision invokedAs options inputs = ⟨[], .fail (.invocation (.wrongWorkingDirectory invokedAs))⟩ := by
  simp only [decision, checkInvocation, outside]
  rfl

variable (invoked : occurs toolsDirectory invokedAs = true)
include invoked

theorem decision_broken {path : Path} {failure : Failure}
    (broken : (collect .empty inputs).result = .error (path, failure)) :
    decision invokedAs options inputs = ⟨(collect .empty inputs).events, .fail (.extraction path failure)⟩ := by
  simp only [decision, checkInvocation, invoked, if_true, broken]

variable {table : KeyTable} (collected : (collect .empty inputs).result = .ok table)
include collected

theorem decision_incomplete {incomplete : IncompleteKeys} (rendered : table.render = .error incomplete) :
    decision invokedAs options inputs =
      ⟨(collect .empty inputs).events ++ [.warning (Failure.incompleteKeys incomplete.found).message], .skip⟩ := by
  simp only [decision, checkInvocation, invoked, if_true, collected, rendered]

theorem decision_complete {text : Text} (rendered : table.render = .ok text) :
    decision invokedAs options inputs = ⟨(collect .empty inputs).events ++ KeyName.all.map .emitting,
      if options.dryRun then .print text else .write options.output text⟩ := by
  simp only [decision, checkInvocation, invoked, if_true, collected, rendered]

end Decisions

/-- Inputs that are collected in one table lead to one plan, and to one warning if keys are missing. -/
theorem decision_congr (invokedAs : Text) {options options' : Options} {inputs inputs' : List Input} {table : KeyTable}
    (collected : (collect .empty inputs).result = .ok table) (collected' : (collect .empty inputs').result = .ok table)
    (output : options'.output = options.output) (dryRun : options'.dryRun = options.dryRun) :
    (decision invokedAs options inputs).plan = (decision invokedAs options' inputs').plan ∧
      ∀ text, Event.warning text ∈ (decision invokedAs options inputs).events ↔
        Event.warning text ∈ (decision invokedAs options' inputs').events := by
  unfold decision
  cases checkInvocation invokedAs with
  | error failure => exact ⟨rfl, fun _ => Iff.rfl⟩
  | ok =>
    simp only [collected, collected', output, dryRun]
    cases table.render with
    | error incomplete => exact ⟨rfl, fun text => by simp [collect_not_warning]⟩
    | ok source => exact ⟨rfl, fun text => by simp [collect_not_warning]⟩

end CommandLine

end HeaderKeys
