import HeaderKeys.Proofs.ReadingSteps
import HeaderKeys.Proofs.RunEffects

/-! A dry run beside the run that writes. Asking for it first changes nothing else in how the
arguments are read, and both runs decide alike up to the last step, where the one prints
what the other stores. So what is printed is what is stored, and nothing is stored by printing. -/

namespace HeaderKeys.CommandLine

namespace Reading

/-- What has been read, and a dry run asked for. -/
def dry (reading : Reading) : Reading := { reading with dryRun := true }

/-- Reading on goes the same way if a dry run has been asked for, as long as nothing else asks for one. -/
def Indifferent (operation : Reading → Except Stop Reading) : Prop :=
  ∀ before after, operation before = .ok after → after.dryRun = false → before.dryRun = false ∧ operation before.dry = .ok after.dry

theorem indifferent_ok : Indifferent .ok := by
  intro before after read real
  cases read
  exact ⟨real, rfl⟩

theorem indifferent_error (stop : Stop) : Indifferent fun _ => .error stop := by
  intro before after read
  cases read

theorem Indifferent.bind {first second : Reading → Except Stop Reading} (one : Indifferent first) (two : Indifferent second) :
    Indifferent fun reading => first reading >>= second := by
  intro before after read real
  cases begun : first before with
  | error stop =>
    simp only [begun] at read
    cases read
  | ok middle =>
    simp only [begun] at read
    obtain ⟨real', read'⟩ := two _ _ read real
    obtain ⟨real'', begun'⟩ := one _ _ begun real'
    simp only [begun']
    exact ⟨real'', read'⟩

theorem indifferent_setOutput (value : Path) : Indifferent (setOutput · value) := by
  intro before after read real
  simp only [setOutput] at read ⊢
  split at read
  · cases read
  next unset =>
    split at read
    · cases read
    next given =>
      cases read
      exact ⟨real, by simp [dry, unset, given]⟩

theorem indifferent_settle : Indifferent settle := by
  intro before after read real
  simp only [settle] at read ⊢
  split at read
  next pending =>
    cases read
    exact ⟨real, by simp [dry, pending]⟩
  next pending => cases read
  next value pending =>
    obtain ⟨real', read'⟩ := indifferent_setOutput value _ _ read real
    exact ⟨real', by simpa [dry, pending] using read'⟩
  next names pending =>
    split at read
    · cases read
    next named =>
      cases read
      simp only [dry, pending, if_neg named]
      exact ⟨real, trivial⟩

theorem indifferent_flag (parameter : Parameter) : Indifferent (flag · parameter) := by
  refine indifferent_settle.bind ?_
  intro settled after read real
  cases parameter with
  | dryRun =>
    -- Only here the two readings would differ, but this one would ask for a dry run.
    simp only at read
    split at read
    · cases read
    · cases read
      cases real
  | help | version => cases read
  | files | output | verbose =>
    cases read
    exact ⟨real, rfl⟩

theorem indifferent_operand (name : Path) : Indifferent (operand · name) := by
  intro before after read real
  simp only [operand] at read ⊢
  split at read
  next names pending =>
    cases read
    exact ⟨real, by simp [dry, pending]⟩
  next other =>
    have settled : Indifferent fun reading => reading.settle >>= fun settled => .ok { settled with pending := .files [name] } := by
      refine indifferent_settle.bind ?_
      intro settled after read real
      cases read
      exact ⟨real, rfl⟩
    obtain ⟨real', read'⟩ := settled _ _ read real
    refine ⟨real', ?_⟩
    split
    next names pending => exact absurd pending (other names)
    · exact read'

theorem indifferent_plain (argument : Bytes) : Indifferent (plain · argument) := by
  intro before after read real
  simp only [plain] at read ⊢
  split at read
  next pending =>
    cases read
    exact ⟨real, by simp [dry, pending]⟩
  next other =>
    obtain ⟨real', read'⟩ := indifferent_operand argument _ _ read real
    refine ⟨real', ?_⟩
    split
    next pending => exact absurd pending other
    · exact read'

theorem stepwise_indifferent : Stepwise fun _ operation => Indifferent operation where
  ok := indifferent_ok
  error _ stop := indifferent_error stop
  bind begun further := begun.bind further
  settle := indifferent_settle
  setOutput := indifferent_setOutput
  flag := indifferent_flag
  operand := indifferent_operand
  plain := indifferent_plain

theorem options_dry {reading : Reading} {options : Options} (read : reading.options = .ok options) (real : options.dryRun = false) :
    reading.dryRun = false ∧ reading.dry.options = .ok { options with dryRun := true } := by
  cases closed : reading.settle with
  | error stop =>
    simp only [Reading.options, closed] at read
    cases read
  | ok settled =>
    simp only [Reading.options, closed, bind, Except.bind] at read
    split at read
    · cases read
    next some =>
      cases read
      obtain ⟨real', closed'⟩ := indifferent_settle _ _ closed real
      have named : settled.dry.files ≠ [] := some
      simp only [Reading.options, closed', bind, Except.bind, if_neg named]
      exact ⟨real', rfl⟩

end Reading

theorem parse_dryRun {arguments : List Bytes} {options : Options} (parsed : parse arguments = .ok options)
    (real : options.dryRun = false) :
    parse (Path.ofText "--dry-run".toList :: arguments) = .ok { options with dryRun := true } := by
  cases read : ({} : Reading).arguments arguments with
  | error stop =>
    simp only [parse, read] at parsed
    cases parsed
  | ok reading =>
    simp only [parse, read, bind, Except.bind] at parsed
    obtain ⟨real', closed⟩ := Reading.options_dry parsed real
    obtain ⟨_, read'⟩ := Reading.stepwise_indifferent.arguments arguments _ _ read real'
    have asked : ({} : Reading).arguments (Path.ofText "--dry-run".toList :: arguments) = ({} : Reading).dry.arguments arguments := rfl
    simp only [parse, asked, read', bind, Except.bind]
    exact closed

/-- The plan with printing in place of writing. -/
def Plan.printed : Plan → Plan
  | .write _ text => .print text
  | plan => plan

theorem decision_dry (invokedAs : Text) {options : Options} (real : options.dryRun = false) (inputs : List Input) :
    decision invokedAs { options with dryRun := true } inputs =
      ⟨(decision invokedAs options inputs).events, (decision invokedAs options inputs).plan.printed⟩ := by
  unfold decision
  cases checkInvocation invokedAs with
  | error failure => rfl
  | ok =>
    simp only
    cases (collect .empty inputs).result with
    | error broken => rfl
    | ok table =>
      cases rendered : table.render with
      | error incomplete => simp only [rendered, Plan.printed]
      | ok text => simp [rendered, real, Plan.printed]

/-- The run that a dry run is beside, with its plan printed. -/
theorem run_dry {invocation : Invocation} {options : Options} (parsed : parse invocation.arguments = .ok options)
    (real : options.dryRun = false) (fs : FileSystem) :
    let decided := decision invocation.program.display options (inputsOf fs options.files)
    run ⟨invocation.program, Path.ofText "--dry-run".toList :: invocation.arguments⟩ fs =
      (⟨decided.events, decided.plan.printed⟩ : Decision).outcome options.verbosity fs := by
  intro decided
  let dry : Invocation := ⟨invocation.program, Path.ofText "--dry-run".toList :: invocation.arguments⟩
  have parsed' : parse dry.arguments = .ok { options with dryRun := true } := parse_dryRun parsed real
  rw [run_of_parse parsed', decision_dry _ real]

section Printed

variable {decided : Decision} {verbosity : Nat} {fs : FileSystem}

theorem files_printed : ((⟨decided.events, decided.plan.printed⟩ : Decision).outcome verbosity fs).files = fs := by
  obtain ⟨events, plan⟩ := decided
  cases plan <;> rfl

theorem ending_printed (idle : ∀ path text, decided.plan ≠ .write path text) :
    ((⟨decided.events, decided.plan.printed⟩ : Decision).outcome verbosity fs).ending = (decided.outcome verbosity fs).ending := by
  obtain ⟨events, plan⟩ := decided
  cases plan with
  | write path text => exact absurd rfl (idle path text)
  | fail | skip | print => rfl

end Printed

section Ways

variable {invokedAs : Text} {options : Options} {fs : FileSystem}

theorem plan_of_obstacle (obstacle : occurs toolsDirectory invokedAs = false ∨
      ∃ path ∈ options.files, ∀ content, fs.node? path ≠ some (.file content)) :
    ∃ trouble, (decision invokedAs options (inputsOf fs options.files)).plan = .fail trouble := by
  have way := course invokedAs options fs
  generalize (decision invokedAs options (inputsOf fs options.files)).plan = plan at way ⊢
  have passed (invoked : occurs toolsDirectory invokedAs = true) {contents : List Bytes}
      (held : options.files.map fs.node? = contents.map fun content => some (.file content)) : False := by
    rcases obstacle with outside | ⟨path, named, unread⟩
    · rw [invoked] at outside
      cases outside
    · obtain ⟨content, _, present⟩ := exists_content held named
      exact unread content present
  cases way with
  | misplaced outside => exact ⟨_, rfl⟩
  | unreadable => exact ⟨_, rfl⟩
  | incomplete invoked held => exact (passed invoked held).elim
  | complete invoked held => exact (passed invoked held).elim

section Held

variable {contents : List Bytes} (invoked : occurs toolsDirectory invokedAs = true)
  (held : options.files.map fs.node? = contents.map fun content => some (.file content))
include invoked held

theorem plan_of_unclosed {key : KeyName}
    (nowhere : ∀ content ∈ contents, ∀ array ∈ (Utf8.decode content).outline.arrays, array.key ≠ key) :
    (decision invokedAs options (inputsOf fs options.files)).plan = .skip := by
  have collected : (collect .empty (inputsOf fs options.files)).result = .ok (KeyTable.empty.scanContents contents) :=
    collect_result (content_inputsOf held) .empty
  cases rendered : (KeyTable.empty.scanContents contents).render with
  | error incomplete => rw [decision_incomplete invoked collected rendered]
  | ok text =>
    have complete := KeyTable.isComplete_of_render rendered
    obtain ⟨content, member, array, closes, named⟩ := KeyTable.isComplete_scanContents.mp complete key
    exact absurd named (nowhere content member array closes)

theorem plan_of_closed (real : options.dryRun = false)
    (closed : ∀ key, ∃ content ∈ contents, ∃ array ∈ (Utf8.decode content).outline.arrays, array.key = key) :
    ∃ text, (decision invokedAs options (inputsOf fs options.files)).plan = .write options.output text := by
  have collected : (collect .empty (inputsOf fs options.files)).result = .ok (KeyTable.empty.scanContents contents) :=
    collect_result (content_inputsOf held) .empty
  obtain ⟨constants, known⟩ := KeyTable.exists_constants (KeyTable.isComplete_scanContents.mpr closed)
  exact ⟨_, decision_of_collected invoked real collected (KeyTable.render_of_get? known)⟩

end Held

end Ways

/-- With `--dry-run` put first, a run that does not come to writing ends as before, and a run that writes
its file prints instead, byte for byte, what the file then holds. Files stay as they were. -/
theorem dry_run_agrees {invocation : Invocation} {options : Options} (parsed : parse invocation.arguments = .ok options)
    (real : options.dryRun = false) (fs : FileSystem) :
    let dry : Invocation := ⟨invocation.program, Path.ofText "--dry-run".toList :: invocation.arguments⟩
    (occurs toolsDirectory invocation.program.display = false ∨
        (∃ path ∈ options.files, ∀ content, fs.node? path ≠ some (.file content)) →
      (run dry fs).ending = (run invocation fs).ending ∧ (run invocation fs).ending.exitCode = 1) ∧
    (∀ contents : List Bytes, occurs toolsDirectory invocation.program.display = true →
      (options.files.map fs.node? = contents.map fun content => some (.file content)) →
      (∃ key, ∀ content ∈ contents, ∀ array ∈ (Utf8.decode content).outline.arrays, array.key ≠ key) →
      (run dry fs).ending = (run invocation fs).ending ∧
        (run invocation fs).ending.exitCode = 0 ∧ (run invocation fs).ending.stdout = []) ∧
    (∀ contents, Warrant invocation fs options contents → (run invocation fs).ending.exitCode = 0 →
      (run invocation fs).files.isRegularFile options.output = true →
      (run dry fs).ending.exitCode = 0 ∧
        (run invocation fs).files.node? options.output = some (.file (Utf8.encode (run dry fs).ending.stdout))) ∧
    (run dry fs).files = fs := by
  intro dry
  have run' : run dry fs = _ := run_dry parsed real fs
  rw [run', run_of_parse parsed]
  refine ⟨fun obstacle => ?_, fun contents invoked held ⟨key, nowhere⟩ => ?_, fun contents warrant succeeded regular => ?_,
    files_printed⟩
  · obtain ⟨trouble, plan⟩ := plan_of_obstacle obstacle
    refine ⟨ending_printed (by simp [plan]), ?_⟩
    simp only [Decision.outcome, Decision.ending, plan]
    rfl
  · have plan := plan_of_unclosed invoked held nowhere
    refine ⟨ending_printed (by simp [plan]), ?_⟩
    simp only [Decision.outcome, Decision.ending, plan]
    exact ⟨rfl, rfl⟩
  · obtain ⟨text, plan⟩ := plan_of_closed warrant.invoked warrant.held real warrant.closed
    obtain ⟨_, stored⟩ := written_of_exitCode plan succeeded
    rw [FileSystem.node?_store stored regular]
    simp only [Decision.outcome, Decision.ending, plan, Plan.printed]
    exact ⟨rfl, rfl⟩

/-- One invocation over three file systems: its header is missing, closes one key only, or closes all
of them and is then replaced by the output. -/
theorem dry_run_agrees_over_own_header :
    let name (text : String) : Path := Path.ofText text.toList
    let arguments := [name "a.h", name "-vv", name "-oa.h"]
    let real : Invocation := ⟨name "./tools/update", arguments⟩
    let dry : Invocation := ⟨name "./tools/update", name "--dry-run" :: arguments⟩
    let one : Bytes := Utf8.encode "uint32_t in_key_p\n0x12345678\n\x7d;\n".toList
    let all : Bytes := one ++ Utf8.encode
      "uint32_t out_key_p\n\x7d;\nuint32_t out_key_s\n\x7d;\nuint32_t in_key_s\n\x7d;".toList
    let holding (content : Bytes) := FileSystem.fresh.layOut [.file (name "a.h") content]
    ((run dry .fresh).ending = (run real .fresh).ending ∧ (run real .fresh).ending.exitCode = 1) ∧
    ((run dry (holding one)).ending = (run real (holding one)).ending ∧
      (run real (holding one)).ending.exitCode = 0 ∧ (run real (holding one)).ending.stdout = []) ∧
    ((run dry (holding all)).ending.exitCode = 0 ∧ (run real (holding all)).files.node? (name "a.h") =
        some (.file (Utf8.encode (run dry (holding all)).ending.stdout))) ∧
    (run dry (holding all)).files = holding all := by
  intro name arguments real dry one all holding
  have parsed : parse real.arguments = .ok ⟨[name "a.h"], name "a.h", 2, false⟩ := rfl
  have invoked : occurs toolsDirectory real.program.display = true := by decide +kernel
  have missing : FileSystem.fresh.node? (name "a.h") = none := by decide +kernel
  have held : ∀ content ∈ [one, all], (holding content).node? (name "a.h") = some (.file content) := by decide +kernel
  have lacking : ∀ content ∈ [one], ∀ array ∈ (Utf8.decode content).outline.arrays, array.key ≠ .outKeyS := by decide +kernel
  have closed : ∀ key ∈ KeyName.all, ∃ array ∈ (Utf8.decode all).outline.arrays, array.key = key := by decide +kernel
  have warrant : Warrant real (holding all) ⟨[name "a.h"], name "a.h", 2, false⟩ [all] :=
    ⟨parsed, rfl, invoked, congrArg (fun node => [node]) (held all (by simp)), fun key => ⟨all, by simp, closed key (KeyName.mem_all key)⟩⟩
  obtain ⟨succeeded, regular⟩ : (run real (holding all)).ending.exitCode = 0 ∧
      (run real (holding all)).files.isRegularFile (name "a.h") = true := by decide +kernel
  obtain ⟨unread, _⟩ := dry_run_agrees parsed rfl .fresh
  obtain ⟨_, lone, _⟩ := dry_run_agrees parsed rfl (holding one)
  obtain ⟨_, _, whole, kept⟩ := dry_run_agrees parsed rfl (holding all)
  exact ⟨unread (.inr ⟨name "a.h", by simp, by simp [missing]⟩),
    lone [one] invoked (congrArg (fun node => [node]) (held one (by simp))) ⟨.outKeyS, lacking⟩,
    whole [all] warrant succeeded regular, kept⟩

end HeaderKeys.CommandLine
