import HeaderKeys.FileSystem.Layout
import HeaderKeys.Proofs.FileCauses
import HeaderKeys.Proofs.FileWriting
import HeaderKeys.Proofs.Warnings

/-! How a run with options ends. It fails in three places: where it is started, at the first header
that cannot be scanned, and at an output that cannot be written; missing keys are no failure. What
it tells is the warnings and, behind them, the report of the one failure with its causes. -/

namespace HeaderKeys.CommandLine

section Reports

/-- The report of an operation on files that was refused by the system. -/
def refusalReport (summary attempt : Text) (path : Path) (cause : IoError) : List Text :=
  ["Error: ".toList ++ summary, [], "Caused by:".toList,
    "    0: failed to ".toList ++ attempt ++ " '".toList ++ path.display ++ "': ".toList ++ cause.message,
    "    1: ".toList ++ cause.message]

/-- What a failed run reports. -/
inductive ErrorReport (invocation : Invocation) (options : Options) (fs : FileSystem) : List Text → Prop
  | misplaced (outside : occurs toolsDirectory invocation.program.display = false) :
      ErrorReport invocation options fs
        ["Error: Please run this from the project's root directory (invoked as '".toList
          ++ invocation.program.display ++ "')".toList]
  | notAFile {front later : List Path} {path : Path} (invoked : occurs toolsDirectory invocation.program.display = true)
      (cut : options.files = front ++ path :: later) (scanned : ∀ earlier ∈ front, fs.scans earlier = true)
      (irregular : fs.isRegularFile path = false) :
      ErrorReport invocation options fs
        ["Error: Failed to extract keys from ".toList ++ path.display, [], "Caused by:".toList,
          "    ".toList ++ path.display ++ " is not a file".toList]
  | unread {front later : List Path} {path : Path} (invoked : occurs toolsDirectory invocation.program.display = true)
      (cut : options.files = front ++ path :: later) (scanned : ∀ earlier ∈ front, fs.scans earlier = true)
      (faulty : fs.node? path = some .faulty) :
      ErrorReport invocation options fs
        (refusalReport ("Failed to extract keys from ".toList ++ path.display) "read file".toList path .inputOutput)
  | noDirectory {contents : List Bytes} {parent : Path} {cause : IoError} (warrant : Warrant invocation fs options contents)
      (above : options.output.parent? = some parent) (refused : (fs.makeDirectories parent).2 = .error cause) :
      ErrorReport invocation options fs
        (refusalReport ("Failed to generate ".toList ++ options.output.display) "create directory".toList parent cause)
  | noFile {contents : List Bytes} {text : Text} {made : FileSystem} {cause : IoError}
      (warrant : Warrant invocation fs options contents)
      (rendered : (KeyTable.empty.scanContents contents).render = .ok text)
      (prepared : fs.prepare options.output = (made, .ok ()))
      (refused : made.writeFile options.output (Utf8.encode text) = .error cause) :
      ErrorReport invocation options fs
        (refusalReport ("Failed to generate ".toList ++ options.output.display) "write file".toList options.output cause)

namespace Trouble

section Clean

variable {trouble : Trouble} (summarized : trouble.summary.isClean = true)
include summarized

theorem lines_alone (none : trouble.causes = []) : trouble.lines = ["Error: ".toList ++ trouble.summary] := by
  rw [lines, none, labelled_of_isClean summarized, List.append_nil]

theorem lines_one_cause {cause : Text} (one : trouble.causes = [cause]) (clean : cause.isClean = true) :
    trouble.lines = ["Error: ".toList ++ trouble.summary, [], "Caused by:".toList, "    ".toList ++ cause] := by
  rw [lines, one, labelled_of_isClean summarized]
  simp only [labelled_of_isClean clean]
  rfl

theorem lines_two_causes {first second : Text} (two : trouble.causes = [first, second]) (clean : first.isClean = true)
    (clean' : second.isClean = true) : trouble.lines = ["Error: ".toList ++ trouble.summary, [], "Caused by:".toList,
      "    0: ".toList ++ first, "    1: ".toList ++ second] := by
  rw [lines, two, labelled_of_isClean summarized]
  simp only [numbered, labelled_of_isClean clean, labelled_of_isClean clean']
  rfl

end Clean

theorem lines_invocation {invokedAs : Text} (clean : invokedAs.isClean = true) :
    (invocation (.wrongWorkingDirectory invokedAs)).lines =
      ["Error: Please run this from the project's root directory (invoked as '".toList ++ invokedAs ++ "')".toList] := by
  have message : (Failure.wrongWorkingDirectory invokedAs).message =
      "Please run this from the project's root directory (invoked as '".toList ++ (invokedAs ++ "')".toList) := by
    unfold Failure.message Text.quoted
    simp only [List.append_assoc, toList_append_append, ← String.toList_append, String.reduceAppend]
  have plain : (Failure.wrongWorkingDirectory invokedAs).message.isClean = true := by
    rw [message]
    simp only [Text.isClean_append, clean]
    decide
  have told : (invocation (.wrongWorkingDirectory invokedAs)).lines =
      ["Error: ".toList ++ (Failure.wrongWorkingDirectory invokedAs).message] := lines_alone plain rfl
  rw [told, message]
  simp only [List.append_assoc, toList_append_append, String.reduceAppend]

theorem lines_notAFile {path : Path} (clean : path.display.isClean = true) :
    (extraction path (.notAFile path)).lines = ["Error: Failed to extract keys from ".toList ++ path.display, [],
      "Caused by:".toList, "    ".toList ++ path.display ++ " is not a file".toList] := by
  have plain : Text.isClean (path.display ++ " is not a file".toList) = true := Text.isClean_of_parts clean (by decide)
  have told : (extraction path (.notAFile path)).lines =
      ["Error: ".toList ++ ("Failed to extract keys from ".toList ++ path.display), [], "Caused by:".toList,
        "    ".toList ++ (path.display ++ " is not a file".toList)] :=
    lines_one_cause (Text.isClean_of_parts (by decide) clean) rfl plain
  rw [told]
  simp only [toList_append_append, String.reduceAppend, List.append_assoc]

/-- Every refusal is reported in one way, with what the system said as a cause of its own. -/
theorem lines_refused {trouble : Trouble} {attempt : String} {path : Path} {cause : IoError}
    (causes : trouble.causes = [Failure.ioMessage attempt path cause, cause.message])
    (summarized : trouble.summary.isClean = true) (attempted : Text.isClean attempt.toList = true)
    (clean : path.display.isClean = true) (known : cause ∈ IoError.ofFiles) :
    trouble.lines = refusalReport trouble.summary attempt.toList path cause := by
  have said := IoError.isClean_message known
  have message : Failure.ioMessage attempt path cause = "failed to ".toList ++ (attempt.toList
      ++ (" '".toList ++ (path.display ++ ("': ".toList ++ cause.message)))) := by
    unfold Failure.ioMessage Text.quoted
    generalize attempt.toList = attempt
    simp only [List.append_assoc, toList_append_append, String.reduceAppend]
  have plain : (Failure.ioMessage attempt path cause).isClean = true := by
    rw [message]
    simp only [Text.isClean_append, clean, said, attempted, Bool.and_true, Bool.true_and]
    decide
  rw [lines_two_causes summarized causes plain said, message]
  unfold refusalReport
  generalize attempt.toList = attempt
  simp only [List.append_assoc, toList_append_append, String.reduceAppend]

end Trouble

variable {invocation : Invocation} {options : Options} {fs : FileSystem}

theorem report_unscanned {front later : List Path} {path : Path} {contents : List Bytes} {failure : Failure}
    (invoked : occurs toolsDirectory invocation.program.display = true) (cut : options.files = front ++ path :: later)
    (held : front.map fs.node? = contents.map fun content => some (.file content))
    (failed : fs.readHeader path = .error failure) (clean : path.display.isClean = true) :
    ErrorReport invocation options fs (Trouble.extraction path failure).lines := by
  have scanned : ∀ earlier ∈ front, fs.scans earlier = true := fun _ named => FileSystem.scans_of_held held named
  rcases FileSystem.readHeader_eq_error_iff.mp failed with ⟨irregular, rfl⟩ | ⟨faulty, rfl⟩
  · rw [Trouble.lines_notAFile clean]
    exact .notAFile invoked cut scanned irregular
  · rw [Trouble.lines_refused rfl (Text.isClean_of_parts (by decide) clean) (by decide) clean (by decide)]
    exact .unread invoked cut scanned faulty

theorem report_unwritten {contents : List Bytes} {text : Text} {failure : Failure}
    (warrant : Warrant invocation fs options contents) (rendered : (KeyTable.empty.scanContents contents).render = .ok text)
    (failed : (fs.store options.output (Utf8.encode text)).2 = .error failure)
    (clean : options.output.display.isClean = true) :
    ErrorReport invocation options fs (Trouble.generation options.output failure).lines := by
  have stored : fs.store options.output (Utf8.encode text) =
      ((fs.store options.output (Utf8.encode text)).1, .error failure) := Prod.ext rfl failed
  rcases FileSystem.store_eq_error_iff.mp stored with
    ⟨parent, cause, above, refused, rfl⟩ | ⟨cause, prepared, refused, rfl⟩
  · have refused' : (fs.makeDirectories parent).2 = .error cause := congrArg Prod.snd refused
    have known := FileSystem.known_makeWithin _ _ _ refused'
    have clean' := Path.isClean_display_of_prefix (Path.prefix_of_parent? above) clean
    rw [Trouble.lines_refused rfl (Text.isClean_of_parts (by decide) clean) (by decide) clean' known]
    exact .noDirectory warrant above refused'
  · have known := FileSystem.known_writeFile _ _ refused
    rw [Trouble.lines_refused rfl (Text.isClean_of_parts (by decide) clean) (by decide) clean known]
    exact .noFile warrant rendered prepared refused

end Reports

section ExitCodes

/-- The ways to fail: the wrong place, a header that cannot be scanned, and an output that cannot be
written although it is wanted and every key was closed. -/
inductive Fails (invocation : Invocation) (options : Options) (fs : FileSystem) : Prop
  | misplaced (outside : occurs toolsDirectory invocation.program.display = false)
  | unscanned {path : Path} {failure : Failure} (named : path ∈ options.files)
      (failed : ∀ table, fs.scanFile path table = .error failure)
  | unwritten {contents : List Bytes} {failure : Failure} (warrant : Warrant invocation fs options contents)
      (failed : (fs.writeClass options.output (KeyTable.empty.scanContents contents)).2 = .error failure)

variable {invocation : Invocation} {options : Options} {fs : FileSystem}

theorem held_unique {paths : List Path} {contents contents' : List Bytes}
    (held : paths.map fs.node? = contents.map fun content => some (.file content))
    (held' : paths.map fs.node? = contents'.map fun content => some (.file content)) : contents = contents' := by
  refine List.map_injective_iff.mpr (fun first second same => ?_) (held.symm.trans held')
  exact Node.file.inj (Option.some.inj same)

/-- A run that has scanned every header can fail at its output only. -/
theorem Fails.of_held (fails : Fails invocation options fs) {contents : List Bytes}
    (invoked : occurs toolsDirectory invocation.program.display = true)
    (held : options.files.map fs.node? = contents.map fun content => some (.file content)) :
    Warrant invocation fs options contents ∧
      ∃ failure, (fs.writeClass options.output (KeyTable.empty.scanContents contents)).2 = .error failure := by
  cases fails with
  | misplaced outside =>
    rw [invoked] at outside
    cases outside
  | unscanned named failed =>
    have scans := FileSystem.scans_of_held held named
    rw [FileSystem.scans, failed .empty] at scans
    cases scans
  | unwritten warrant failed =>
    obtain rfl := held_unique held warrant.held
    exact ⟨warrant, _, failed⟩

theorem exitCode_settled (parsed : parse invocation.arguments = .ok options) (fs : FileSystem) :
    (run invocation fs).ending.exitCode = 0 ∧ ¬ Fails invocation options fs ∨
      (run invocation fs).ending.exitCode = 1 ∧ Fails invocation options fs := by
  rw [run_of_parse parsed]
  have way := course invocation.program.display options fs
  generalize decision invocation.program.display options (inputsOf fs options.files) = decided at way ⊢
  obtain ⟨events, plan⟩ := decided
  dsimp only at way
  cases way with
  | misplaced outside => exact .inr ⟨rfl, .misplaced outside⟩
  | unreadable invoked cut held failed =>
    refine .inr ⟨rfl, .unscanned ?_ fun table => FileSystem.scanFile_eq_error_iff.mpr failed⟩
    simp [cut]
  | @incomplete contents invoked held lacking =>
    refine .inl ⟨rfl, fun fails => ?_⟩
    have complete := KeyTable.isComplete_scanContents.mpr (fails.of_held invoked held).1.closed
    rw [lacking] at complete
    cases complete
  | @complete contents text invoked held rendered =>
    have complete := KeyTable.isComplete_scanContents.mp (KeyTable.isComplete_of_render rendered)
    cases real : options.dryRun with
    | true =>
      refine .inl ⟨rfl, fun fails => ?_⟩
      have writes := (fails.of_held invoked held).1.real
      rw [real] at writes
      cases writes
    | false =>
      have stores : fs.writeClass options.output (KeyTable.empty.scanContents contents) =
          fs.store options.output (Utf8.encode text) := by simp only [FileSystem.writeClass, rendered]
      cases stored : (fs.store options.output (Utf8.encode text)).2 with
      | ok =>
        refine .inl ⟨?_, fun fails => ?_⟩
        · rw [if_neg Bool.false_ne_true, ending_of_stored events _ stored]
          rfl
        · obtain ⟨_, failure, failed⟩ := fails.of_held invoked held
          rw [stores, stored] at failed
          cases failed
      | error failure =>
        refine .inr ⟨?_, .unwritten ⟨parsed, real, invoked, held, complete⟩ (stores ▸ stored)⟩
        rw [if_neg Bool.false_ne_true, ending_of_unstored events _ stored]
        rfl

end ExitCodes

section Endings

/-- The ending of a run that tells its warnings and, if it fails, a report. -/
inductive Told (invocation : Invocation) (options : Options) (fs : FileSystem) (warned : List Text) (ending : Ending) : Prop
  | succeeded (code : ending.exitCode = 0) (told : ending.stderr = warned)
  | failed {report : List Text} (code : ending.exitCode = 1) (told : ending.stderr = warned ++ report)
      (reported : ErrorReport invocation options fs report)

variable {invocation : Invocation} {options : Options} {fs : FileSystem} {contents : List Bytes}

theorem told_complete {text : Text} (parsed : parse invocation.arguments = .ok options)
    (invoked : occurs toolsDirectory invocation.program.display = true)
    (held : options.files.map fs.node? = contents.map fun content => some (.file content))
    (rendered : (KeyTable.empty.scanContents contents).render = .ok text)
    (target : options.output.display.isClean = true) (events : List Event) :
    Told invocation options fs (logLines 0 events)
      ((⟨events ++ KeyName.all.map .emitting, if options.dryRun then .print text else .write options.output text⟩ :
        Decision).outcome 0 fs).ending := by
  have closed := KeyTable.isComplete_scanContents.mp (KeyTable.isComplete_of_render rendered)
  have emitting : logLines 0 (events ++ KeyName.all.map .emitting) = logLines 0 events := by
    have quiet : ∀ event ∈ KeyName.all.map Event.emitting, event.level ≠ .warn := by simp [Event.level]
    rw [logLines_append, logLines_quiet quiet, List.append_nil]
  cases real : options.dryRun with
  | true => exact .succeeded rfl emitting
  | false =>
    rw [if_neg Bool.false_ne_true]
    cases stored : (fs.store options.output (Utf8.encode text)).2 with
    | ok =>
      rw [ending_of_stored _ _ stored]
      refine .succeeded rfl ?_
      have wrote : logLines 0 [.wrote options.output (Utf8.encode text).length] = [] := logLines_quiet (by simp [Event.level])
      rw [Ending.success, logLines_append, emitting, wrote, List.append_nil]
    | error failure =>
      rw [ending_of_unstored _ _ stored]
      refine .failed rfl ?_ (report_unwritten ⟨parsed, real, invoked, held, closed⟩ rendered stored target)
      rw [Ending.failure, emitting]

/-- What a run tells if nothing else is asked for and every path can be shown as it is. -/
theorem told (parsed : parse invocation.arguments = .ok options) (quiet : options.verbosity = 0)
    (clean : ∀ path ∈ invocation.program :: options.output :: options.files, path.display.isClean = true) (fs : FileSystem) :
    Told invocation options fs (if occurs toolsDirectory invocation.program.display then warnings fs options.files else [])
      (run invocation fs).ending := by
  obtain ⟨here, clean⟩ := List.forall_mem_cons.mp clean
  obtain ⟨target, named⟩ := List.forall_mem_cons.mp clean
  rw [run_of_parse parsed, quiet]
  cases invoked : occurs toolsDirectory invocation.program.display with
  | false =>
    rw [decision_misplaced invoked]
    exact .failed rfl (Trouble.lines_invocation here) (.misplaced invoked)
  | true =>
    rw [if_pos rfl]
    -- The warnings come from the events, the report from the plan; both follow from how collecting went.
    have gathered := collected fs .empty options.files
    generalize result : (collect .empty (inputsOf fs options.files)).result = ended at gathered
    cases gathered with
    | @broken front later path failure contents cut held failed =>
      have member : path ∈ options.files := by simp [cut]
      rw [decision_broken invoked result, warnings_of_failed named member failed]
      exact .failed rfl rfl (report_unscanned invoked cut held failed (named path member))
    | whole contents held =>
      cases rendered : (KeyTable.empty.scanContents contents).render with
      | error incomplete =>
        obtain ⟨lacking, rfl⟩ := KeyTable.render_eq_error_iff.mp rendered
        rw [decision_incomplete invoked result rendered, warnings_of_incomplete named held lacking]
        exact .succeeded rfl rfl
      | ok text =>
        rw [decision_complete invoked result rendered,
          warnings_of_complete named held (KeyTable.isComplete_of_render rendered)]
        exact told_complete parsed invoked held rendered target _

end Endings

/-- A run with options fails just if it was started in the wrong place, or a header cannot be scanned, or
the output cannot be written although it is wanted and every key was closed; missing keys
are no failure. If no more output is asked for and no path holds control characters, all that is told is
the warnings, in the order of the headers, and the report of the failure. -/
theorem diagnostics_are_exact {invocation : Invocation} {options : Options}
    (parsed : parse invocation.arguments = .ok options) (fs : FileSystem) :
    let ending := (run invocation fs).ending
    (ending.exitCode = 1 ↔ Fails invocation options fs) ∧ (ending.exitCode ≠ 1 → ending.exitCode = 0) ∧
    (options.verbosity = 0 →
      (∀ path ∈ invocation.program :: options.output :: options.files, path.display.isClean = true) →
      Told invocation options fs
        (if occurs toolsDirectory invocation.program.display then warnings fs options.files else []) ending) := by
  intro ending
  refine ⟨?_, ?_, fun quiet clean => told parsed quiet clean fs⟩
  · rcases exitCode_settled parsed fs with ⟨succeeded, none⟩ | ⟨failed, fails⟩
    · exact ⟨fun failed => absurd (succeeded.symm.trans failed) Nat.zero_ne_one, fun fails => absurd fails none⟩
    · exact ⟨fun _ => fails, fun _ => failed⟩
  · intro other
    rcases exitCode_settled parsed fs with ⟨succeeded, _⟩ | ⟨failed, _⟩
    · exact succeeded
    · exact absurd failed other

/-- Headers that stay open and keys out of order with one of them closed twice; a header that is missing
between those two; and an output below a file. -/
theorem diagnostics_are_exact_over_open_arrays :
    let name (text : String) : Path := Path.ofText text.toList
    let first : Bytes := Utf8.encode "uint32_t in_key_s\n\x7d;\nuint32_t out_key_p\n\x7d;\nuint32_t in_key_s\n1\n".toList
    let second : Bytes := Utf8.encode "uint32_t out_key_p\n\x7d;\nuint32_t in_key_p\n".toList
    let third : Bytes := Utf8.encode "uint32_t in_key_p\n\x7d;\nuint32_t out_key_s\n\x7d;".toList
    let fs := FileSystem.fresh.layOut [.file (name "a.h") first, .file (name "b.h") second, .file (name "c.h") third]
    let lacking : Invocation := ⟨name "./tools/update", [name "a.h", name "b.h", name "-oK"]⟩
    let lacking' : Options := ⟨[name "a.h", name "b.h"], name "K", 0, false⟩
    let broken : Invocation := ⟨name "./tools/update", [name "a.h", name "d.h", name "b.h", name "-oK"]⟩
    let broken' : Options := ⟨[name "a.h", name "d.h", name "b.h"], name "K", 0, false⟩
    let unwritten : Invocation := ⟨name "./tools/update", [name "a.h", name "c.h", name "-oc.h/K"]⟩
    let unwritten' : Options := ⟨[name "a.h", name "c.h"], name "c.h/K", 0, false⟩
    let unclosed : Text := "WARN a.h: in_key_s is never closed with '\x7d;', ignoring it".toList
    (¬ Fails lacking lacking' fs ∧ Told lacking lacking' fs
      [unclosed, "WARN b.h: in_key_p is never closed with '\x7d;', ignoring it".toList,
        "WARN Did not get all 4 keys needed.  Only saw: ['out_key_p', 'in_key_s']".toList] (run lacking fs).ending) ∧
    (Fails broken broken' fs ∧ Told broken broken' fs [unclosed] (run broken fs).ending) ∧
    (Fails unwritten unwritten' fs ∧ Told unwritten unwritten' fs [unclosed] (run unwritten fs).ending) := by
  intro name first second third fs lacking lacking' broken broken' unwritten unwritten' unclosed
  have lackingParsed : parse lacking.arguments = .ok lacking' := rfl
  have brokenParsed : parse broken.arguments = .ok broken' := rfl
  have unwrittenParsed : parse unwritten.arguments = .ok unwritten' := rfl
  obtain ⟨lackingCode, _, lackingTold⟩ := diagnostics_are_exact lackingParsed fs
  obtain ⟨brokenCode, _, brokenTold⟩ := diagnostics_are_exact brokenParsed fs
  obtain ⟨unwrittenCode, _, unwrittenTold⟩ := diagnostics_are_exact unwrittenParsed fs
  have invoked : occurs toolsDirectory (name "./tools/update").display = true := by decide +kernel
  have lackingWarned : warnings fs lacking'.files = [unclosed,
      "WARN b.h: in_key_p is never closed with '\x7d;', ignoring it".toList,
      "WARN Did not get all 4 keys needed.  Only saw: ['out_key_p', 'in_key_s']".toList] := by decide +kernel
  have brokenWarned : warnings fs broken'.files = [unclosed] := by decide +kernel
  have unwrittenWarned : warnings fs unwritten'.files = [unclosed] := by decide +kernel
  rw [if_pos invoked, lackingWarned] at lackingTold
  rw [if_pos invoked, brokenWarned] at brokenTold
  rw [if_pos invoked, unwrittenWarned] at unwrittenTold
  refine ⟨⟨fun fails => ?_, lackingTold rfl (by decide +kernel)⟩,
    ⟨brokenCode.mp (by decide +kernel), brokenTold rfl (by decide +kernel)⟩,
    unwrittenCode.mp (by decide +kernel), unwrittenTold rfl (by decide +kernel)⟩
  exact absurd (lackingCode.mpr fails) (by decide +kernel)

end HeaderKeys.CommandLine
