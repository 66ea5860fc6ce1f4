import HeaderKeys.FileSystem.Layout
import HeaderKeys.Proofs.GeneratedFile

/-! When a run touches files. With options, a run can go in four ways, told apart by the
program's own path and the headers, and one of them writes. So a file system that was
changed shows that a file was asked for and that everything it is made of was there. -/

namespace HeaderKeys

open CommandLine

/-- How collecting from files goes: every header is scanned, or some header is the first that
cannot be read. -/
inductive Collected (fs : FileSystem) (table : KeyTable) (paths : List Path) : Except (Path × Failure) KeyTable → Prop
  | whole (contents : List Bytes) (held : paths.map fs.node? = contents.map fun content => some (.file content)) :
      Collected fs table paths (.ok (table.scanContents contents))
  | broken (front : List Path) {later : List Path} {path : Path} {failure : Failure} (contents : List Bytes)
      (cut : paths = front ++ path :: later) (held : front.map fs.node? = contents.map fun content => some (.file content))
      (failed : fs.readHeader path = .error failure) : Collected fs table paths (.error (path, failure))

theorem held_cons {fs : FileSystem} {path : Path} {content : Bytes} (first : fs.node? path = some (.file content))
    {paths : List Path} {contents : List Bytes} (held : paths.map fs.node? = contents.map fun content => some (.file content)) :
    (path :: paths).map fs.node? = (content :: contents).map fun content => some (.file content) := by
  rw [List.map_cons, List.map_cons, first, held]

theorem collected (fs : FileSystem) (table : KeyTable) (paths : List Path) :
    Collected fs table paths (collect table (inputsOf fs paths)).result := by
  -- The later headers are collected into the table that this one leaves behind.
  induction paths generalizing table with
  | nil => exact .whole [] rfl
  | cons path paths ih =>
    cases read : fs.readHeader path with
    | error failure =>
      have stops : (collect table (inputsOf fs (path :: paths))).result = .error (path, failure) := by
        simp only [inputsOf, List.map_cons, collect, read]
      rw [stops]
      exact .broken [] [] rfl rfl read
    | ok content =>
      have first := FileSystem.readHeader_eq_ok_iff.mp read
      have goesOn : (collect table (inputsOf fs (path :: paths))).result =
          (collect (scanText (Utf8.decode content) table).2 (inputsOf fs paths)).result := by
        simp only [inputsOf, List.map_cons, collect, read]
      have later := ih (scanText (Utf8.decode content) table).2
      rw [goesOn]
      generalize (collect (scanText (Utf8.decode content) table).2 (inputsOf fs paths)).result = result at later ⊢
      cases later with
      | whole contents held => exact .whole (content :: contents) (held_cons first held)
      | broken front contents cut held failed =>
        exact .broken (path :: front) (content :: contents) (congrArg _ cut) (held_cons first held) failed

theorem exists_content {fs : FileSystem} {paths : List Path} {contents : List Bytes}
    (held : paths.map fs.node? = contents.map fun content => some (.file content)) {path : Path} (named : path ∈ paths) :
    ∃ content ∈ contents, fs.node? path = some (.file content) := by
  have member : fs.node? path ∈ paths.map fs.node? := List.mem_map_of_mem named
  rw [held] at member
  obtain ⟨content, inside, same⟩ := List.mem_map.mp member
  exact ⟨content, inside, same.symm⟩

theorem exists_path {fs : FileSystem} {paths : List Path} {contents : List Bytes}
    (held : paths.map fs.node? = contents.map fun content => some (.file content)) {content : Bytes} (member : content ∈ contents) :
    ∃ path ∈ paths, fs.node? path = some (.file content) := by
  have found : some (.file content) ∈ contents.map fun content => some (Node.file content) := List.mem_map_of_mem member
  rw [← held] at found
  exact List.mem_map.mp found

/-- The headers fill the table if each key is closed in one of them. -/
theorem KeyTable.isComplete_scanContents {contents : List Bytes} :
    (empty.scanContents contents).isComplete = true ↔
      ∀ key, ∃ content ∈ contents, ∃ array ∈ (Utf8.decode content).outline.arrays, array.key = key := by
  rw [isComplete_iff]
  apply forall_congr'
  intro key
  rw [get?_scanContents, get?_empty, Option.or_none, Option.isSome_map, isSome_lastArray?]

namespace CommandLine

/-- What the plan of a run can be, and what leads to it. -/
inductive Course (invokedAs : Text) (options : Options) (fs : FileSystem) : Plan → Prop
  | misplaced (outside : occurs toolsDirectory invokedAs = false) :
      Course invokedAs options fs (.fail (.invocation (.wrongWorkingDirectory invokedAs)))
  | unreadable {front later : List Path} {path : Path} {failure : Failure} {contents : List Bytes}
      (invoked : occurs toolsDirectory invokedAs = true) (cut : options.files = front ++ path :: later)
      (held : front.map fs.node? = contents.map fun content => some (.file content))
      (failed : fs.readHeader path = .error failure) :
      Course invokedAs options fs (.fail (.extraction path failure))
  | incomplete {contents : List Bytes} (invoked : occurs toolsDirectory invokedAs = true)
      (held : options.files.map fs.node? = contents.map fun content => some (.file content))
      (lacking : (KeyTable.empty.scanContents contents).isComplete = false) : Course invokedAs options fs .skip
  | complete {contents : List Bytes} {text : Text} (invoked : occurs toolsDirectory invokedAs = true)
      (held : options.files.map fs.node? = contents.map fun content => some (.file content))
      (rendered : (KeyTable.empty.scanContents contents).render = .ok text) :
      Course invokedAs options fs (if options.dryRun then .print text else .write options.output text)

theorem course (invokedAs : Text) (options : Options) (fs : FileSystem) :
    Course invokedAs options fs (decision invokedAs options (inputsOf fs options.files)).plan := by
  cases invoked : occurs toolsDirectory invokedAs with
  | false =>
    rw [decision_misplaced invoked]
    exact .misplaced invoked
  | true =>
    have gathered := collected fs .empty options.files
    generalize result : (collect .empty (inputsOf fs options.files)).result = ended at gathered
    cases gathered with
    | broken _ _ cut held failed =>
      rw [decision_broken invoked result]
      exact .unreadable invoked cut held failed
    | whole contents held =>
      cases rendered : (KeyTable.empty.scanContents contents).render with
      | ok text =>
        rw [decision_complete invoked result rendered]
        exact .complete invoked held rendered
      | error incomplete =>
        rw [decision_incomplete invoked result rendered]
        exact .incomplete invoked held (KeyTable.render_eq_error_iff.mp rendered).1

/-- What entitles a run to change files. -/
structure Warrant (invocation : Invocation) (fs : FileSystem) (options : Options) (contents : List Bytes) : Prop where
  parsed : parse invocation.arguments = .ok options
  real : options.dryRun = false
  invoked : occurs toolsDirectory invocation.program.display = true
  held : options.files.map fs.node? = contents.map fun content => some (.file content)
  closed : ∀ key, ∃ content ∈ contents, ∃ array ∈ (Utf8.decode content).outline.arrays, array.key = key

/-- What bars a run from changing files: a fault in the arguments, help or version; a dry run; the wrong
place; a header at any position that is missing or cannot be read; a key that no header closes. -/
inductive Barred (invocation : Invocation) (fs : FileSystem) : Prop
  | stopped {stop : Stop} (refused : parse invocation.arguments = .error stop)
  | dry {options : Options} (parsed : parse invocation.arguments = .ok options) (dry : options.dryRun = true)
  | misplaced (outside : occurs toolsDirectory invocation.program.display = false)
  | unreadable {options : Options} {path : Path} (parsed : parse invocation.arguments = .ok options)
      (named : path ∈ options.files) (unread : ∀ content, fs.node? path ≠ some (.file content))
  | unclosed {options : Options} {key : KeyName} (parsed : parse invocation.arguments = .ok options)
      (nowhere : ∀ path ∈ options.files, ∀ content, fs.node? path = some (.file content) →
        ∀ array ∈ (Utf8.decode content).outline.arrays, array.key ≠ key)

theorem Barred.no_warrant {invocation : Invocation} {fs : FileSystem} (barred : Barred invocation fs) {options : Options}
    {contents : List Bytes} (warrant : Warrant invocation fs options contents) : False := by
  have same {other : Options} (parsed : parse invocation.arguments = .ok other) : other = options :=
    Except.ok.inj (parsed.symm.trans warrant.parsed)
  cases barred with
  | stopped refused =>
    rw [warrant.parsed] at refused
    cases refused
  | dry parsed dry =>
    obtain rfl := same parsed
    rw [warrant.real] at dry
    cases dry
  | misplaced outside =>
    rw [warrant.invoked] at outside
    cases outside
  | unreadable parsed named unread =>
    obtain rfl := same parsed
    obtain ⟨content, _, present⟩ := exists_content warrant.held named
    exact unread content present
  | unclosed parsed nowhere =>
    obtain rfl := same parsed
    obtain ⟨content, member, array, closes, named⟩ := warrant.closed _
    obtain ⟨path, inside, present⟩ := exists_path warrant.held member
    exact nowhere path inside content present array closes named

theorem warrant_of_changed {invocation : Invocation} {fs : FileSystem} (changed : (run invocation fs).files ≠ fs) :
    ∃ options contents text, Warrant invocation fs options contents ∧
      (KeyTable.empty.scanContents contents).render = .ok text ∧
      (run invocation fs).files = (fs.store options.output (Utf8.encode text)).1 := by
  cases parsed : parse invocation.arguments with
  | error stop =>
    have same : (run invocation fs).files = fs := by rw [run, parsed]
    exact absurd same changed
  | ok options =>
    rw [run_of_parse parsed, Decision.outcome] at changed ⊢
    have way := course invocation.program.display options fs
    generalize (decision invocation.program.display options (inputsOf fs options.files)).plan = plan at way changed ⊢
    cases way with
    | misplaced | unreadable | incomplete => exact absurd rfl changed
    | @complete contents text invoked held rendered =>
      cases real : options.dryRun with
      | true =>
        rw [real, if_pos rfl] at changed
        exact absurd rfl changed
      | false =>
        have closed := KeyTable.isComplete_scanContents.mp (KeyTable.isComplete_of_render rendered)
        exact ⟨options, contents, text, ⟨parsed, real, invoked, held, closed⟩, rendered, rfl⟩

/-- Files change only in a run with everything that a written file takes, and then just as storing
the rendered table changes them. Every run that lacks some of it leaves all files as they were. -/
theorem files_change_only_with_warrant :
    (∀ (invocation : Invocation) (fs : FileSystem), (run invocation fs).files ≠ fs →
      ∃ options contents text, Warrant invocation fs options contents ∧
        (KeyTable.empty.scanContents contents).render = .ok text ∧
        (run invocation fs).files = (fs.store options.output (Utf8.encode text)).1) ∧
    ∀ (invocation : Invocation) (fs : FileSystem), Barred invocation fs → (run invocation fs).files = fs := by
  refine ⟨fun invocation fs changed => warrant_of_changed changed, fun invocation fs barred => ?_⟩
  apply Decidable.byContradiction
  intro changed
  obtain ⟨options, contents, text, warrant, _⟩ := warrant_of_changed changed
  exact barred.no_warrant warrant

/-- The one run makes a directory for its file; the other one finds every key in its first header,
but not its second header, and leaves an older output alone. -/
theorem files_change_only_with_warrant_in_two_runs :
    let name (text : String) : Path := Path.ofText text.toList
    let header : Bytes := Utf8.encode
      "uint32_t out_key_p\n\x7d;\nuint32_t out_key_s\n\x7d;\nuint32_t in_key_p\n\x7d;\nuint32_t in_key_s\n\x7d;".toList
    let fs := FileSystem.fresh.layOut [.file (name "a.h") header, .file (name "old") (name "kept")]
    let writing : Invocation := ⟨name "./tools/update", [name "a.h", name "-onew/K"]⟩
    let failing : Invocation := ⟨name "./tools/update", [name "a.h", name "b.h", name "-oold"]⟩
    (run writing fs).files ≠ fs ∧
      (∃ options contents text, Warrant writing fs options contents ∧
        (KeyTable.empty.scanContents contents).render = .ok text ∧
        (run writing fs).files = (fs.store options.output (Utf8.encode text)).1) ∧
      Barred failing fs ∧ (run failing fs).files = fs := by
  intro name header fs writing failing
  have changed : (run writing fs).files ≠ fs := by decide +kernel
  have parsed : parse failing.arguments = .ok ⟨[name "a.h", name "b.h"], name "old", 0, false⟩ := rfl
  have missing : fs.node? (name "b.h") = none := by decide +kernel
  have second : name "b.h" ∈ [name "a.h", name "b.h"] := by simp
  have barred : Barred failing fs := .unreadable parsed second (by simp [missing])
  exact ⟨changed, files_change_only_with_warrant.1 writing fs changed, barred, files_change_only_with_warrant.2 failing fs barred⟩

end CommandLine

end HeaderKeys
