import HeaderKeys.Proofs.FirstFailure
import HeaderKeys.Proofs.MadeDirectories
import HeaderKeys.Proofs.RunEffects

/-! A run beside the one before it. Where the first run made directories and its file, the second
finds them, and it reads the same headers unless the first has written over one of them. So it
decides the same, and storing what is stored already changes nothing. -/

namespace HeaderKeys

namespace FileSystem

/-- Both paths lead to one place, links followed. -/
def SameFile (fs : FileSystem) (first second : Path) : Prop :=
  ∃ place, fs.locate .existing first = .ok place ∧ fs.locate .existing second = .ok place

section Stored

variable {fs written : FileSystem} {path : Path} {content : Bytes}

theorem writeFile_again (wrote : fs.writeFile path content = .ok written) : written.writeFile path content = .ok written := by
  obtain ⟨place, found, differ, held⟩ := writeFile_eq_ok wrote
  have found' : written.locate .creation path = .ok place :=
    locate_kept differ.keepsWays id (fun _ => differ.present) found
  unfold writeFile
  rw [found']
  rcases held with stored | device
  · have below : place ≠ [] := by
      rintro rfl
      cases stored
    simp only [stored, put_eq_self below stored]
  · simp only [device]

/-- What a store has made is there, so storing once more makes nothing. -/
theorem store_again (stored : fs.store path content = (written, .ok ())) :
    written.store path content = (written, .ok ()) := by
  obtain ⟨made, prepared, wrote⟩ := store_eq_ok_iff.mp stored
  obtain ⟨_, _, differ, _⟩ := writeFile_eq_ok wrote
  have ready : written.Prepared path := by
    intro parent above
    exact (prepared_of_prepare prepared parent above).imp id differ.keepsWays.isDirectory
  exact store_eq_ok_iff.mpr ⟨written, prepare_of_prepared ready, writeFile_again wrote⟩

/-- A file that the stored one is not keeps its content. -/
theorem node?_of_apart (stored : fs.store path content = (written, .ok ())) {header : Path} {node : Node}
    (found : fs.node? header = some node) (apart : ¬ written.SameFile header path) : written.node? header = some node := by
  obtain ⟨made, prepared, wrote⟩ := store_eq_ok_iff.mp stored
  obtain ⟨place, target, differ, _⟩ := writeFile_eq_ok wrote
  obtain ⟨source, located, present⟩ := node?_eq_some_iff.mp ((growsAlong_prepare prepared).toGrows.node? found)
  have located' : written.locate .existing header = .ok source :=
    locate_kept differ.keepsWays (by simp) (by simp) located
  have other : source ≠ place := by
    rintro rfl
    exact apart ⟨source, located', locate_existing differ target⟩
  exact node?_eq_some_iff.mpr ⟨source, located', (differ.elsewhere source other).trans present⟩

end Stored

end FileSystem

namespace CommandLine

open FileSystem

/-- A run that wrote its file and none of its headers. -/
theorem run_again_of_stored {invocation : Invocation} {options : Options} {fs : FileSystem} {text : Text}
    (parsed : parse invocation.arguments = .ok options)
    (plan : (decision invocation.program.display options (inputsOf fs options.files)).plan = .write options.output text)
    (succeeded : (run invocation fs).ending.exitCode = 0)
    (held : ∀ path ∈ options.files, ∃ content, fs.node? path = some (.file content))
    (apart : ∀ path ∈ options.files, ¬ (run invocation fs).files.SameFile path options.output) :
    run invocation (run invocation fs).files = run invocation fs := by
  have first := run_of_parse parsed fs
  rw [first] at succeeded
  obtain ⟨_, stored⟩ := written_of_exitCode plan succeeded
  rw [← first] at stored
  have alike : ∀ path ∈ options.files, (run invocation fs).files.readHeader path = fs.readHeader path := by
    intro path named
    obtain ⟨content, found⟩ := held path named
    have found' := node?_of_apart stored found (apart path named)
    exact (readHeader_eq_ok_iff.mpr found').trans (readHeader_eq_ok_iff.mpr found).symm
  have performed : (Plan.write options.output text).perform (run invocation fs).files =
      (Plan.write options.output text).perform fs := (store_again stored).trans stored.symm
  rw [run_of_parse parsed (run invocation fs).files, inputsOf_congr alike, Decision.outcome, plan, performed,
    first, Decision.outcome, plan]

/-- A run that succeeds can be repeated: unless a header turns out to be the output itself, the second run ends
as the first and leaves all files as it found them. -/
theorem rerun_changes_nothing {invocation : Invocation} {fs : FileSystem}
    (succeeded : (run invocation fs).ending.exitCode = 0)
    (apart : ∀ options, parse invocation.arguments = .ok options →
      ∀ path ∈ options.files, ¬ (run invocation fs).files.SameFile path options.output) :
    let first := run invocation fs
    let second := run invocation first.files
    second.ending.exitCode = 0 ∧ second.ending.stdout = first.ending.stdout ∧
      second.ending.stderr = first.ending.stderr ∧ second.files = first.files := by
  intro first second
  have same : second = first := by
    by_cases changed : first.files = fs
    · exact congrArg (run invocation) changed
    · obtain ⟨options, contents, text, warrant, rendered, _⟩ := warrant_of_changed changed
      have collected := collect_result (content_inputsOf warrant.held) .empty
      have plan := decision_of_collected warrant.invoked warrant.real collected rendered
      refine run_again_of_stored warrant.parsed plan succeeded (fun path named => ?_) (apart options warrant.parsed)
      obtain ⟨content, _, found⟩ := exists_content warrant.held named
      exact ⟨content, found⟩
  rw [same]
  exact ⟨succeeded, rfl, rfl, rfl⟩

/-- The output is a link that leads nowhere, reached over a directory that has to be made. The first run makes
the directory and the file behind the link. -/
theorem rerun_changes_nothing_behind_dangling_link :
    let name (text : String) : Path := Path.ofText text.toList
    let header : Bytes := Utf8.encode
      "uint32_t out_key_p\n\x7d;\nuint32_t out_key_s\n\x7d;\nuint32_t in_key_p\n\x7d;\nuint32_t in_key_s\n\x7d;".toList
    let fs := FileSystem.fresh.layOut
      [.file (name "old/x.h") header, .link (name "a.h") (name "old/x.h"), .link (name "old/out") (name "K")]
    let invocation : Invocation := ⟨name "./tools/update", [name "a.h", name "-vvv", name "-oold/new/../out"]⟩
    let first := run invocation fs
    let second := run invocation first.files
    first.files ≠ fs ∧ second.ending.exitCode = 0 ∧ second.ending.stdout = first.ending.stdout ∧
      second.ending.stderr = first.ending.stderr ∧ second.files = first.files := by
  intro name header fs invocation first second
  have parsed : parse invocation.arguments = .ok ⟨[name "a.h"], name "old/new/../out", 3, false⟩ := rfl
  obtain ⟨changed, succeeded, parted⟩ : first.files ≠ fs ∧ first.ending.exitCode = 0 ∧
      (first.files.locate .existing (name "a.h")).toOption ≠
        (first.files.locate .existing (name "old/new/../out")).toOption := by decide +kernel
  refine ⟨changed, rerun_changes_nothing succeeded ?_⟩
  intro options parsed' path named
  obtain rfl := Except.ok.inj (parsed'.symm.trans parsed)
  obtain rfl := List.mem_singleton.mp named
  rintro ⟨place, source, target⟩
  exact parted (by rw [source, target])

end CommandLine

end HeaderKeys
