import HeaderKeys.FileSystem.Layout
import HeaderKeys.Proofs.RunDecisions
import HeaderKeys.Proofs.WalkedPlaces

/-! A header that cannot be scanned ends the run. Nothing behind it is collected, so headers behind it,
what is in the files that only they lead to, and how the output is asked for have no part in how
the run ends. -/

namespace HeaderKeys

/-- Inputs behind one that cannot be read are not collected. -/
theorem collect_append_broken {input : Input} {failure : Failure} (broken : input.content = .error failure)
    (front later : List Input) (table : KeyTable) :
    collect table (front ++ input :: later) = collect table (front ++ [input]) := by
  induction front generalizing table with
  | nil => simp only [List.nil_append, collect, broken]
  | cons first front ih =>
    simp only [List.cons_append, collect, ih]

theorem exists_broken {input : Input} {failure : Failure} (broken : input.content = .error failure)
    (front later : List Input) (table : KeyTable) :
    ∃ stopped, (collect table (front ++ input :: later)).result = .error stopped := by
  induction front generalizing table with
  | nil => exact ⟨(input.path, failure), by simp only [List.nil_append, collect, broken]⟩
  | cons first front ih =>
    simp only [List.cons_append, collect]
    split
    · exact ih _
    · exact ⟨_, rfl⟩

namespace CommandLine

open FileSystem

/-- What is decided from inputs with a broken one, whatever else was asked for. -/
theorem decision_of_broken {invokedAs : Text} (invoked : occurs toolsDirectory invokedAs = true) {input : Input}
    {failure : Failure} (broken : input.content = .error failure) (front : List Input) :
    ∃ events trouble, ∀ (options : Options) (later : List Input),
      decision invokedAs options (front ++ input :: later) = ⟨events, .fail trouble⟩ := by
  obtain ⟨⟨path, reason⟩, stops⟩ := exists_broken broken front [] .empty
  refine ⟨(collect .empty (front ++ [input])).events, .extraction path reason, fun options later => ?_⟩
  have same := collect_append_broken broken front later .empty
  have stops' : (collect .empty (front ++ input :: later)).result = .error (path, reason) := by rw [same, stops]
  rw [decision_broken invoked stops', same]

theorem inputsOf_congr {fs fs' : FileSystem} {paths : List Path}
    (alike : ∀ path ∈ paths, fs'.readHeader path = fs.readHeader path) : inputsOf fs' paths = inputsOf fs paths :=
  List.map_congr_left fun path named => by rw [alike path named]

theorem inputsOf_append_cons (fs : FileSystem) (front later : List Path) (path : Path) :
    inputsOf fs (front ++ path :: later) = inputsOf fs front ++ ⟨path, fs.readHeader path⟩ :: inputsOf fs later := by
  simp only [inputsOf, List.map_append, List.map_cons]

/-- The one way of all runs that read these headers alike, the last of which cannot be read. -/
theorem run_of_broken {program : Path} (invoked : occurs toolsDirectory program.display = true) {fs : FileSystem}
    {path : Path} {failure : Failure} (failed : fs.readHeader path = .error failure) (front : List Path) :
    ∃ events trouble, ∀ (arguments : List Bytes) (options : Options) (later : List Path) (fs' : FileSystem),
      parse arguments = .ok options → options.files = front ++ path :: later →
      (∀ name ∈ front ++ [path], fs'.readHeader name = fs.readHeader name) →
      run ⟨program, arguments⟩ fs' = (⟨events, .fail trouble⟩ : Decision).outcome options.verbosity fs' := by
  have broken : (⟨path, fs.readHeader path⟩ : Input).content = .error failure := failed
  obtain ⟨events, trouble, decided⟩ := decision_of_broken invoked broken (inputsOf fs front)
  refine ⟨events, trouble, fun arguments options later fs' parsed cut alike => ?_⟩
  obtain ⟨earlier, here⟩ := List.forall_mem_append.mp alike
  have parsed' : parse (⟨program, arguments⟩ : Invocation).arguments = .ok options := parsed
  rw [run_of_parse parsed', cut, inputsOf_append_cons, inputsOf_congr earlier, here path (List.mem_singleton_self _), decided]

/-- If a header cannot be scanned, above all the first such, the run fails and changes nothing. It ends like
every run by the same program path, with the same verbosity and the same headers up to this one, that
reads those alike; and they are read alike if all places are alike that their paths lead over. -/
theorem first_failure_decides {invocation : Invocation} {options : Options} {fs : FileSystem} {front later : List Path}
    {path : Path} {failure : Failure} (parsed : parse invocation.arguments = .ok options)
    (invoked : occurs toolsDirectory invocation.program.display = true) (cut : options.files = front ++ path :: later)
    (failed : ∀ table, fs.scanFile path table = .error failure) :
    let outcome := run invocation fs
    outcome.ending.exitCode = 1 ∧ outcome.ending.stdout = [] ∧ outcome.files = fs ∧
    ∀ (arguments : List Bytes) (options' : Options) (later' : List Path) (fs' : FileSystem),
      parse arguments = .ok options' → options'.verbosity = options.verbosity →
      options'.files = front ++ path :: later' →
      let outcome' := run ⟨invocation.program, arguments⟩ fs'
      ((∀ name ∈ front ++ [path], fs'.readHeader name = fs.readHeader name) → outcome'.ending = outcome.ending) ∧
      (fs'.current = fs.current → (∀ name ∈ front ++ [path], AgreeAt (fs.looksFor name) fs fs') →
        outcome'.ending = outcome.ending) := by
  intro outcome
  obtain ⟨events, trouble, way⟩ := run_of_broken invoked (scanFile_eq_error_iff.mp (failed .empty)) front
  have here : outcome = (⟨events, .fail trouble⟩ : Decision).outcome options.verbosity fs :=
    way invocation.arguments options later fs parsed cut fun _ _ => rfl
  rw [here]
  refine ⟨rfl, rfl, rfl, fun arguments options' later' fs' parsed' verbosity cut' => ?_⟩
  have alikeEnding (alike : ∀ name ∈ front ++ [path], fs'.readHeader name = fs.readHeader name) :
      (run ⟨invocation.program, arguments⟩ fs').ending =
        ((⟨events, .fail trouble⟩ : Decision).outcome options.verbosity fs).ending := by
    rw [way arguments options' later' fs' parsed' cut' alike, verbosity]
    rfl
  exact ⟨alikeEnding, fun current agree => alikeEnding fun name named => readHeader_of_agree current (agree name named)⟩

/-- Every key was closed before the header that is missing. The other runs have other headers behind it and print
or write elsewhere. For one of them the header behind it is a directory; for the other the first header
is no link. -/
theorem first_failure_decides_behind_link :
    let name (text : String) : Path := Path.ofText text.toList
    let header : Bytes := Utf8.encode ("uint32_t out_key_p\n\x7d;\nuint32_t out_key_s\n\x7d;\nuint32_t in_key_p\n\x7d;\n"
      ++ "uint32_t in_key_s\n\x7d;\nuint32_t in_key_p\n").toList
    let linked := [Seed.file (name "old/x.h") header, .link (name "a.h") (name "old/x.h")]
    let fs := FileSystem.fresh.layOut (linked ++ [.file (name "b.h") header])
    let fs' := FileSystem.fresh.layOut (linked ++ [.directory (name "b.h"), .file (name "K") (name "kept")])
    let fs'' := FileSystem.fresh.layOut [.file (name "a.h") header]
    let program := name "./tools/update"
    let writing : Invocation := ⟨program, [name "a.h", name "gone.h", name "b.h", name "-oK", name "-v"]⟩
    ((run writing fs).ending.exitCode = 1 ∧ (run writing fs).ending.stdout = [] ∧ (run writing fs).files = fs) ∧
      (run ⟨program, [name "a.h", name "gone.h", name "b.h", name "c.h", name "-v", name "--dry-run"]⟩ fs').ending =
        (run writing fs).ending ∧
      (run ⟨program, [name "-v", name "-oL", name "a.h", name "gone.h"]⟩ fs'').ending = (run writing fs).ending := by
  intro name header linked fs fs' fs'' program writing
  have parsed : parse writing.arguments = .ok ⟨[name "a.h", name "gone.h", name "b.h"], name "K", 1, false⟩ := rfl
  have invoked : occurs toolsDirectory program.display = true := by decide +kernel
  have parsed' : parse [name "a.h", name "gone.h", name "b.h", name "c.h", name "-v", name "--dry-run"] =
      .ok ⟨[name "a.h", name "gone.h", name "b.h", name "c.h"], Path.ofText defaultOutput, 1, true⟩ := rfl
  have parsed'' : parse [name "-v", name "-oL", name "a.h", name "gone.h"] =
      .ok ⟨[name "a.h", name "gone.h"], name "L", 1, false⟩ := rfl
  have missing : fs.isRegularFile (name "gone.h") = false ∧ fs''.isRegularFile (name "gone.h") = false := by decide +kernel
  have broken : fs.readHeader (name "gone.h") = .error (.notAFile (name "gone.h")) :=
    readHeader_eq_error_iff.mpr (.inl ⟨missing.1, rfl⟩)
  have broken'' : fs''.readHeader (name "gone.h") = .error (.notAFile (name "gone.h")) :=
    readHeader_eq_error_iff.mpr (.inl ⟨missing.2, rfl⟩)
  have held : fs.node? (name "a.h") = some (.file header) ∧ fs''.node? (name "a.h") = some (.file header) := by decide +kernel
  have read : fs''.readHeader (name "a.h") = fs.readHeader (name "a.h") :=
    (readHeader_eq_ok_iff.mpr held.2).trans (readHeader_eq_ok_iff.mpr held.1).symm
  have agree : ∀ other ∈ [name "a.h", name "gone.h"], ∀ place ∈ fs.looksFor other,
      fs'.nodeAt place = fs.nodeAt place := by decide +kernel
  have current : fs'.current = fs.current := by decide +kernel
  have cut : [name "a.h", name "gone.h", name "b.h"] = [name "a.h"] ++ name "gone.h" :: [name "b.h"] := rfl
  have failed : ∀ table, fs.scanFile (name "gone.h") table = .error (.notAFile (name "gone.h")) :=
    fun _ => scanFile_eq_error_iff.mpr broken
  obtain ⟨code, stdout, kept, alike⟩ := first_failure_decides parsed invoked cut failed
  refine ⟨⟨code, stdout, kept⟩, ?_, ?_⟩
  · exact (alike _ _ [name "b.h", name "c.h"] fs' parsed' rfl rfl).2 current agree
  · refine (alike _ _ [] fs'' parsed'' rfl rfl).1 ?_
    exact List.forall_mem_cons.mpr ⟨read, List.forall_mem_singleton.mpr (broken''.trans broken.symm)⟩

end CommandLine

end HeaderKeys
