import HeaderKeys.FileSystem.Layout
import HeaderKeys.Proofs.FileWriting
import HeaderKeys.Proofs.MadeDirectories

/-! What writing the generated file touches. The file is rendered before anything is touched, then
directories are made, then the file is stored. Only the last step changes what was there, and only
the one file. A failing step is not undone: the directories that were made for it stay. -/

namespace HeaderKeys.FileSystem

/-- How writing a table goes: nothing is rendered; the directory of the file cannot be made; the file
cannot be opened; or it is stored. -/
inductive Effect (fs : FileSystem) (path : Path) (table : KeyTable) : FileSystem → Except Failure Unit → Prop
  | unrendered (lacking : table.isComplete = false) : Effect fs path table fs (.error (.incompleteKeys table.names))
  | unprepared {after : FileSystem} {parent : Path} {cause : IoError}
      (broken : fs.prepare path = (after, .error (.directoryCreate parent cause))) :
      Effect fs path table after (.error (.directoryCreate parent cause))
  | unopened {made : FileSystem} {cause : IoError} (prepared : fs.prepare path = (made, .ok ())) :
      Effect fs path table made (.error (.fileWrite path cause))
  | stored {made after : FileSystem} {text : Text} {place : Location} (rendered : table.render = .ok text)
      (prepared : fs.prepare path = (made, .ok ())) (found : made.locate .creation path = .ok place)
      (stored : Stored made (Utf8.encode text) place after) : Effect fs path table after (.ok ())

theorem effect (fs : FileSystem) (path : Path) (table : KeyTable) :
    Effect fs path table (fs.writeClass path table).1 (fs.writeClass path table).2 := by
  unfold writeClass
  cases rendered : table.render with
  | error incomplete =>
    obtain ⟨lacking, rfl⟩ := KeyTable.render_eq_error_iff.mp rendered
    exact .unrendered lacking
  | ok text =>
    simp only
    rcases result : fs.store path (Utf8.encode text) with ⟨after, failure | _⟩
    · rcases store_eq_error_iff.mp result with ⟨parent, cause, above, broken, rfl⟩ | ⟨cause, prepared, _, rfl⟩
      · exact .unprepared (prepare_eq_error_iff.mpr ⟨parent, cause, above, broken, rfl⟩)
      · exact .unopened prepared
    · obtain ⟨made, prepared, wrote⟩ := store_eq_ok_iff.mp result
      obtain ⟨place, found, stored⟩ := writeFile_eq_ok_iff.mp wrote
      exact .stored rendered prepared found stored

section Outcomes

/-- An entry where nothing stood before. -/
def Added (before after : FileSystem) (place : Location) (node : Node) : Prop :=
  before.nodeAt place = none ∧ after.nodeAt place = some node

/-- The path leads to a file at this place, links followed. -/
def IsTarget (fs : FileSystem) (path : Path) (place : Location) : Prop :=
  fs.locate .existing path = .ok place ∧ ∃ content, fs.nodeAt place = some (.file content)

variable {fs made after : FileSystem} {path : Path} {table : KeyTable} {result : Except Failure Unit}
  {content : Bytes} {place : Location} {node : Node}

theorem Grows.added (grows : Grows fs after) (added : Added fs after place node) : node = .directory := by
  obtain ⟨free, present⟩ := added
  rcases grows.grown place with same | ⟨_, directory⟩
  · rw [same, free] at present
    cases present
  · exact Option.some.inj (present.symm.trans directory)

/-- A failure comes before anything is stored, so all that was added was made for the directory of the file. -/
theorem Effect.growsAlong {failure : Failure} (effect : Effect fs path table after (.error failure)) :
    GrowsAlong path.Beneath fs after := by
  cases effect with
  | unrendered => exact .refl _ fs
  | unprepared broken => exact growsAlong_prepare broken
  | unopened prepared => exact growsAlong_prepare prepared

theorem Effect.eq_of_prepared {failure : Failure} (effect : Effect fs path table after (.error failure))
    (ready : fs.Prepared path) : after = fs := by
  have same := prepare_of_prepared ready
  cases effect with
  | unrendered => rfl
  | unprepared broken =>
    rw [broken] at same
    cases same
  | unopened prepared =>
    rw [prepared] at same
    exact congrArg Prod.fst same

theorem Stored.isTarget (stored : Stored made content place after) (found : made.locate .creation path = .ok place)
    (written : after.nodeAt place = some (.file content)) : after.IsTarget path place :=
  ⟨locate_existing stored.differAt found, content, written⟩

theorem Effect.current (effect : Effect fs path table after result) : after.current = fs.current := by
  cases result with
  | error failure => exact effect.growsAlong.current
  | ok =>
    cases effect with
    | stored _ prepared _ stored => exact stored.differAt.current.trans (growsAlong_prepare prepared).current

theorem Effect.kept (effect : Effect fs path table after result) (present : fs.nodeAt place = some node) :
    after.nodeAt place = some node ∨ result = .ok () ∧ after.IsTarget path place ∧ ∃ old, node = .file old := by
  cases result with
  | error failure => exact .inl (effect.growsAlong.kept present)
  | ok =>
    cases effect with
    | stored _ prepared found stored =>
      have present' := (growsAlong_prepare prepared).toGrows.kept present
      rcases stored.kept present' with same | ⟨rfl, old, written⟩
      · exact .inl same
      · exact .inr ⟨rfl, stored.isTarget found written, old⟩

theorem Effect.added (effect : Effect fs path table after result) (added : Added fs after place node) :
    node = .directory ∨ result = .ok () ∧ after.IsTarget path place := by
  cases result with
  | error failure => exact .inl (effect.growsAlong.toGrows.added added)
  | ok =>
    cases effect with
    | @stored made _ _ _ _ prepared found stored =>
      obtain ⟨free, present⟩ := added
      -- The last step either found the place free, or it kept the directory that was made there.
      cases between : made.nodeAt place with
      | none =>
        obtain ⟨rfl, rfl⟩ := stored.added between present
        exact .inr ⟨rfl, stored.isTarget found present⟩
      | some first =>
        obtain rfl := (growsAlong_prepare prepared).toGrows.added ⟨free, between⟩
        rcases stored.kept between with same | ⟨_, ⟨_, file⟩, _⟩
        · exact .inl (Option.some.inj (present.symm.trans same))
        · cases file

end Outcomes

/-- Whatever files there are and whatever the path looks like, writing changes at most the one file that the
path leads to in the end, and only if it succeeds. Beside that it adds directories. -/
theorem write_touches_only_its_file (fs : FileSystem) (path : Path) (table : KeyTable) :
    let after := (fs.writeClass path table).1
    let result := (fs.writeClass path table).2
    after.current = fs.current ∧
    (∀ place node, fs.nodeAt place = some node →
      after.nodeAt place = some node ∨ result = .ok () ∧ after.IsTarget path place ∧ ∃ old, node = .file old) ∧
    (result = .ok () →
      (∀ place node, Added fs after place node → node = .directory ∨ after.IsTarget path place) ∧
      (∀ parent, path.parent? = some parent → parent = [] ∨ after.isDirectory parent = true) ∧
      ∃ text, table.render = .ok text ∧
        (after.isRegularFile path = true → after.node? path = some (.file (Utf8.encode text))) ∧
        (after.isRegularFile path = false → after.node? path = some .sink)) ∧
    ∀ failure, result = .error failure →
      (∃ names, failure = .incompleteKeys names) ∧ after = fs ∨
      ((∃ parent cause, failure = .directoryCreate parent cause) ∨ ∃ cause, failure = .fileWrite path cause) ∧
        ∀ place node, Added fs after place node → node = .directory := by
  intro after result
  have effect : Effect fs path table after result := effect fs path table
  clear_value after result
  refine ⟨effect.current, fun place node present => effect.kept present, fun succeeded => ?_, fun failure failed => ?_⟩
  · refine ⟨fun place node added => (effect.added added).imp id And.right, ?_⟩
    rw [succeeded] at effect
    cases effect with
    | stored rendered prepared found stored =>
      refine ⟨fun parent above => ?_, _, rendered, stored.node?_of_regular found, fun irregular => ?_⟩
      · exact (prepared_of_prepare prepared parent above).imp id stored.differAt.keepsWays.isDirectory
      · rcases stored.node? found with file | device
        · simp [isRegularFile, file, Node.isRegular] at irregular
        · exact device
  · rw [failed] at effect
    have directories : ∀ place node, Added fs after place node → node = .directory :=
      fun place node added => effect.growsAlong.toGrows.added added
    cases effect with
    | unrendered => exact .inl ⟨⟨_, rfl⟩, rfl⟩
    | unprepared => exact .inr ⟨.inl ⟨_, _, rfl⟩, directories⟩
    | unopened => exact .inr ⟨.inr ⟨_, rfl⟩, directories⟩

/-- One path leads over a directory that has to be made to a link and the longer file behind it; the other one
ends in a slash. -/
theorem write_touches_only_its_file_behind_link :
    let name (text : String) : Path := Path.ofText text.toList
    let fs := FileSystem.fresh.layOut [.file (name "K") (List.replicate 5000 0x78), .link (name "out") (name "K")]
    let table := KeyTable.recordAll .empty (KeyName.all.map fun key => .closed key [])
    let stored := fs.writeClass (name "new/../out") table
    let refused := fs.writeClass (name "new/K/") table
    (∃ text, table.render = .ok text ∧ stored.1.node? (name "new/../out") = some (.file (Utf8.encode text))) ∧
    (∀ place node, Added fs stored.1 place node → node = .directory ∨ stored.1.IsTarget (name "new/../out") place) ∧
    fs.isDirectory (name "new") = false ∧ refused.1.isDirectory (name "new") = true ∧
    ∀ place node, Added fs refused.1 place node → node = .directory := by
  intro name fs table stored refused
  obtain ⟨succeeded, regular⟩ : stored.2 = .ok () ∧ stored.1.isRegularFile (name "new/../out") = true := by decide +kernel
  have failed : refused.2 = .error (.fileWrite (name "new/K/") .isADirectory) := by decide +kernel
  obtain ⟨before, afterwards⟩ : fs.isDirectory (name "new") = false ∧ refused.1.isDirectory (name "new") = true := by
    decide +kernel
  obtain ⟨_, _, onSuccess, _⟩ := write_touches_only_its_file fs (name "new/../out") table
  obtain ⟨added, _, text, rendered, whole, _⟩ := onSuccess succeeded
  obtain ⟨_, _, _, onFailure⟩ := write_touches_only_its_file fs (name "new/K/") table
  refine ⟨⟨text, rendered, whole regular⟩, added, before, afterwards, ?_⟩
  rcases onFailure _ failed with ⟨⟨_, incomplete⟩, _⟩ | ⟨_, directories⟩
  · cases incomplete
  · exact directories

/-- A failing step is not undone. Here the directory was made, and then the path turned out to name no file. -/
theorem failed_write_keeps_directory :
    let name (text : String) : Path := Path.ofText text.toList
    let fs := FileSystem.fresh
    let table := KeyTable.recordAll .empty (KeyName.all.map fun key => .closed key [])
    let written := fs.writeClass (name "a/b/") table
    written.2 = .error (.fileWrite (name "a/b/") .isADirectory) ∧
      fs.isDirectory (name "a") = false ∧ written.1.isDirectory (name "a") = true ∧ written.1 ≠ fs := by
  decide +kernel

/-- A write that fails leaves directories behind at most, and only such as the parent of its path or a path
above that leads to. A table that lacks a key leaves nothing behind, and neither does a path whose parent was there. -/
theorem failed_write_leaves_directories_at_most (fs : FileSystem) (path : Path) (table : KeyTable) (failure : Failure)
    (failed : (fs.writeClass path table).2 = .error failure) :
    let after := (fs.writeClass path table).1
    (∀ names, failure = .incompleteKeys names → after = fs) ∧
    (fs.Prepared path → after = fs) ∧
    after.current = fs.current ∧
    (∀ place node, fs.nodeAt place = some node → after.nodeAt place = some node) ∧
    ∀ place node, Added fs after place node → node = .directory ∧
      ∃ above, path.Beneath above ∧ after.locate .existing above = .ok place := by
  intro after
  have effect : Effect fs path table after (.error failure) := failed ▸ effect fs path table
  have along := effect.growsAlong
  refine ⟨?_, effect.eq_of_prepared, along.current, fun place node present => along.kept present, fun place node added => ?_⟩
  · rintro names rfl
    clear_value after
    cases effect with
    | unrendered => rfl
  · obtain rfl := along.toGrows.added added
    exact ⟨rfl, along.reached place added.1 added.2⟩

/-- On the way to a directory below a file, which there cannot be, another one was made. Without keys nothing is
touched, and a path of one name needs no directory. -/
theorem failed_write_leaves_directories_at_most_below_file :
    let name (text : String) : Path := Path.ofText text.toList
    let fs := FileSystem.fresh.layOut [.file (name "old") (name "kept")]
    let table := KeyTable.recordAll .empty (KeyName.all.map fun key => .closed key [])
    let path := name "new/../old/x/K"
    let after := (fs.writeClass path table).1
    after ≠ fs ∧ after.node? (name "old") = some (.file (name "kept")) ∧
      (∀ place node, Added fs after place node → node = .directory ∧
        ∃ above, path.Beneath above ∧ after.locate .existing above = .ok place) ∧
      (fs.writeClass path .empty).1 = fs ∧ (fs.writeClass (name "old/") table).1 = fs := by
  intro name fs table path after
  obtain ⟨failed, changed⟩ : (fs.writeClass path table).2 =
      .error (.directoryCreate (name "new/../old/x") .alreadyExists) ∧ after ≠ fs := by decide +kernel
  have held : after.node? (name "old") = some (.file (name "kept")) := by decide +kernel
  have lacking : (fs.writeClass path .empty).2 = .error (.incompleteKeys []) := by decide +kernel
  have refused : (fs.writeClass (name "old/") table).2 = .error (.fileWrite (name "old/") .isADirectory) := by decide +kernel
  have ready : fs.Prepared (name "old/") := by
    intro parent above
    have alone : (name "old/").parent? = some [] := by decide +kernel
    exact .inl (Option.some.inj (above.symm.trans alone))
  obtain ⟨_, _, _, _, added⟩ := failed_write_leaves_directories_at_most fs path table _ failed
  obtain ⟨untouched, _⟩ := failed_write_leaves_directories_at_most fs path .empty _ lacking
  obtain ⟨_, same, _⟩ := failed_write_leaves_directories_at_most fs (name "old/") table _ refused
  exact ⟨changed, held, added, untouched [] rfl, same ready⟩

end HeaderKeys.FileSystem
