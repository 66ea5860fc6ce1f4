import HeaderKeys.Extraction
import HeaderKeys.Proofs.CompleteTable
import HeaderKeys.Proofs.KeptWays

/-! Where a written file is found again. A walk to the place of a file that may be written and
a walk to the file itself part only at the last name, and there only if the file is missing.
So a path that leads to a regular file behind a write leads to what was written, whatever
links stand on the way and whatever the file held before. A write that fails has made some
directories at most. -/

namespace HeaderKeys.FileSystem

/-- Two file systems that agree but for one place. That holds neither a directory nor a link
in the first, so no walk goes on from there, and something other than a link in the second. -/
structure DifferAt (place : Location) (before after : FileSystem) : Prop where
  current : after.current = before.current
  elsewhere : ∀ other, other ≠ place → after.nodeAt other = before.nodeAt other
  noDirectory : before.nodeAt place ≠ some .directory
  noLink : ∀ target, before.nodeAt place ≠ some (.link target)
  present : ∃ node, after.nodeAt place = some node ∧ ∀ target, node ≠ .link target

variable {before after : FileSystem} {place : Location}

theorem DifferAt.keepsWays (differ : DifferAt place before after) : KeepsWays before after := by
  have elsewhere {other : Location} {node : Node} (present : before.nodeAt other = some node) (going : other ≠ place) :
      after.nodeAt other = some node := (differ.elsewhere other going).trans present
  refine ⟨differ.current, fun other inside => elsewhere inside ?_, fun other target link => elsewhere link ?_,
    fun other node present noLink => ?_⟩
  · rintro rfl
    exact differ.noDirectory inside
  · rintro rfl
    exact differ.noLink target link
  · by_cases same : other = place
    · rw [same]
      exact differ.present
    · exact ⟨node, elsewhere present same, noLink⟩

theorem locate_existing (differ : DifferAt place before after) {path : Path}
    (found : before.locate .creation path = .ok place) : after.locate .existing path = .ok place :=
  locate_kept differ.keepsWays (by simp) (fun _ => differ.present) found

section Writing

variable {fs written : FileSystem} {path : Path} {content : Bytes}

/-- Nothing but a file stands at the place, if anything does. -/
def Usable (fs : FileSystem) (place : Location) : Prop := ∀ node, fs.nodeAt place = some node → ∃ old, node = .file old

/-- Content is stored at a place that is free or holds a file. A device takes it and keeps nothing. -/
inductive Stored (fs : FileSystem) (content : Bytes) (place : Location) : FileSystem → Prop
  | file (usable : fs.Usable place) : Stored fs content place (fs.put place (.file content))
  | device (device : fs.nodeAt place = some .sink) : Stored fs content place fs

theorem Usable.below (usable : fs.Usable place) : place ≠ [] := by
  rintro rfl
  obtain ⟨_, file⟩ := usable .directory rfl
  cases file

theorem nodeAt_put_file (usable : fs.Usable place) (content : Bytes) (other : Location) :
    (fs.put place (.file content)).nodeAt other = if other = place then some (.file content) else fs.nodeAt other :=
  nodeAt_put usable.below (.file content) other

theorem Stored.held (stored : Stored fs content place written) :
    written.nodeAt place = some (.file content) ∨ written.nodeAt place = some .sink := by
  cases stored with
  | file usable => exact .inl (by rw [nodeAt_put_file usable, if_pos rfl])
  | device device => exact .inr device

theorem Stored.differAt (stored : Stored fs content place written) : DifferAt place fs written := by
  have present : ∃ node, written.nodeAt place = some node ∧ ∀ target, node ≠ .link target := by
    rcases stored.held with file | device
    · exact ⟨_, file, by simp⟩
    · exact ⟨_, device, by simp⟩
  cases stored with
  | file usable =>
    refine ⟨rfl, fun other different => ?_, fun directory => ?_, fun target link => ?_, present⟩
    · rw [nodeAt_put_file usable, if_neg different]
    · obtain ⟨_, file⟩ := usable _ directory
      cases file
    · obtain ⟨_, file⟩ := usable _ link
      cases file
  | device device => exact ⟨rfl, fun _ _ => rfl, by simp [device], by simp [device], present⟩

theorem Stored.kept (stored : Stored fs content place written) {other : Location} {node : Node}
    (present : fs.nodeAt other = some node) :
    written.nodeAt other = some node ∨ other = place ∧ (∃ old, node = .file old) ∧ written.nodeAt place = some (.file content) := by
  cases stored with
  | device => exact .inl present
  | file usable =>
    rw [nodeAt_put_file usable, nodeAt_put_file usable, if_pos rfl]
    split
    next same => exact .inr ⟨same, usable node (same ▸ present), rfl⟩
    · exact .inl present

theorem Stored.added (stored : Stored fs content place written) {other : Location} {node : Node}
    (free : fs.nodeAt other = none) (present : written.nodeAt other = some node) : other = place ∧ node = .file content := by
  cases stored with
  | device =>
    rw [free] at present
    cases present
  | file usable =>
    rw [nodeAt_put_file usable] at present
    split at present
    next same => exact ⟨same, (Option.some.inj present).symm⟩
    · rw [free] at present
      cases present

/-- Writing stores the content at the place of the path and does nothing else. -/
theorem writeFile_eq_ok_iff : fs.writeFile path content = .ok written ↔
    ∃ place, fs.locate .creation path = .ok place ∧ Stored fs content place written := by
  constructor
  · intro wrote
    unfold writeFile at wrote
    split at wrote
    · cases wrote
    next place found =>
      refine ⟨place, found, ?_⟩
      split at wrote
      next missing => exact Except.ok.inj wrote ▸ .file (by simp [Usable, missing])
      next old present => exact Except.ok.inj wrote ▸ .file (by simp [Usable, present])
      next device => exact Except.ok.inj wrote ▸ .device device
      all_goals cases wrote
  · rintro ⟨place, found, stored⟩
    unfold writeFile
    rw [found]
    cases stored with
    | device device => simp only [device]
    | file usable =>
      cases present : fs.nodeAt place with
      | none => simp only [present]
      | some node =>
        obtain ⟨old, rfl⟩ := usable node present
        simp only [present]

theorem writeFile_eq_ok (wrote : fs.writeFile path content = .ok written) :
    ∃ place, fs.locate .creation path = .ok place ∧ DifferAt place fs written ∧
      (written.nodeAt place = some (.file content) ∨ written.nodeAt place = some .sink) := by
  obtain ⟨place, found, stored⟩ := writeFile_eq_ok_iff.mp wrote
  exact ⟨place, found, stored.differAt, stored.held⟩

/-- Behind a write the path leads to what was written, or to a device. -/
theorem Stored.node? (stored : Stored fs content place written) (found : fs.locate .creation path = .ok place) :
    written.node? path = some (.file content) ∨ written.node? path = some .sink := by
  have located := locate_existing stored.differAt found
  exact stored.held.imp (fun file => node?_eq_some_iff.mpr ⟨place, located, file⟩)
    fun device => node?_eq_some_iff.mpr ⟨place, located, device⟩

theorem Stored.node?_of_regular (stored : Stored fs content place written) (found : fs.locate .creation path = .ok place)
    (regular : written.isRegularFile path = true) : written.node? path = some (.file content) := by
  rcases stored.node? found with file | device
  · exact file
  · simp [isRegularFile, device, Node.isRegular] at regular

theorem node?_writeFile (wrote : fs.writeFile path content = .ok written) (regular : written.isRegularFile path = true) :
    written.node? path = some (.file content) := by
  obtain ⟨place, found, stored⟩ := writeFile_eq_ok_iff.mp wrote
  exact stored.node?_of_regular found regular

theorem store_eq_ok_iff : fs.store path content = (written, .ok ()) ↔
    ∃ prepared, fs.prepare path = (prepared, .ok ()) ∧ prepared.writeFile path content = .ok written := by
  unfold store
  rcases fs.prepare path with ⟨prepared, failure | _⟩
  · simp
  · cases wrote : prepared.writeFile path content <;> simp [wrote]

/-- The directories that are made for a file do not matter for what it holds in the end. -/
theorem node?_store (stored : fs.store path content = (written, .ok ())) (regular : written.isRegularFile path = true) :
    written.node? path = some (.file content) := by
  obtain ⟨prepared, _, wrote⟩ := store_eq_ok_iff.mp stored
  exact node?_writeFile wrote regular

end Writing

section Failures

variable {fs after : FileSystem} {path : Path} {content : Bytes} {failure : Failure}

theorem prepare_eq_error_iff :
    fs.prepare path = (after, .error failure) ↔ ∃ parent cause, path.parent? = some parent ∧
      fs.makeDirectories parent = (after, .error cause) ∧ failure = .directoryCreate parent cause := by
  unfold prepare
  cases path.parent? with
  | none => simp
  | some parent =>
    rcases tried : fs.makeDirectories parent with ⟨made, cause | _⟩
    · simp [tried, eq_comm, and_assoc]
    · simp [tried]

theorem store_eq_error_iff :
    fs.store path content = (after, .error failure) ↔
      (∃ parent cause, path.parent? = some parent ∧ fs.makeDirectories parent = (after, .error cause) ∧
        failure = .directoryCreate parent cause) ∨
      ∃ cause, fs.prepare path = (after, .ok ()) ∧ after.writeFile path content = .error cause ∧
        failure = .fileWrite path cause := by
  rw [← prepare_eq_error_iff]
  unfold store
  rcases fs.prepare path with ⟨prepared, failure | _⟩
  · simp
  · cases wrote : prepared.writeFile path content with
    | error cause => simp only [wrote, Prod.mk.injEq, reduceCtorEq, and_false, false_or]; grind
    | ok written => simp only [wrote]; grind

theorem writeClass_eq_error_iff {table : KeyTable} :
    fs.writeClass path table = (after, .error failure) ↔
      (table.isComplete = false ∧ after = fs ∧ failure = .incompleteKeys table.names) ∨
      ∃ text, table.render = .ok text ∧ fs.store path (Utf8.encode text) = (after, .error failure) := by
  unfold writeClass
  cases rendered : table.render with
  | error incomplete =>
    obtain ⟨lacking, rfl⟩ := KeyTable.render_eq_error_iff.mp rendered
    simp [lacking, eq_comm]
  | ok text => simp [KeyTable.isComplete_of_render rendered]

end Failures

end HeaderKeys.FileSystem
