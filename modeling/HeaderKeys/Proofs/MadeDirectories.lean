import HeaderKeys.Extraction
import HeaderKeys.Proofs.KeptWays

/-! Directories that are made on the way to a file. Making them adds directories where nothing stood
and changes nothing else, however far it gets, and each of them is on the way. If it succeeds the
directory is there, and making one that is there does nothing. -/

namespace HeaderKeys

/-- From a path up to its parent, and so on, as often as one likes. -/
inductive Path.Upward : Path → Path → Prop
  | here (path : Path) : Upward path path
  | up {path parent above : Path} (found : path.parent? = some parent) (upward : Upward parent above) : Upward path above

/-- From a path to its parent, and further up. -/
def Path.Beneath (path above : Path) : Prop := ∃ parent, path.parent? = some parent ∧ parent.Upward above

namespace FileSystem

section Growth

/-- Directories may have been added; all else is as it was. -/
structure Grows (before after : FileSystem) : Prop where
  current : after.current = before.current
  grown : ∀ place, after.nodeAt place = before.nodeAt place ∨
    before.nodeAt place = none ∧ after.nodeAt place = some .directory

variable {before middle after : FileSystem}

theorem Grows.refl (fs : FileSystem) : Grows fs fs := ⟨rfl, fun _ => .inl rfl⟩

theorem Grows.trans (first : Grows before middle) (second : Grows middle after) : Grows before after := by
  refine ⟨second.current.trans first.current, fun place => ?_⟩
  rcases second.grown place with same | ⟨free, made⟩
  · rw [same]
    exact first.grown place
  · rcases first.grown place with same | ⟨_, made'⟩
    · exact .inr ⟨same ▸ free, made⟩
    · rw [made'] at free
      cases free

theorem Grows.kept (grows : Grows before after) {place : Location} {node : Node} (present : before.nodeAt place = some node) :
    after.nodeAt place = some node := by
  rcases grows.grown place with same | ⟨free, _⟩
  · exact same.trans present
  · rw [free] at present
    cases present

theorem Grows.keepsWays (grows : Grows before after) : KeepsWays before after where
  current := grows.current
  directory _ inside := grows.kept inside
  link _ _ link := grows.kept link
  other _ node present noLink := ⟨node, grows.kept present, noLink⟩

/-- What a path leads to stays what it leads to. -/
theorem Grows.node? (grows : Grows before after) {path : Path} {node : Node} (found : before.node? path = some node) :
    after.node? path = some node := by
  obtain ⟨place, located, present⟩ := node?_eq_some_iff.mp found
  exact node?_eq_some_iff.mpr ⟨place, locate_kept grows.keepsWays (by simp) (by simp) located, grows.kept present⟩

/-- Each directory that was added can be reached: one of these paths leads to it. -/
structure GrowsAlong (ways : Path → Prop) (before after : FileSystem) : Prop extends Grows before after where
  reached : ∀ place, before.nodeAt place = none → after.nodeAt place = some .directory →
    ∃ way, ways way ∧ after.locate .existing way = .ok place

variable {ways : Path → Prop}

theorem GrowsAlong.refl (ways : Path → Prop) (fs : FileSystem) : GrowsAlong ways fs fs := by
  refine ⟨.refl fs, fun place free made => ?_⟩
  rw [free] at made
  cases made

/-- A directory that was added first is still where its path led. -/
theorem GrowsAlong.trans (first : GrowsAlong ways before middle) (second : GrowsAlong ways middle after) :
    GrowsAlong ways before after := by
  refine ⟨first.toGrows.trans second.toGrows, fun place free made => ?_⟩
  rcases first.grown place with same | ⟨_, present⟩
  · exact second.reached place (same.trans free) made
  · obtain ⟨way, among, located⟩ := first.reached place free present
    exact ⟨way, among, locate_kept second.toGrows.keepsWays (by simp) (by simp) located⟩

theorem GrowsAlong.mono {more : Path → Prop} (along : GrowsAlong ways before after) (among : ∀ way, ways way → more way) :
    GrowsAlong more before after := by
  refine ⟨along.toGrows, fun place free made => ?_⟩
  obtain ⟨way, one, located⟩ := along.reached place free made
  exact ⟨way, among way one, located⟩

end Growth

section Entries

variable {fs after : FileSystem} {path : Path} {node : Node} {directory : Location} {name : Name}

/-- How an entry comes to be made at a path: above it is a directory, and its name is a proper one and free. -/
structure EntryMade (fs : FileSystem) (path : Path) (node : Node) (after : FileSystem) (directory : Location) (name : Name) :
    Prop where
  accepted : path.refusal? = none
  above : fs.walk .existing linkLimit (fs.beginning path) (path.names.dropLast ++ [[]]) = .ok directory
  last : path.names.getLast? = some name
  real : ¬ (name = Path.here ∨ name = Path.above)
  short : ¬ nameLimit < name.length
  free : fs.nodeAt (directory ++ [name]) = none
  put : after = fs.put (directory ++ [name]) node

theorem exists_entryMade (made : fs.makeEntry path node = .ok after) :
    ∃ directory name, EntryMade fs path node after directory name := by
  unfold makeEntry at made
  split at made
  · cases made
  next accepted =>
    split at made
    · cases made
    next directory above =>
      split at made
      · cases made
      next name last =>
        split at made
        · cases made
        next real =>
          split at made
          · cases made
          next short =>
            split at made
            · cases made
            next occupied =>
              have free : fs.nodeAt (directory ++ [name]) = none := by simpa using occupied
              exact ⟨directory, name, accepted, above, last, real, short, free, (Except.ok.inj made).symm⟩

theorem names_ne_nil {path : Path} {name : Name} (member : name ∈ path.names) : name ≠ [] := by
  simpa using (List.mem_filter.mp member).2

theorem names_eq_dropLast_concat (last : path.names.getLast? = some name) : path.names = path.names.dropLast ++ [name] := by
  obtain ⟨front, same⟩ := List.getLast?_eq_some_iff.mp last
  rw [same, List.dropLast_concat]

theorem EntryMade.nodeAt (made : EntryMade fs path node after directory name) (place : Location) :
    after.nodeAt place = if place = directory ++ [name] then some node else fs.nodeAt place := by
  rw [made.put, nodeAt_put (by simp)]

theorem EntryMade.grows (made : EntryMade fs path .directory after directory name) : Grows fs after := by
  refine ⟨by rw [made.put, current_put], fun place => ?_⟩
  rw [made.nodeAt]
  split
  next here => exact .inr ⟨here ▸ made.free, rfl⟩
  · exact .inl rfl

/-- The path of a directory that was made leads to it. -/
theorem EntryMade.locate (made : EntryMade fs path .directory after directory name) :
    after.locate .existing path = .ok (directory ++ [name]) := by
  have kept := made.grows.keepsWays
  have above : after.walk .existing linkLimit (after.beginning path) (path.names.dropLast ++ [[]]) = .ok directory := by
    rw [beginning, kept.current]
    exact walk_kept kept (by simp) (by simp) made.above
  obtain ⟨there, left, inside, goes⟩ := walk_through above
  obtain rfl : there = directory := Except.ok.inj ((walk_blank _ left inside).symm.trans ((goes [[]]).symm.trans above))
  have present : after.nodeAt (there ++ [name]) = some .directory := by rw [made.nodeAt, if_pos rfl]
  have nonempty : name ≠ [] := names_ne_nil (List.mem_of_getLast? made.last)
  obtain ⟨noHere, noAbove⟩ := not_or.mp made.real
  have named (rest : List Name) : Named .existing name rest :=
    ⟨by simp [Path.isBlank, nonempty, noHere], noAbove, by simp, made.short⟩
  obtain ⟨follow, walks⟩ := walk_eq after .existing left
  unfold FileSystem.locate Path.steps
  rw [made.accepted, names_eq_dropLast_concat made.last, List.append_assoc]
  simp only
  rw [goes, List.singleton_append, walks, walkTo_node inside (named _) present (by simp)]
  split
  · rw [walkTo_blank present rfl]
    rfl
  · rfl

theorem isDirectory_of_makeDirectory (made : fs.makeDirectory path = .ok after) : after.isDirectory path = true := by
  obtain ⟨directory, name, made⟩ := exists_entryMade made
  exact isDirectory_iff.mpr ⟨_, made.locate, by rw [made.nodeAt, if_pos rfl]⟩

theorem EntryMade.growsAlong (made : EntryMade fs path .directory after directory name) :
    GrowsAlong (· = path) fs after := by
  refine ⟨made.grows, fun place free present => ⟨path, rfl, ?_⟩⟩
  rw [made.nodeAt] at present
  split at present
  next here => exact here ▸ made.locate
  · rw [free] at present
    cases present

theorem growsAlong_makeDirectory (made : fs.makeDirectory path = .ok after) : GrowsAlong (· = path) fs after := by
  obtain ⟨_, _, made⟩ := exists_entryMade made
  exact made.growsAlong

/-- A directory that is there occupies its place. -/
theorem makeDirectory_of_isDirectory (isDirectory : fs.isDirectory path = true) :
    fs.makeDirectory path = .error .alreadyExists := by
  obtain ⟨place, located, inside⟩ := isDirectory_iff.mp isDirectory
  unfold FileSystem.locate at located
  split at located
  · cases located
  next accepted =>
    unfold makeDirectory makeEntry
    rw [accepted]
    simp only
    cases last : path.names.getLast? with
    | none =>
      -- The path is the root, or nothing but slashes.
      have names : path.names = [] := List.getLast?_eq_none_iff.mp last
      have root : fs.nodeAt (fs.beginning path) = some .directory := by
        unfold Path.steps at located
        rw [names, List.nil_append] at located
        obtain ⟨follow, walks⟩ := walk_eq fs .existing linkLimit
        rw [walks] at located
        split at located
        · exact (walkTo_cons located).1
        · exact Except.ok.inj located ▸ inside
      rw [names, List.dropLast_nil, List.nil_append, walk_blank _ _ root]
    | some name =>
      unfold Path.steps at located
      rw [names_eq_dropLast_concat last, List.append_assoc, List.singleton_append] at located
      obtain ⟨directory, left, there, goes⟩ := walk_through located
      obtain ⟨follow, walks⟩ := walk_eq fs .existing left
      rw [goes, walks] at located
      rw [goes, walk_blank _ _ there]
      simp only
      split
      · rfl
      next real =>
        obtain ⟨noHere, noAbove⟩ := not_or.mp real
        obtain ⟨_, passed⟩ := walkTo_cons located
        cases passed with
        | blank blank =>
          have nonempty : name ≠ [] := names_ne_nil (List.mem_of_getLast? last)
          simp [Path.isBlank, nonempty, noHere] at blank
        | above => exact absurd rfl noAbove
        | missing _ _ creates => cases creates
        | link named link =>
          rw [if_neg named.short, link]
          rfl
        | node named present =>
          rw [if_neg named.short, present]
          rfl

end Entries

section Directories

variable {fs after : FileSystem} {path : Path}

theorem growsAlong_ensureDirectory (fs : FileSystem) (path : Path) :
    GrowsAlong (· = path) fs (fs.ensureDirectory path).1 := by
  unfold ensureDirectory
  split
  next made => exact growsAlong_makeDirectory made
  · exact .refl _ fs

theorem isDirectory_of_ensureDirectory (ensured : fs.ensureDirectory path = (after, .ok ())) :
    after.isDirectory path = true := by
  unfold ensureDirectory at ensured
  split at ensured
  next made =>
    obtain rfl : _ = after := congrArg Prod.fst ensured
    exact isDirectory_of_makeDirectory made
  next refused =>
    obtain ⟨rfl, result⟩ := Prod.mk.inj ensured
    split at result
    next there => exact there
    · cases result

theorem ensureDirectory_of_isDirectory (isDirectory : fs.isDirectory path = true) :
    fs.ensureDirectory path = (fs, .ok ()) := by
  unfold ensureDirectory
  rw [makeDirectory_of_isDirectory isDirectory]
  simp only [isDirectory, if_true]

theorem growsAlong_makeWithin (fs : FileSystem) (levels : Nat) (path : Path) :
    GrowsAlong path.Upward fs (fs.makeWithin levels path).1 := by
  have last {path way : Path} (same : way = path) : path.Upward way := same ▸ .here path
  -- What was made on the way to the parent stays, whether or not the last step succeeds.
  induction levels generalizing path with
  | zero => exact .refl _ fs
  | succ levels ih =>
    unfold makeWithin
    split
    · exact .refl _ fs
    · split
      next made => exact (growsAlong_makeDirectory made).mono fun _ => last
      · split
        · split
          · exact .refl _ fs
          next parent found =>
            have above : GrowsAlong path.Upward fs (fs.makeWithin levels parent).1 := (ih parent).mono fun _ => .up found
            split
            next tried =>
              rw [tried] at above
              exact above.trans ((growsAlong_ensureDirectory _ path).mono fun _ => last)
            next tried =>
              rw [tried] at above
              exact above
        · exact (growsAlong_ensureDirectory fs path).mono fun _ => last

theorem growsAlong_makeDirectories (fs : FileSystem) (path : Path) :
    GrowsAlong path.Upward fs (fs.makeDirectories path).1 :=
  growsAlong_makeWithin fs path.length path

theorem isDirectory_of_makeDirectories (made : fs.makeDirectories path = (after, .ok ())) :
    path = [] ∨ after.isDirectory path = true := by
  rw [makeDirectories_eq] at made
  split at made
  next blank => exact .inl blank
  · refine .inr ?_
    split at made
    next at_once =>
      obtain rfl : _ = after := congrArg Prod.fst made
      exact isDirectory_of_makeDirectory at_once
    · split at made
      · split at made
        · cases made
        · split at made
          · exact isDirectory_of_ensureDirectory made
          · cases made
      · exact isDirectory_of_ensureDirectory made

theorem makeDirectories_of_isDirectory (isDirectory : path = [] ∨ fs.isDirectory path = true) :
    fs.makeDirectories path = (fs, .ok ()) := by
  rw [makeDirectories_eq]
  split
  · rfl
  next named =>
    have there := isDirectory.resolve_left named
    rw [makeDirectory_of_isDirectory there]
    simp only
    exact (if_neg (by decide)).trans (ensureDirectory_of_isDirectory there)

end Directories

section Parents

variable {fs after : FileSystem} {path : Path}

/-- Above a path there is nothing to make. -/
def Prepared (fs : FileSystem) (path : Path) : Prop :=
  ∀ parent, path.parent? = some parent → parent = [] ∨ fs.isDirectory parent = true

/-- Failing or not, preparing for a file makes directories above it. -/
theorem growsAlong_prepare {result : Except Failure Unit} (prepared : fs.prepare path = (after, result)) :
    GrowsAlong path.Beneath fs after := by
  unfold prepare at prepared
  split at prepared
  · cases prepared
    exact .refl _ fs
  next parent found =>
    have along : GrowsAlong path.Beneath fs (fs.makeDirectories parent).1 :=
      (growsAlong_makeDirectories fs parent).mono fun _ upward => ⟨parent, found, upward⟩
    split at prepared
    all_goals
      next tried =>
        cases prepared
        rw [tried] at along
        exact along

theorem prepared_of_prepare (prepared : fs.prepare path = (after, .ok ())) : after.Prepared path := by
  intro parent above
  unfold prepare at prepared
  rw [above] at prepared
  simp only at prepared
  split at prepared
  next tried =>
    cases prepared
    exact isDirectory_of_makeDirectories tried
  · cases prepared

theorem prepare_of_prepared (prepared : fs.Prepared path) : fs.prepare path = (fs, .ok ()) := by
  unfold prepare
  split
  · rfl
  next parent above =>
    rw [makeDirectories_of_isDirectory (prepared parent above)]

end Parents

end FileSystem

end HeaderKeys
