import HeaderKeys.FileSystem.Lookup

/-! Making directories and links, and writing files. Each of the single steps either
fails and changes nothing or changes one place. Making a directory with everything above
it is several steps: what was made before a failing one stays. Writing behind a successful
open is taken not to be interrupted: no disk is full, and only a faulty file refuses its
content. -/

namespace HeaderKeys.FileSystem

/-- Puts `node` at a place that must be free, in a directory that must be there. A link
as the last name is not followed, so it occupies its place even if it leads nowhere. -/
def makeEntry (fs : FileSystem) (path : Path) (node : Node) : Except IoError FileSystem :=
  match path.refusal? with
  | some e => .error e
  | none =>
    match fs.walk .existing linkLimit (fs.beginning path) (path.names.dropLast ++ [[]]) with
    | .error e => .error e
    | .ok directory =>
      match path.names.getLast? with
      | none => .error .alreadyExists
      | some name =>
        if name = Path.here ∨ name = Path.above then .error .alreadyExists
        else if nameLimit < name.length then .error .nameTooLong
        else if (fs.nodeAt (directory ++ [name])).isSome then .error .alreadyExists
        else .ok (fs.put (directory ++ [name]) node)

def makeDirectory (fs : FileSystem) (path : Path) : Except IoError FileSystem :=
  fs.makeEntry path .directory

def makeLink (fs : FileSystem) (path target : Path) : Except IoError FileSystem :=
  fs.makeEntry path (.link target)

/-- Makes a directory, content with one that is there already. -/
def ensureDirectory (fs : FileSystem) (path : Path) : FileSystem × Except IoError Unit :=
  match fs.makeDirectory path with
  | .ok made => (made, .ok ())
  | .error e => (fs, if fs.isDirectory path then .ok () else .error e)

/-- Makes a directory and those above it that are missing, going up so many levels. -/
def makeWithin (fs : FileSystem) : Nat → Path → FileSystem × Except IoError Unit
  | 0, _ => (fs, .ok ())
  | levels + 1, path =>
    if path = [] then (fs, .ok ())
    else match fs.makeDirectory path with
      | .ok made => (made, .ok ())
      | .error e =>
        if e = .noSuchEntry then
          match path.parent? with
          | none => (fs, .error (.other "failed to create whole tree".toList))
          | some parent =>
            match fs.makeWithin levels parent with
            | (made, .ok ()) => made.ensureDirectory path
            | (made, .error e) => (made, .error e)
        else fs.ensureDirectory path

/-- Makes a directory and those above it that are missing. A path has no more levels
than bytes. -/
def makeDirectories (fs : FileSystem) (path : Path) : FileSystem × Except IoError Unit :=
  fs.makeWithin path.length path

theorem makeWithin_length (fs : FileSystem) {levels : Nat} {path : Path} (enough : path.length ≤ levels) :
    fs.makeWithin levels path = fs.makeDirectories path := by
  have same : ∀ (few many : Nat) (path : Path), path.length ≤ few → few ≤ many →
      fs.makeWithin many path = fs.makeWithin few path := by
    intro few
    induction few with
    | zero =>
      intro many path short _
      have : path = [] := List.eq_nil_of_length_eq_zero (Nat.le_zero.mp short)
      subst this
      cases many <;> simp [makeWithin]
    | succ few ih =>
      intro many path short more
      cases many with
      | zero => cases more
      | succ many =>
        simp only [makeWithin]
        split
        · rfl
        · split
          · rfl
          · split
            · split
              · rfl
              next parent found =>
                have shorter := Path.length_parent?_lt found
                rw [ih many parent (by omega) (by omega)]
            · rfl
  exact same path.length levels path (Nat.le_refl _) enough

/-- Going up: a directory is made at once, or after its parent. -/
theorem makeDirectories_eq (fs : FileSystem) (path : Path) :
    fs.makeDirectories path =
      if path = [] then (fs, .ok ())
      else match fs.makeDirectory path with
        | .ok made => (made, .ok ())
        | .error e =>
          if e = .noSuchEntry then
            match path.parent? with
            | none => (fs, .error (.other "failed to create whole tree".toList))
            | some parent =>
              match fs.makeDirectories parent with
              | (made, .ok ()) => made.ensureDirectory path
              | (made, .error e) => (made, .error e)
          else fs.ensureDirectory path := by
  cases h : path with
  | nil => rfl
  | cons first rest =>
    simp only [makeDirectories, List.length_cons, makeWithin]
    split
    · rfl
    · split
      · rfl
      · split
        · split
          · rfl
          next parent found =>
            have shorter := Path.length_parent?_lt found
            rw [makeWithin_length fs (by simpa using Nat.lt_succ_iff.mp shorter)]
            rfl
        · rfl

/-- Makes the file at the end of a path hold `content` and nothing else. A file that is not
faulty takes all of it once it is open. -/
def writeFile (fs : FileSystem) (path : Path) (content : Bytes) : Except IoError FileSystem :=
  match fs.locate .creation path with
  | .error e => .error e
  | .ok place =>
    match fs.nodeAt place with
    | none => .ok (fs.put place (.file content))
    | some (.file _) => .ok (fs.put place (.file content))
    | some .sink => .ok fs
    | some .directory => .error .isADirectory
    | some .faulty => .error .inputOutput
    | some (.link _) => .error .tooManyLinks

end HeaderKeys.FileSystem
