import HeaderKeys.Event
import HeaderKeys.Failure
import HeaderKeys.FileSystem.Change

/-! From header files to a table, and from a table to the generated file. Reading
changes no file. Writing renders first, so an incomplete table touches nothing; but
directories made before a failing step stay. -/

namespace HeaderKeys

namespace FileSystem

/-- The bytes of a header. Only regular files are read. -/
def readHeader (fs : FileSystem) (path : Path) : Except Failure Bytes :=
  if fs.isRegularFile path then
    match fs.read path with
    | .ok content => .ok content
    | .error cause => .error (.fileRead path cause)
  else .error (.notAFile path)

/-- Scans a header into a table. Damaged characters are replaced, not refused. -/
def scanFile (fs : FileSystem) (path : Path) (table : KeyTable) : Except Failure (ScanReport × KeyTable) :=
  (fs.readHeader path).map fun content => scanText (Utf8.decode content) table

/-- Makes the directory that a file is to stand in. A path of one name needs none. -/
def prepare (fs : FileSystem) (path : Path) : FileSystem × Except Failure Unit :=
  match path.parent? with
  | none => (fs, .ok ())
  | some parent =>
    match fs.makeDirectories parent with
    | (made, .ok ()) => (made, .ok ())
    | (made, .error cause) => (made, .error (.directoryCreate parent cause))

def store (fs : FileSystem) (path : Path) (content : Bytes) : FileSystem × Except Failure Unit :=
  match fs.prepare path with
  | (prepared, .error failure) => (prepared, .error failure)
  | (prepared, .ok ()) =>
    match prepared.writeFile path content with
    | .ok written => (written, .ok ())
    | .error cause => (prepared, .error (.fileWrite path cause))

def writeClass (fs : FileSystem) (path : Path) (table : KeyTable) : FileSystem × Except Failure Unit :=
  match table.render with
  | .error incomplete => (fs, .error (.incompleteKeys incomplete.found))
  | .ok text => fs.store path (Utf8.encode text)

end FileSystem

/-- A header by name, and what reading it gave. -/
structure Input where
  path : Path
  content : Except Failure Bytes

/-- What collecting keys logs, and the table it ends in or the input it fails on. -/
structure Collection where
  events : List Event
  result : Except (Path × Failure) KeyTable

def scanEvents (path : Path) (content : Bytes) (table : KeyTable) : List Event :=
  let text := Utf8.decode content
  let held := report text
  .reading path :: table.eventsOfAll (findings text)
    ++ held.discarded.toList.map (.neverClosed path)
    ++ [.scanned path held.found, .counted path held.found.length]

/-- What is logged of a header that cannot be read: its reading began if it is a regular file. -/
def failureEvents (path : Path) : Failure → List Event
  | .fileRead _ _ => [.reading path]
  | _ => []

/-- Scans inputs in order and stops at the first that cannot be read. -/
def collect (table : KeyTable) : List Input → Collection
  | [] => ⟨[.collected table.names], .ok table⟩
  | input :: later =>
    match input.content with
    | .ok content =>
      let rest := collect (scanText (Utf8.decode content) table).2 later
      ⟨scanEvents input.path content table ++ rest.events, rest.result⟩
    | .error failure => ⟨failureEvents input.path failure, .error (input.path, failure)⟩

end HeaderKeys
