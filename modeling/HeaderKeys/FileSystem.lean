import HeaderKeys.Entries
import HeaderKeys.Path

/-! A file system as a list of places and what stands at each of them, together with a
current directory. Files are whole contents; there are no owners, permissions or times.
A change touches one place (`nodeAt_put`), and storing what is already there changes
nothing (`put_eq_self`). -/

namespace HeaderKeys

/-- A place, as the names that lead to it from the root. -/
abbrev Location := List Name

inductive Node
  | directory
  | file (content : Bytes)
  /-- Stands for another path, which is read from the directory of the link. -/
  | link (target : Path)
  /-- A regular file whose content can be neither read nor written. -/
  | faulty
  /-- A device that is always empty and keeps nothing. -/
  | sink
deriving DecidableEq, Repr

/-- Regular files are those that hold content. -/
def Node.isRegular : Node → Bool
  | .file _ => true
  | .faulty => true
  | _ => false

structure FileSystem where
  entries : List (Location × Node)
  current : Location
deriving DecidableEq, Repr

namespace FileSystem

/-- The node at a place. The root is always a directory. -/
def nodeAt (fs : FileSystem) (place : Location) : Option Node :=
  if place = [] then some .directory else fs.entries.lookup place

def put (fs : FileSystem) (place : Location) (node : Node) : FileSystem :=
  { fs with entries := Entries.put place node fs.entries }

/-- Everything below the current directory, with places as seen from there. -/
def listing (fs : FileSystem) : List (Location × Node) :=
  fs.entries.filterMap fun (place, node) =>
    if fs.current.isPrefixOf place && fs.current.length < place.length then
      some (place.drop fs.current.length, node)
    else none

/-- What is listed in `after` but was not the same or not there in `before`. -/
def changes (before after : FileSystem) : List (Location × Node) :=
  after.listing.filter fun entry => !before.listing.contains entry

def placeOf (names : List String) : Location := names.map fun name => Path.ofText name.toList

/-- An empty current directory, and beside it the null device and a file that is
regular but cannot be read. -/
def fresh : FileSystem where
  entries :=
    [ (placeOf ["tmp"], .directory),
      (placeOf ["tmp", "work"], .directory),
      (placeOf ["dev"], .directory),
      (placeOf ["dev", "null"], .sink),
      (placeOf ["proc"], .directory),
      (placeOf ["proc", "self"], .directory),
      (placeOf ["proc", "self", "mem"], .faulty) ]
  current := placeOf ["tmp", "work"]

theorem nodeAt_put {fs : FileSystem} {place : Location} (below : place ≠ []) (node : Node) (other : Location) :
    (fs.put place node).nodeAt other = if other = place then some node else fs.nodeAt other := by
  by_cases root : other = []
  · simp [nodeAt, root, below.symm]
  · simp [nodeAt, root, put, Entries.lookup_put]

theorem put_eq_self {fs : FileSystem} {place : Location} {node : Node} (below : place ≠ [])
    (present : fs.nodeAt place = some node) : fs.put place node = fs := by
  simp only [nodeAt, below, if_false] at present
  simp [put, Entries.put_of_lookup present]

@[simp] theorem current_put (fs : FileSystem) (place : Location) (node : Node) :
    (fs.put place node).current = fs.current := rfl

end FileSystem

end HeaderKeys
