import HeaderKeys.FileSystem
import HeaderKeys.IoError

/-! Finding the place that a path leads to. A path is walked piece by piece, links are
followed on the way and at the end, and each link uses up one of a limited number. -/

namespace HeaderKeys

def nameLimit : Nat := 255

/-- Paths of this length and above are refused. -/
def pathLimit : Nat := 4096

def linkLimit : Nat := 40

/-- The pieces to walk. A slash at the end leaves an empty last piece, which asks for a
directory. -/
def Path.steps (path : Path) : List Name :=
  path.names ++ if path.endsInSlash then [[]] else []

/-- Why a path is refused before any file is looked at. -/
def Path.refusal? (path : Path) : Option IoError :=
  if path.contains 0 then some .nulInPath
  else if path = [] then some .noSuchEntry
  else if pathLimit ≤ path.length then some .nameTooLong
  else none

namespace FileSystem

/-- What a walk is to find: something that is there, or the place of a file that may be
written and need not be there yet. -/
inductive Aim
  | existing
  | creation
deriving DecidableEq, Repr

/-- The place at the end of `steps`, seen from `here`. At a link the walk goes on with
`follow`, which is told where and by which steps. -/
def walkTo (fs : FileSystem) (aim : Aim) (follow : Location → List Name → Except IoError Location)
    (here : Location) : List Name → Except IoError Location
  | [] => .ok here
  | piece :: rest =>
    if fs.nodeAt here ≠ some .directory then .error .notADirectory
    else if Path.isBlank piece then fs.walkTo aim follow here rest
    else if piece = Path.above then fs.walkTo aim follow here.dropLast rest
    else if aim = .creation ∧ rest = [[]] then .error .isADirectory
    else if nameLimit < piece.length then .error .nameTooLong
    else match fs.nodeAt (here ++ [piece]) with
      | none => if aim = .creation ∧ rest = [] then .ok (here ++ [piece]) else .error .noSuchEntry
      | some (.link target) => follow (if target.isAbsolute then [] else here) (target.steps ++ rest)
      | some _ => fs.walkTo aim follow (here ++ [piece]) rest

/-- A walk that may follow so many links. -/
def walk (fs : FileSystem) (aim : Aim) : Nat → Location → List Name → Except IoError Location
  | 0, here, steps => fs.walkTo aim (fun _ _ => .error .tooManyLinks) here steps
  | links + 1, here, steps => fs.walkTo aim (fs.walk aim links) here steps

def beginning (fs : FileSystem) (path : Path) : Location :=
  if path.isAbsolute then [] else fs.current

def locate (fs : FileSystem) (aim : Aim) (path : Path) : Except IoError Location :=
  match path.refusal? with
  | some e => .error e
  | none => fs.walk aim linkLimit (fs.beginning path) path.steps

/-- What stands at the end of a path, links followed. -/
def node? (fs : FileSystem) (path : Path) : Option Node :=
  match fs.locate .existing path with
  | .ok place => fs.nodeAt place
  | .error _ => none

def isRegularFile (fs : FileSystem) (path : Path) : Bool := (fs.node? path).any Node.isRegular

def isDirectory (fs : FileSystem) (path : Path) : Bool := fs.node? path == some .directory

def read (fs : FileSystem) (path : Path) : Except IoError Bytes :=
  match fs.locate .existing path with
  | .error e => .error e
  | .ok place =>
    match fs.nodeAt place with
    | some (.file content) => .ok content
    | some .sink => .ok []
    | some .directory => .error .isADirectory
    | some .faulty => .error .inputOutput
    | some (.link _) => .error .tooManyLinks
    | none => .error .noSuchEntry

end FileSystem

end HeaderKeys
