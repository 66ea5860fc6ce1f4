import HeaderKeys.FileSystem.Change

/-! Laying out files before anything else happens. Each entry is made with the
directories above it; one that cannot be made is left out. -/

namespace HeaderKeys

inductive Seed
  | directory (path : Path)
  | file (path : Path) (content : Bytes)
  | link (path target : Path)
deriving DecidableEq, Repr

namespace FileSystem

def openGround (fs : FileSystem) (path : Path) : FileSystem :=
  match path.parent? with
  | none => fs
  | some parent => (fs.makeDirectories parent).1

def plant (fs : FileSystem) : Seed → FileSystem
  | .directory path => (fs.makeDirectories path).1
  | .file path content =>
    let ground := fs.openGround path
    (ground.writeFile path content).toOption.getD ground
  | .link path target =>
    let ground := fs.openGround path
    (ground.makeLink path target).toOption.getD ground

def layOut (fs : FileSystem) (seeds : List Seed) : FileSystem := seeds.foldl plant fs

end FileSystem

end HeaderKeys
