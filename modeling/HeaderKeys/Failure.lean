import HeaderKeys.ClassSource
import HeaderKeys.IoError
import HeaderKeys.Path

/-! What can go wrong in a run, and the one text for each case. A table with too few
keys is the only failure that a run survives. -/

namespace HeaderKeys

inductive Failure
  | notAFile (path : Path)
  | fileRead (path : Path) (cause : IoError)
  | fileWrite (path : Path) (cause : IoError)
  | directoryCreate (path : Path) (cause : IoError)
  /-- The program was not started from the project's root. -/
  | wrongWorkingDirectory (invokedAs : Text)
  | incompleteKeys (found : List KeyName)
deriving DecidableEq, Repr

namespace Failure

def ioMessage (attempt : String) (path : Path) (cause : IoError) : Text :=
  "failed to ".toList ++ attempt.toList ++ " ".toList ++ path.display.quoted ++ ": ".toList ++ cause.message

def message : Failure → Text
  | notAFile path => path.display ++ " is not a file".toList
  | fileRead path cause => ioMessage "read file" path cause
  | fileWrite path cause => ioMessage "write file" path cause
  | directoryCreate path cause => ioMessage "create directory" path cause
  | wrongWorkingDirectory invokedAs =>
    "Please run this from the project's root directory (invoked as ".toList ++ invokedAs.quoted ++ ")".toList
  | incompleteKeys found =>
    "Did not get all ".toList ++ Text.ofNat requiredKeys ++ " keys needed.  Only saw: ".toList
      ++ Text.bracketed (found.map fun key => key.identifier.quoted)

/-- What the system said, where a file operation failed. -/
def cause? : Failure → Option IoError
  | fileRead _ cause => some cause
  | fileWrite _ cause => some cause
  | directoryCreate _ cause => some cause
  | _ => none

def isSoft : Failure → Bool
  | incompleteKeys _ => true
  | _ => false

end Failure

/-- The directory that the program lives in, as a part of the path it is started by. -/
def toolsDirectory : Text := "/tools/".toList

/-- Started from the project's root, the program's own path leads through the tools
directory; then the default output path is right, too. -/
def checkInvocation (invokedAs : Text) : Except Failure Unit :=
  if occurs toolsDirectory invokedAs then .ok () else .error (.wrongWorkingDirectory invokedAs)

end HeaderKeys
