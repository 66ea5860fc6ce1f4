import HeaderKeys.CommandLine.Run

/-! The program on real files. It reads what the arguments name, asks the library for a
decision, carries it out and shows the ending; it decides nothing itself. -/

namespace HeaderKeys.Main

open CommandLine

/-- The number behind an error of the system, or its text if it has none. -/
def causeOf : IO.Error → IoError
  | .alreadyExists _ code _ => .os code.toNat
  | .otherError code _ => .os code.toNat
  | .resourceBusy code _ => .os code.toNat
  | .resourceVanished code _ => .os code.toNat
  | .unsupportedOperation code _ => .os code.toNat
  | .hardwareFault code _ => .os code.toNat
  | .unsatisfiedConstraints code _ => .os code.toNat
  | .illegalOperation code _ => .os code.toNat
  | .protocolError code _ => .os code.toNat
  | .timeExpired code _ => .os code.toNat
  | .interrupted _ code _ => .os code.toNat
  | .noFileOrDirectory _ code _ => .os code.toNat
  | .invalidArgument _ code _ => .os code.toNat
  | .permissionDenied _ code _ => .os code.toNat
  | .resourceExhausted _ code _ => .os code.toNat
  | .inappropriateType _ code _ => .os code.toNat
  | .noSuchThing _ code _ => .os code.toNat
  | .unexpectedEof => .other "unexpected end of file".toList
  | .userError text => .other text.toList

def spelling (path : Path) : String := String.ofList path.display

def readHeader (path : Path) : IO (Except Failure Bytes) := do
  let regular ←
    try
      let found ← (← IO.FS.realPath (spelling path)).metadata
      pure (found.type == .file)
    catch _ => pure false
  if regular then
    try return .ok (← IO.FS.readBinFile (spelling path)).toList
    catch e => return .error (.fileRead path (causeOf e))
  else return .error (.notAFile path)

/-- Reads headers up to the first that cannot be read. -/
def readInputs : List Path → IO (List Input)
  | [] => return []
  | path :: later => do
    let content ← readHeader path
    match content with
    | .ok _ => return ⟨path, content⟩ :: (← readInputs later)
    | .error _ => return [⟨path, content⟩]

def store (path : Path) (content : Bytes) : IO (Except Failure Unit) := do
  match path.parent? with
  | none => pure ()
  | some [] => pure ()
  | some parent =>
    try IO.FS.createDirAll (spelling parent)
    catch e => return .error (.directoryCreate parent (causeOf e))
  try
    IO.FS.writeBinFile (spelling path) ⟨content.toArray⟩
    return .ok ()
  catch e => return .error (.fileWrite path (causeOf e))

def perform : Plan → IO (Except Failure Unit)
  | .write path text => store path (Utf8.encode text)
  | _ => return .ok ()

def generate (program : Path) (options : Options) : IO Ending := do
  let decided := decision program.display options (← readInputs options.files)
  let written ← perform decided.plan
  return decided.ending options.verbosity written

/-- A run from the arguments as they came in. -/
def execute (arguments : List String) : IO UInt32 := do
  let program := Path.ofText (← IO.appPath).toString.toList
  let ending ← match parse (arguments.map fun argument => argument.toUTF8.toList) with
    | .ok options => generate program options
    | .error stop => pure (Ending.ofStop program stop)
  for line in ending.stderr do
    IO.eprintln (String.ofList line)
  IO.print (String.ofList ending.stdout)
  return ending.exitCode.toUInt32

end HeaderKeys.Main

def main (arguments : List String) : IO UInt32 := HeaderKeys.Main.execute arguments
