import HeaderKeys.ClassSource
import HeaderKeys.Path
import HeaderKeys.Text.Terminal

/-! Reading the arguments of a run. Options and files may stand in any order; `--` makes
everything behind it a file. Arguments are read from the left, and the first fault ends
the reading. Values that were taken from arguments of their own are checked late: when
the next option begins, or at the end. -/

namespace HeaderKeys.CommandLine

structure Options where
  files : List Path
  output : Path
  verbosity : Nat
  dryRun : Bool
deriving DecidableEq, Repr

inductive Parameter
  | files
  | output
  | verbose
  | dryRun
  | help
  | version
deriving DecidableEq, Repr

namespace Parameter

def label : Parameter → Text
  | files => "<FILE>...".toList
  | output => "--output <OUTPUT>".toList
  | verbose => "--verbose...".toList
  | dryRun => "--dry-run".toList
  | help => "--help".toList
  | version => "--version".toList

/-- Long options, without their two dashes. -/
def longNames : List (String × Parameter) :=
  [("output", output), ("verbose", verbose), ("dry-run", dryRun), ("help", help), ("version", version)]

def shortNames : List (Char × Parameter) :=
  [('o', output), ('v', verbose), ('h', help), ('V', version)]

def ofName? (name : Bytes) : Option Parameter :=
  (longNames.find? fun entry => Path.ofText entry.1.toList == name).map (·.2)

def ofLetter? (letter : UInt8) : Option Parameter :=
  (shortNames.find? fun entry => entry.1.toUInt8 == letter).map (·.2)

end Parameter

inductive UsageError
  | missingFiles
  | unknown (argument : Text)
  | missingValue (parameter : Parameter)
  | repeated (parameter : Parameter)
  | unexpectedValue (value : Text) (parameter : Parameter)
deriving DecidableEq, Repr

/-- The text that tells of a fault. What was given as an argument is shown plainly. -/
def UsageError.message : UsageError → Text
  | missingFiles => "error: the following required arguments were not provided:".toList
  | unknown argument => "error: unexpected argument ".toList ++ (Terminal.plain argument).quoted ++ " found".toList
  | missingValue parameter =>
    "error: a value is required for ".toList ++ parameter.label.quoted ++ " but none was supplied".toList
  | repeated parameter =>
    "error: the argument ".toList ++ parameter.label.quoted ++ " cannot be used multiple times".toList
  | unexpectedValue value parameter =>
    "error: unexpected value ".toList ++ (Terminal.plain value).quoted ++ " for ".toList ++ parameter.label.quoted
      ++ " found; no more were expected".toList

/-- Why reading the arguments ended before it had options. -/
inductive Stop
  | help
  | version
  | usage (error : UsageError)
deriving DecidableEq, Repr

/-- A value that was read but not checked yet. -/
inductive Pending
  | nothing
  | files (names : List Path)
  /-- The output option stood there; its value may be the next argument. -/
  | output (value : Option Path)
deriving DecidableEq, Repr

structure Reading where
  files : List Path := []
  output : Option Path := none
  verbosity : Nat := 0
  dryRun : Bool := false
  pending : Pending := .nothing
deriving DecidableEq, Repr

@[match_pattern] def dash : UInt8 := 0x2D

def equalsSign : UInt8 := 0x3D

def verbosityLimit : Nat := 255

namespace Reading

/-- Accepts a value for the output option, which may be given once and not be empty. -/
def setOutput (reading : Reading) (value : Path) : Except Stop Reading :=
  if reading.output.isSome then .error (.usage (.repeated .output))
  else if value = [] then .error (.usage (.missingValue .output))
  else .ok { reading with output := some value, pending := .nothing }

def settle (reading : Reading) : Except Stop Reading :=
  match reading.pending with
  | .nothing => .ok reading
  | .output none => .error (.usage (.missingValue .output))
  | .output (some value) => reading.setOutput value
  | .files names =>
    if names.contains [] then .error (.usage (.missingValue .files))
    else .ok { reading with files := reading.files ++ names, pending := .nothing }

def flag (reading : Reading) (parameter : Parameter) : Except Stop Reading := do
  let settled ← reading.settle
  match parameter with
  | .verbose => .ok { settled with verbosity := min verbosityLimit (settled.verbosity + 1) }
  | .dryRun =>
    if settled.dryRun then .error (.usage (.repeated .dryRun)) else .ok { settled with dryRun := true }
  | .help => .error .help
  | .version => .error .version
  | .output => .ok { settled with pending := .output none }
  | .files => .ok settled

def attached (reading : Reading) (value : Path) : Except Stop Reading := do
  let settled ← reading.settle
  settled.setOutput value

/-- An option behind two dashes, up to and behind its first equals sign. -/
def long (reading : Reading) (body : Bytes) : Except Stop Reading :=
  let name := body.takeWhile (· ≠ equalsSign)
  match Parameter.ofName? name, body.dropWhile (· ≠ equalsSign) with
  | none, _ => .error (.usage (.unknown ("--".toList ++ Utf8.decode name)))
  | some parameter, [] => reading.flag parameter
  | some .output, _ :: value => reading.attached value
  | some parameter, _ :: value => .error (.usage (.unexpectedValue (Utf8.decode value) parameter))

/-- What an error message shows of a group that begins with an unknown letter: the letter,
or all of the group if it begins with no character. -/
def unknownLetter (group : Bytes) : Text :=
  match Utf8.decode group with
  | [] => []
  | c :: rest => if (Utf8.encode [c]).isPrefixOf group then [c] else c :: rest

/-- The letters behind one dash. The output option takes the rest of the group as its
value, less one equals sign, or waits for the next argument if there is no rest. -/
def letters (reading : Reading) : Bytes → Except Stop Reading
  | [] => .ok reading
  | letter :: rest =>
    match Parameter.ofLetter? letter with
    | none => .error (.usage (.unknown ('-' :: unknownLetter (letter :: rest))))
    | some .output =>
      match rest with
      | [] => reading.flag .output
      | first :: value => reading.attached (if first = equalsSign then value else first :: value)
    | some parameter =>
      match reading.flag parameter with
      | .ok next => next.letters rest
      | .error stop => .error stop

def operand (reading : Reading) (name : Path) : Except Stop Reading :=
  match reading.pending with
  | .files names => .ok { reading with pending := .files (names ++ [name]) }
  | _ => do
    let settled ← reading.settle
    .ok { settled with pending := .files [name] }

/-- An argument that is no option: the value that is waited for, or a file name. -/
def plain (reading : Reading) (argument : Bytes) : Except Stop Reading :=
  match reading.pending with
  | .output none => .ok { reading with pending := .output (some argument) }
  | _ => reading.operand argument

/-- One argument where options are allowed. A lone dash is no option. -/
def argument (reading : Reading) : Bytes → Except Stop Reading
  | dash :: dash :: body => reading.long body
  | dash :: letter :: rest => reading.letters (letter :: rest)
  | other => reading.plain other

def operands (reading : Reading) : List Bytes → Except Stop Reading
  | [] => .ok reading
  | name :: names =>
    match reading.operand name with
    | .ok next => next.operands names
    | .error stop => .error stop

def arguments (reading : Reading) : List Bytes → Except Stop Reading
  | [] => .ok reading
  | first :: later =>
    if first = [dash, dash] then reading.operands later
    else match reading.argument first with
      | .ok next => next.arguments later
      | .error stop => .error stop

/-- The options, once nothing more can come. A run needs a file. -/
def options (reading : Reading) : Except Stop Options := do
  let settled ← reading.settle
  if settled.files = [] then .error (.usage .missingFiles)
  else .ok ⟨settled.files, settled.output.getD (Path.ofText defaultOutput), settled.verbosity, settled.dryRun⟩

end Reading

def parse (arguments : List Bytes) : Except Stop Options := do
  let reading ← ({} : Reading).arguments arguments
  reading.options

end HeaderKeys.CommandLine
