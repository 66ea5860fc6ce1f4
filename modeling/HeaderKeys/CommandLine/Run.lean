import HeaderKeys.CommandLine.Help
import HeaderKeys.CommandLine.Options
import HeaderKeys.Extraction

/-! A run from its arguments to its exit code. Everything that is read is read before
anything is decided, and everything is decided before anything is written: the only
effect on files is that of the plan, and verbosity has no part in it. Lines of the log
stand without time stamps and colours, and no environment variable filters them. -/

namespace HeaderKeys.CommandLine

/-- Why a run fails, and what it was about at that time. -/
inductive Trouble
  | invocation (failure : Failure)
  | extraction (path : Path) (failure : Failure)
  | generation (path : Path) (failure : Failure)
deriving DecidableEq, Repr

namespace Trouble

def summary : Trouble → Text
  | invocation failure => failure.message
  | extraction path _ => "Failed to extract keys from ".toList ++ path.display
  | generation path _ => "Failed to generate ".toList ++ path.display

def causes : Trouble → List Text
  | invocation _ => []
  | extraction _ failure => failure.message :: failure.cause?.toList.map IoError.message
  | generation _ failure => failure.message :: failure.cause?.toList.map IoError.message

/-- A text in lines, the first behind `label` and the others behind `indent`. -/
def labelled (label indent : Text) (text : Text) : List Text :=
  match text.shownLines with
  | [] => []
  | first :: others => (label ++ first) :: others.map (indent ++ ·)

def numbered (number : Nat) : List Text → List Text
  | [] => []
  | cause :: later =>
    labelled ("    ".toList ++ Text.ofNat number ++ ": ".toList) "       ".toList cause
      ++ numbered (number + 1) later

/-- The lines that tell of the trouble. A single cause is not counted. -/
def lines (trouble : Trouble) : List Text :=
  labelled "Error: ".toList [] trouble.summary ++
    match trouble.causes with
    | [] => []
    | [cause] => [[], "Caused by:".toList] ++ labelled "    ".toList "    ".toList cause
    | causes => [[], "Caused by:".toList] ++ numbered 0 causes

end Trouble

inductive Plan
  | fail (trouble : Trouble)
  /-- Keys are missing, so nothing is written. -/
  | skip
  | print (text : Text)
  | write (path : Path) (text : Text)
deriving DecidableEq, Repr

structure Decision where
  events : List Event
  plan : Plan
deriving DecidableEq, Repr

/-- What follows from the program's own path, the options and the inputs. -/
def decision (invokedAs : Text) (options : Options) (inputs : List Input) : Decision :=
  match checkInvocation invokedAs with
  | .error failure => ⟨[], .fail (.invocation failure)⟩
  | .ok () =>
    let collection := collect .empty inputs
    match collection.result with
    | .error (path, failure) => ⟨collection.events, .fail (.extraction path failure)⟩
    | .ok table =>
      match table.render with
      | .error incomplete =>
        ⟨collection.events ++ [.warning (Failure.incompleteKeys incomplete.found).message], .skip⟩
      | .ok text =>
        ⟨collection.events ++ KeyName.all.map .emitting,
          if options.dryRun then .print text else .write options.output text⟩

structure Ending where
  exitCode : Nat
  stdout : Text
  stderr : List Text
deriving DecidableEq, Repr

def logLines (verbosity : Nat) (events : List Event) : List Text :=
  (Event.shown verbosity events).flatMap fun event => event.line.shownLines

namespace Ending

def success (verbosity : Nat) (events : List Event) (stdout : Text) : Ending :=
  ⟨0, stdout, logLines verbosity events⟩

def failure (verbosity : Nat) (events : List Event) (trouble : Trouble) : Ending :=
  ⟨1, [], logLines verbosity events ++ trouble.lines⟩

/-- Arguments that gave no options. Only the first line of a fault is shown. -/
def ofStop (program : Path) : Stop → Ending
  | .help => ⟨0, helpText program, []⟩
  | .version => ⟨0, versionText, []⟩
  | .usage error => ⟨2, [], error.message.shownLines.take 1⟩

end Ending

/-- How a run ends whose plan was carried out; `written` tells how writing went, if the
plan was to write. -/
def Decision.ending (decision : Decision) (verbosity : Nat) (written : Except Failure Unit) : Ending :=
  match decision.plan with
  | .fail trouble => .failure verbosity decision.events trouble
  | .skip => .success verbosity decision.events []
  | .print text => .success verbosity decision.events text
  | .write path text =>
    match written with
    | .ok () =>
      .success verbosity (decision.events ++ [.wrote path (Utf8.encode text).length])
        ("Wrote ".toList ++ path.display ++ "\n".toList)
    | .error failure => .failure verbosity decision.events (.generation path failure)

def Plan.perform (plan : Plan) (fs : FileSystem) : FileSystem × Except Failure Unit :=
  match plan with
  | .write path text => fs.store path (Utf8.encode text)
  | _ => (fs, .ok ())

def inputsOf (fs : FileSystem) (paths : List Path) : List Input :=
  paths.map fun path => ⟨path, fs.readHeader path⟩

/-- What starts a run: the path that the program was started by, and its arguments. -/
structure Invocation where
  program : Path
  arguments : List Bytes
deriving DecidableEq, Repr

structure Outcome where
  ending : Ending
  files : FileSystem
deriving DecidableEq

def generate (program : Path) (options : Options) (fs : FileSystem) : Outcome :=
  let decided := decision program.display options (inputsOf fs options.files)
  let performed := decided.plan.perform fs
  ⟨decided.ending options.verbosity performed.2, performed.1⟩

def run (invocation : Invocation) (fs : FileSystem) : Outcome :=
  match parse invocation.arguments with
  | .ok options => generate invocation.program options fs
  | .error stop => ⟨.ofStop invocation.program stop, fs⟩

end HeaderKeys.CommandLine
