import HeaderKeys.FileSystem.Layout
import HeaderKeys.Proofs.RunDecisions
import HeaderKeys.Proofs.SpelledArguments

/-! What asking for more output changes. Each request that a list of arguments holds is counted, up to a
limit that shows everything. Two runs that differ in nothing else do the same and keep the
same log, and the count is only the sieve through which the log is told. -/

namespace HeaderKeys

namespace Event

end Event

namespace CommandLine

namespace Reading

section Kept

variable {before after : Reading}

end Kept

/-- Reading on counts so many requests. -/
def Counts (count : Nat) (operation : Reading → Except Stop Reading) : Prop :=
  ∀ before after, operation before = .ok after → before.verbosity ≤ verbosityLimit →
    after.verbosity = min verbosityLimit (before.verbosity + count)

theorem Counts.bind {one two : Nat} {first second : Reading → Except Stop Reading} (counts : Counts one first)
    (counts' : Counts two second) : Counts (one + two) fun reading => first reading >>= second := by
  intro before after read bounded
  cases begun : first before with
  | error stop =>
    simp only [begun] at read
    cases read
  | ok middle =>
    simp only [begun] at read
    have counted := counts _ _ begun bounded
    have counted' := counts' _ _ read (by omega)
    omega

end Reading

/-- All that a decision logs, shown or not; `written` tells how writing went. -/
def Decision.log (decision : Decision) (written : Except Failure Unit) : List Event :=
  match decision.plan, written with
  | .write path text, .ok () => decision.events ++ [.wrote path (Utf8.encode text).length]
  | _, _ => decision.events

/-- What is reported of a decision that fails. -/
def Decision.report (decision : Decision) (written : Except Failure Unit) : List Text :=
  match decision.plan, written with
  | .fail trouble, _ => trouble.lines
  | .write path _, .error failure => (Trouble.generation path failure).lines
  | _, _ => []

/-- What a run tells besides its output: events as they come, and then a report if it fails. -/
structure Telling where
  events : List Event
  report : List Text

def Telling.lines (telling : Telling) : List Text :=
  (telling.events.flatMap fun event => event.line.shownLines) ++ telling.report

def telling (program : Path) (options : Options) (fs : FileSystem) : Telling :=
  let decided := decision program.display options (inputsOf fs options.files)
  let written := (decided.plan.perform fs).2
  ⟨Event.shown options.verbosity (decided.log written), decided.report written⟩

section Runs

variable {program : Path} {arguments : List Bytes} {options : Options} (parsed : parse arguments = .ok options)
  (fs : FileSystem)
include parsed

end Runs

end CommandLine

end HeaderKeys
