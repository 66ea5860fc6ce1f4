import HeaderKeys.Declaration
import HeaderKeys.KeyTable
import HeaderKeys.Literal

/-! Reading a header line by line. A declaration line opens an array, the lines behind
it are its block, and a line with the closing mark ends it; neither the first nor the
last belongs to the block. The scanner knows nothing of tables: it hands out findings,
and a table records them. -/

namespace HeaderKeys

/-- Whether an array is open, and what of it has been read. -/
inductive ScanState
  | idle
  | capturing (key : KeyName) (block : Text)
deriving DecidableEq, Repr

/-- What a line can bring about. -/
inductive Finding
  | opened (key : KeyName)
  | closed (key : KeyName) (block : Text)
deriving DecidableEq, Repr

structure ScanReport where
  /-- Keys in the order in which their arrays closed. -/
  found : List KeyName
  /-- The key whose array was still open at the end. -/
  discarded : Option KeyName
deriving DecidableEq, Repr

structure Scanner where
  state : ScanState := .idle
  found : List KeyName := []
deriving DecidableEq, Repr

namespace Scanner

/-- One line with its line break. A line that opens an array is not searched for the
closing mark, and a line that closes one is not searched for a declaration. -/
def feed (scanner : Scanner) (line : Text) : Scanner × Option Finding :=
  match scanner.state with
  | .idle =>
    match declaredKey? line with
    | some key => ({ scanner with state := .capturing key [] }, some (.opened key))
    | none => (scanner, none)
  | .capturing key block =>
    if closes line then (⟨.idle, scanner.found ++ [key]⟩, some (.closed key block))
    else ({ scanner with state := .capturing key (block ++ line) }, none)

def feedAll (scanner : Scanner) : List Text → Scanner × List Finding
  | [] => (scanner, [])
  | line :: lines =>
    let fed := scanner.feed line
    let later := fed.1.feedAll lines
    (later.1, fed.2.toList ++ later.2)

/-- Ends the input. An array that is still open is dropped. -/
def finish (scanner : Scanner) : ScanReport :=
  match scanner.state with
  | .idle => ⟨scanner.found, none⟩
  | .capturing key _ => ⟨scanner.found, some key⟩

end Scanner

/-- Stores the constant of a closed array; an opened one stores nothing yet. -/
def KeyTable.record (table : KeyTable) : Finding → KeyTable
  | .opened _ => table
  | .closed key block => table.insert key (declaration key (suffixLiterals block))

def KeyTable.recordAll (table : KeyTable) (findings : List Finding) : KeyTable :=
  findings.foldl KeyTable.record table

def findings (text : Text) : List Finding := (({} : Scanner).feedAll text.lines).2

def report (text : Text) : ScanReport := (({} : Scanner).feedAll text.lines).1.finish

def scanText (text : Text) (table : KeyTable) : ScanReport × KeyTable :=
  (report text, table.recordAll (findings text))

end HeaderKeys
