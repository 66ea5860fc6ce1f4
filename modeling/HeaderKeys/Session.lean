import HeaderKeys.Extraction

/-! A session drives the library step by step: three tables, one scanner that is fed by
hand, and files. A step names the table it works on; the scanner belongs to none of
them. A step that fails answers with its error and leaves tables and scanner alone. -/

namespace HeaderKeys

def tableCount : Nat := 3

structure Session where
  tables : Vector KeyTable tableCount
  scanner : Scanner
  files : FileSystem
deriving DecidableEq

namespace Session

abbrev Slot := Fin tableCount

inductive Step
  | insert (slot : Slot) (key declaration : Text)
  | get (slot : Slot) (key : Text)
  | info (slot : Slot)
  | dump (slot : Slot)
  | clear (slot : Slot)
  | copy (slot source : Slot)
  | compare (slot other : Slot)
  | render (slot : Slot)
  | feed (slot : Slot) (line : Text)
  | finish
  | scan (slot : Slot) (text : Text)
  | scanFile (slot : Slot) (path : Path)
  | writeTo (slot : Slot) (path : Path)
  | tree
deriving DecidableEq, Repr

inductive Answer
  | inserted (previous : Option Text) (names : List KeyName)
  | value (declaration : Option Text)
  | info (size : Nat) (isEmpty isComplete : Bool) (names : List KeyName)
  | dump (entries : List (KeyName × Text))
  | names (names : List KeyName)
  | equal (same : Bool)
  | text (text : Text)
  | state (state : ScanState) (names : List KeyName)
  | finished (report : ScanReport)
  | scanned (report : ScanReport) (names : List KeyName)
  | done
  | tree (entries : List (Location × Node))
  | unknownKey (error : UnknownKeyName)
  | failed (failure : Failure)
deriving DecidableEq, Repr

/-- Empty tables, a fresh scanner, and the files that are there. -/
def start (files : FileSystem) : Session := ⟨Vector.replicate tableCount .empty, {}, files⟩

def table (session : Session) (slot : Slot) : KeyTable := session.tables[slot]

def setTable (session : Session) (slot : Slot) (table : KeyTable) : Session :=
  { session with tables := session.tables.set slot table }

theorem table_setTable (session : Session) (slot other : Slot) (table : KeyTable) :
    (session.setTable slot table).table other = if other = slot then table else session.table other := by
  simp only [Session.table, setTable]
  by_cases h : other = slot
  · subst h; simp
  · have : slot.val ≠ other.val := fun same => h (Fin.ext same.symm)
    simp [h, this]

/-- One step: what becomes of the session, and its answer. -/
def step (session : Session) : Step → Session × Answer
  | .insert slot name declaration =>
    match KeyName.parse name with
    | .error error => (session, .unknownKey error)
    | .ok key =>
      let table := (session.table slot).insert key declaration
      (session.setTable slot table, .inserted ((session.table slot).get? key) table.names)
  | .get slot name =>
    match KeyName.parse name with
    | .error error => (session, .unknownKey error)
    | .ok key => (session, .value ((session.table slot).get? key))
  | .info slot =>
    let table := session.table slot
    (session, .info table.size table.isEmpty table.isComplete table.names)
  | .dump slot => (session, .dump (session.table slot).entries)
  | .clear slot => (session.setTable slot .empty, .names [])
  | .copy slot source =>
    (session.setTable slot (session.table source), .names (session.table source).names)
  | .compare slot other => (session, .equal (session.table slot = session.table other))
  | .render slot =>
    match (session.table slot).render with
    | .ok text => (session, .text text)
    | .error incomplete => (session, .failed (.incompleteKeys incomplete.found))
  | .feed slot line =>
    let fed := session.scanner.feed line
    let table := (session.table slot).recordAll fed.2.toList
    ({ session.setTable slot table with scanner := fed.1 }, .state fed.1.state table.names)
  | .finish => ({ session with scanner := {} }, .finished session.scanner.finish)
  | .scan slot text =>
    let scanned := scanText text (session.table slot)
    (session.setTable slot scanned.2, .scanned scanned.1 scanned.2.names)
  | .scanFile slot path =>
    match session.files.scanFile path (session.table slot) with
    | .ok scanned => (session.setTable slot scanned.2, .scanned scanned.1 scanned.2.names)
    | .error failure => (session, .failed failure)
  | .writeTo slot path =>
    let written := session.files.writeClass path (session.table slot)
    ({ session with files := written.1 },
      match written.2 with
      | .ok () => .done
      | .error failure => .failed failure)
  | .tree => (session, .tree session.files.listing)

def run (session : Session) : List Step → List Answer
  | [] => []
  | first :: later => (session.step first).2 :: (session.step first).1.run later

def after (session : Session) (steps : List Step) : Session :=
  steps.foldl (fun current step => (current.step step).1) session

end Session

end HeaderKeys
