import HeaderKeys.Proofs.CleanText
import HeaderKeys.Proofs.OrderedTables
import HeaderKeys.Proofs.RunEffects

/-! The warnings of a run, which are told also when nothing is asked for. Each header up to the first
that cannot be scanned may end inside an array. Behind the last one the keys are told that were
seen, in the order of output, if some are missing. -/

namespace HeaderKeys

namespace FileSystem

variable {fs : FileSystem} {path : Path}

/-- Whether scanning a header succeeds. -/
def scans (fs : FileSystem) (path : Path) : Bool := (fs.scanFile path .empty).isOk

/-- The text of a header. -/
def header? (fs : FileSystem) (path : Path) : Option Text := (fs.readHeader path).toOption.map Utf8.decode

theorem scans_of_read {content : Bytes} (read : fs.readHeader path = .ok content) : fs.scans path = true := by
  simp only [scans, scanFile, read]
  rfl

theorem header?_of_read {content : Bytes} (read : fs.readHeader path = .ok content) :
    fs.header? path = some (Utf8.decode content) := by
  simp only [header?, read]
  rfl

theorem scans_of_failed {failure : Failure} (failed : fs.readHeader path = .error failure) : fs.scans path = false := by
  simp only [scans, scanFile, failed]
  rfl

section Held

variable {paths : List Path} {contents : List Bytes}
  (held : paths.map fs.node? = contents.map fun content => some (.file content)) (named : path ∈ paths)
include held named

theorem read_of_held : ∃ content ∈ contents, fs.readHeader path = .ok content := by
  obtain ⟨content, member, present⟩ := exists_content held named
  exact ⟨content, member, readHeader_eq_ok_iff.mpr present⟩

theorem scans_of_held : fs.scans path = true := by
  obtain ⟨_, _, read⟩ := read_of_held held named
  exact scans_of_read read

end Held

end FileSystem

namespace CommandLine

def openLine (path : Path) (key : KeyName) : Text :=
  "WARN ".toList ++ path.display ++ ": ".toList ++ key.identifier ++ " is never closed with '\x7d;', ignoring it".toList

/-- What is told of a header that ends inside an array. -/
def openLines (fs : FileSystem) (path : Path) : List Text :=
  ((fs.header? path).bind fun text => text.outline.openKey?).toList.map (openLine path)

/-- The keys that are closed in any of the headers, in the order of output. -/
def closedKeys (fs : FileSystem) (paths : List Path) : List KeyName :=
  KeyName.all.filter fun key => paths.any fun path => (fs.header? path).any fun text => text.outline.keys.contains key

def missingLine (seen : List KeyName) : Text :=
  "WARN Did not get all 4 keys needed.  Only saw: [".toList
    ++ joinWith ", ".toList (seen.map fun key => "'".toList ++ key.identifier ++ "'".toList) ++ "]".toList

/-- What is told of headers up to the first that cannot be scanned, and of missing keys behind the last. -/
def warnings (fs : FileSystem) (paths : List Path) : List Text :=
  (paths.takeWhile fs.scans).flatMap (openLines fs) ++
    if paths.all fs.scans && closedKeys fs paths != KeyName.all then [missingLine (closedKeys fs paths)] else []

/-- The keys that headers close are those of the table that they are scanned into. -/
theorem closedKeys_eq {fs : FileSystem} {paths : List Path} {contents : List Bytes}
    (held : paths.map fs.node? = contents.map fun content => some (.file content)) :
    closedKeys fs paths = (KeyTable.empty.scanContents contents).names := by
  rw [closedKeys, KeyTable.names_eq_filter]
  refine List.filter_congr fun key _ => ?_
  rw [Bool.eq_iff_iff, KeyTable.get?_scanContents, KeyTable.get?_empty, Option.or_none, Option.isSome_map,
    isSome_lastArray?]
  simp only [List.any_eq_true, Option.any_eq_true, List.contains_iff_mem, Outline.keys, List.mem_map]
  constructor
  · rintro ⟨path, named, text, found, closed⟩
    obtain ⟨content, member, read⟩ := FileSystem.read_of_held held named
    obtain rfl : Utf8.decode content = text := Option.some.inj ((FileSystem.header?_of_read read).symm.trans found)
    exact ⟨content, member, closed⟩
  · rintro ⟨content, member, closed⟩
    obtain ⟨path, named, present⟩ := exists_path held member
    exact ⟨path, named, _, FileSystem.header?_of_read (FileSystem.readHeader_eq_ok_iff.mpr present), closed⟩

section Logs

/-- Two literals that meet are one. So a message put together from pieces is the text that it is told as. -/
theorem toList_append_append (first second : String) (rest : Text) :
    first.toList ++ (second.toList ++ rest) = (first ++ second).toList ++ rest := by
  rw [String.toList_append, List.append_assoc]

theorem logLines_append (verbosity : Nat) (first second : List Event) :
    logLines verbosity (first ++ second) = logLines verbosity first ++ logLines verbosity second := by
  simp only [logLines, Event.shown, List.filter_append, List.flatMap_append]

/-- Warnings alone are told if nothing is asked for. -/
theorem logLines_quiet {events : List Event} (quiet : ∀ event ∈ events, event.level ≠ .warn) : logLines 0 events = [] := by
  have hidden : Event.shown 0 events = [] := by
    refine List.filter_eq_nil_iff.mpr fun event member => ?_
    have less := quiet event member
    cases level : event.level with
    | warn => exact absurd level less
    | trace | debug | info => decide
  rw [logLines, hidden, List.flatMap_nil]

theorem logLines_warn {event : Event} (warns : event.level = .warn) (clean : event.message.isClean = true) :
    logLines 0 [event] = ["WARN ".toList ++ event.message] := by
  have told : Event.shown 0 [event] = [event] := by
    rw [Event.shown, List.filter_cons_of_pos (by simp only [warns]; decide), List.filter_nil]
  rw [logLines, told, List.flatMap_singleton, Event.shownLines_of_isClean clean, warns]
  rfl

theorem message_neverClosed (path : Path) (key : KeyName) :
    (Event.neverClosed path key).message =
      path.display ++ (": ".toList ++ (key.identifier ++ " is never closed with '\x7d;', ignoring it".toList)) := by
  -- Rewriting by the equations of a message would compare its literals character by character.
  unfold Event.message Text.quoted closingMark
  simp only [List.append_assoc, ← String.toList_append, String.reduceAppend]

theorem logLines_neverClosed {path : Path} (clean : path.display.isClean = true) (key : KeyName) :
    logLines 0 [.neverClosed path key] = [openLine path key] := by
  have named : key.identifier.isClean = true := by cases key <;> decide
  have plain : (Event.neverClosed path key).message.isClean = true := by
    rw [message_neverClosed]
    simp only [Text.isClean_append, clean, named]
    decide
  rw [logLines_warn rfl plain, message_neverClosed]
  unfold openLine
  simp only [List.append_assoc]

theorem message_incompleteKeys (seen : List KeyName) :
    (Failure.incompleteKeys seen).message = "Did not get all 4 keys needed.  Only saw: [".toList
      ++ (joinWith ", ".toList (seen.map fun key => "'".toList ++ key.identifier ++ "'".toList) ++ "]".toList) := by
  have count : Text.ofNat requiredKeys = "4".toList := by decide
  have bracketed (items : List Text) : Text.bracketed items = "[".toList ++ joinWith ", ".toList items ++ "]".toList := rfl
  unfold Failure.message Text.quoted
  simp only [count, bracketed, List.append_assoc, toList_append_append, String.reduceAppend]

theorem logLines_incomplete (seen : List KeyName) :
    logLines 0 [.warning (Failure.incompleteKeys seen).message] = [missingLine seen] := by
  have apart : Text.isClean ", ".toList = true := by decide
  have named : ∀ name ∈ seen.map (fun key => "'".toList ++ key.identifier ++ "'".toList), Text.isClean name = true := by
    refine List.forall_mem_map.mpr fun key _ => ?_
    cases key <;> decide
  have plain : (Failure.incompleteKeys seen).message.isClean = true := by
    rw [message_incompleteKeys]
    simp only [Text.isClean_append, Text.isClean_joinWith apart named]
    decide
  have shown : logLines 0 [.warning (Failure.incompleteKeys seen).message] =
      ["WARN ".toList ++ (Failure.incompleteKeys seen).message] := logLines_warn rfl plain
  rw [shown, message_incompleteKeys]
  unfold missingLine
  simp only [List.append_assoc, toList_append_append, String.reduceAppend]

theorem logLines_scanEvents {path : Path} (clean : path.display.isClean = true) (content : Bytes) (table : KeyTable) :
    logLines 0 (scanEvents path content table) =
      (Utf8.decode content).outline.openKey?.toList.map (openLine path) := by
  have before : logLines 0 (.reading path :: table.eventsOfAll (findings (Utf8.decode content))) = [] :=
    logLines_quiet (List.forall_mem_cons.mpr ⟨by simp [Event.level], level_eventsOfAll _ _⟩)
  have behind (found : List KeyName) : logLines 0 [.scanned path found, .counted path found.length] = [] :=
    logLines_quiet (by simp [Event.level])
  simp only [scanEvents, logLines_append, before, behind, report_eq, List.nil_append, List.append_nil]
  cases (Utf8.decode content).outline.openKey? with
  | none => rfl
  | some key => exact logLines_neverClosed clean key

/-- What collecting tells: of each header up to the first that cannot be scanned, whether it ends inside an array. -/
theorem logLines_collect {fs : FileSystem} {paths : List Path} (clean : ∀ path ∈ paths, path.display.isClean = true)
    (table : KeyTable) :
    logLines 0 (collect table (inputsOf fs paths)).events = (paths.takeWhile fs.scans).flatMap (openLines fs) := by
  induction paths generalizing table with
  | nil => exact logLines_quiet (by simp [inputsOf, collect, Event.level])
  | cons path paths ih =>
    obtain ⟨here, later⟩ := List.forall_mem_cons.mp clean
    cases read : fs.readHeader path with
    | ok content =>
      have first : openLines fs path = logLines 0 (scanEvents path content table) := by
        rw [logLines_scanEvents here, openLines, FileSystem.header?_of_read read]
        rfl
      rw [List.takeWhile_cons_of_pos (FileSystem.scans_of_read read), List.flatMap_cons, first, ← ih later]
      simp only [inputsOf, List.map_cons, collect, read, logLines_append]
      rfl
    | error failure =>
      have stops : ¬ fs.scans path = true := by simp [FileSystem.scans_of_failed read]
      rw [List.takeWhile_cons_of_neg stops]
      simp only [inputsOf, List.map_cons, collect, read]
      exact logLines_quiet (by cases failure <;> simp [failureEvents, Event.level])

section Warnings

variable {fs : FileSystem} {paths : List Path} (clean : ∀ path ∈ paths, path.display.isClean = true)
include clean

theorem warnings_of_failed {path : Path} {failure : Failure} (named : path ∈ paths)
    (failed : fs.readHeader path = .error failure) :
    warnings fs paths = logLines 0 (collect .empty (inputsOf fs paths)).events := by
  have stops : paths.all fs.scans = false := List.all_eq_false.mpr ⟨path, named, by simp [FileSystem.scans_of_failed failed]⟩
  rw [warnings, stops, logLines_collect clean, Bool.false_and, if_neg Bool.false_ne_true, List.append_nil]

variable {contents : List Bytes} (held : paths.map fs.node? = contents.map fun content => some (.file content))
include held

theorem warnings_of_incomplete (lacking : (KeyTable.empty.scanContents contents).isComplete = false) :
    warnings fs paths = logLines 0 ((collect .empty (inputsOf fs paths)).events
      ++ [.warning (Failure.incompleteKeys (KeyTable.empty.scanContents contents).names).message]) := by
  have scanned : paths.all fs.scans = true := List.all_eq_true.mpr fun _ named => FileSystem.scans_of_held held named
  have missing : closedKeys fs paths ≠ KeyName.all := by
    rw [closedKeys_eq held, Ne, KeyTable.names_eq_all_iff, lacking]
    exact Bool.false_ne_true
  rw [warnings, scanned, bne_iff_ne.mpr missing, Bool.true_and, if_pos rfl, closedKeys_eq held, logLines_append,
    logLines_collect clean, logLines_incomplete]

theorem warnings_of_complete (complete : (KeyTable.empty.scanContents contents).isComplete = true) :
    warnings fs paths = logLines 0 (collect .empty (inputsOf fs paths)).events := by
  have whole : closedKeys fs paths = KeyName.all := by rw [closedKeys_eq held, KeyTable.names_eq_all_iff, complete]
  rw [warnings, whole, bne_self_eq_false, Bool.and_false, if_neg Bool.false_ne_true, List.append_nil, logLines_collect clean]

end Warnings

end Logs

end CommandLine

end HeaderKeys
