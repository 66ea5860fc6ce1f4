import HeaderKeys.FileSystem.Layout
import HeaderKeys.Proofs.FileWriting
import HeaderKeys.Proofs.HeaderFiles
import HeaderKeys.Session

/-! Steps of a session that fail. A step fails for one of eight reasons, each of which can be told
from the session before it. In all of them the tables and the scanner stay as they were, and
files can only change under a step that had a complete table to write. -/

namespace HeaderKeys.Session

/-- Whether an answer tells of an error. -/
def Answer.isError : Answer → Bool
  | .unknownKey _ => true
  | .failed _ => true
  | _ => false

/-- Why a step fails, the files it leaves, and its answer. -/
inductive Refused (session : Session) : Step → FileSystem → Answer → Prop
  | unknownInsertion {slot : Slot} {name declaration : Text} (unknown : ∀ key : KeyName, key.identifier ≠ name) :
      Refused session (.insert slot name declaration) session.files (.unknownKey ⟨name⟩)
  | unknownLookup {slot : Slot} {name : Text} (unknown : ∀ key : KeyName, key.identifier ≠ name) :
      Refused session (.get slot name) session.files (.unknownKey ⟨name⟩)
  | unrendered {slot : Slot} (lacking : (session.table slot).isComplete = false) :
      Refused session (.render slot) session.files (.failed (.incompleteKeys (session.table slot).names))
  | irregular {slot : Slot} {path : Path} (irregular : session.files.isRegularFile path = false) :
      Refused session (.scanFile slot path) session.files (.failed (.notAFile path))
  | unread {slot : Slot} {path : Path} (faulty : session.files.node? path = some .faulty) :
      Refused session (.scanFile slot path) session.files (.failed (.fileRead path .inputOutput))
  | unwritten {slot : Slot} {path : Path} (lacking : (session.table slot).isComplete = false) :
      Refused session (.writeTo slot path) session.files (.failed (.incompleteKeys (session.table slot).names))
  | noDirectory {slot : Slot} {path parent : Path} {text : Text} {cause : IoError} {files : FileSystem}
      (rendered : (session.table slot).render = .ok text) (above : path.parent? = some parent)
      (failed : session.files.makeDirectories parent = (files, .error cause)) :
      Refused session (.writeTo slot path) files (.failed (.directoryCreate parent cause))
  | noFile {slot : Slot} {path : Path} {text : Text} {cause : IoError} {files : FileSystem}
      (rendered : (session.table slot).render = .ok text) (prepared : session.files.prepare path = (files, .ok ()))
      (failed : files.writeFile path (Utf8.encode text) = .error cause) :
      Refused session (.writeTo slot path) files (.failed (.fileWrite path cause))

theorem parse_eq_error_iff {name : Text} {error : UnknownKeyName} :
    KeyName.parse name = .error error ↔ (∀ key : KeyName, key.identifier ≠ name) ∧ error = ⟨name⟩ := by
  unfold KeyName.parse
  cases found : KeyName.ofIdentifier? name with
  | some key =>
    have known : ¬ ∀ key : KeyName, key.identifier ≠ name :=
      fun unknown => unknown key (KeyName.identifier_of_ofIdentifier? found)
    simp [known]
  | none =>
    have unknown : ∀ key : KeyName, key.identifier ≠ name := by
      rintro key rfl
      rw [KeyName.ofIdentifier?_identifier] at found
      cases found
    simp [unknown, eq_comm]

/-- A refused step changes nothing but what it leaves of the files. -/
theorem Refused.step_eq {session : Session} {step : Step} {files : FileSystem} {answer : Answer}
    (refused : Refused session step files answer) : session.step step = ({ session with files }, answer) := by
  cases refused with
  | unknownInsertion unknown | unknownLookup unknown => simp [Session.step, parse_eq_error_iff.mpr ⟨unknown, rfl⟩]
  | unrendered lacking => simp [Session.step, KeyTable.render_eq_error_iff.mpr ⟨lacking, rfl⟩]
  | irregular irregular =>
    have failed := FileSystem.readHeader_eq_error_iff.mpr (.inl ⟨irregular, rfl⟩)
    simp [Session.step, FileSystem.scanFile_eq_error_iff.mpr failed]
  | unread faulty =>
    have failed := FileSystem.readHeader_eq_error_iff.mpr (.inr ⟨faulty, rfl⟩)
    simp [Session.step, FileSystem.scanFile_eq_error_iff.mpr failed]
  | unwritten lacking => simp [Session.step, FileSystem.writeClass_eq_error_iff.mpr (.inl ⟨lacking, rfl, rfl⟩)]
  | noDirectory rendered above failed =>
    have written := FileSystem.writeClass_eq_error_iff.mpr
      (.inr ⟨_, rendered, FileSystem.store_eq_error_iff.mpr (.inl ⟨_, _, above, failed, rfl⟩)⟩)
    simp [Session.step, written]
  | noFile rendered prepared failed =>
    have written := FileSystem.writeClass_eq_error_iff.mpr
      (.inr ⟨_, rendered, FileSystem.store_eq_error_iff.mpr (.inr ⟨_, prepared, failed, rfl⟩)⟩)
    simp [Session.step, written]

theorem refused_of_isError {session : Session} {step : Step} (error : (session.step step).2.isError = true) :
    Refused session step (session.step step).1.files (session.step step).2 := by
  cases step with
  | insert slot name declaration =>
    cases parsed : KeyName.parse name with
    | ok key => simp [Session.step, parsed, Answer.isError] at error
    | error fault =>
      obtain ⟨unknown, rfl⟩ := parse_eq_error_iff.mp parsed
      simp only [Session.step, parsed]
      exact .unknownInsertion unknown
  | get slot name =>
    cases parsed : KeyName.parse name with
    | ok key => simp [Session.step, parsed, Answer.isError] at error
    | error fault =>
      obtain ⟨unknown, rfl⟩ := parse_eq_error_iff.mp parsed
      simp only [Session.step, parsed]
      exact .unknownLookup unknown
  | render slot =>
    cases rendered : (session.table slot).render with
    | ok text => simp [Session.step, rendered, Answer.isError] at error
    | error incomplete =>
      obtain ⟨lacking, rfl⟩ := KeyTable.render_eq_error_iff.mp rendered
      simp only [Session.step, rendered]
      exact .unrendered lacking
  | scanFile slot path =>
    cases scanned : session.files.scanFile path (session.table slot) with
    | ok result => simp [Session.step, scanned, Answer.isError] at error
    | error failure =>
      simp only [Session.step, scanned]
      obtain ⟨irregular, rfl⟩ | ⟨faulty, rfl⟩ :=
        FileSystem.readHeader_eq_error_iff.mp (FileSystem.scanFile_eq_error_iff.mp scanned)
      · exact .irregular irregular
      · exact .unread faulty
  | writeTo slot path =>
    rcases written : session.files.writeClass path (session.table slot) with ⟨files, failure | _⟩
    · simp only [Session.step, written]
      obtain ⟨lacking, rfl, rfl⟩ | ⟨text, rendered, stored⟩ := FileSystem.writeClass_eq_error_iff.mp written
      · exact .unwritten lacking
      · obtain ⟨parent, cause, above, failed, rfl⟩ | ⟨cause, prepared, failed, rfl⟩ :=
          FileSystem.store_eq_error_iff.mp stored
        · exact .noDirectory rendered above failed
        · exact .noFile rendered prepared failed
    · simp [Session.step, written, Answer.isError] at error
  | info | dump | clear | copy | compare | feed | finish | scan | tree => cases error

theorem Refused.files_eq {session : Session} {step : Step} {files : FileSystem} {answer : Answer}
    (refused : Refused session step files answer) : files = session.files ∨ ∃ path cause,
      answer = .failed (.directoryCreate path cause) ∨ answer = .failed (.fileWrite path cause) := by
  cases refused with
  | noDirectory => exact .inr ⟨_, _, .inl rfl⟩
  | noFile => exact .inr ⟨_, _, .inr rfl⟩
  | unknownInsertion | unknownLookup | unrendered | irregular | unread | unwritten => exact .inl rfl

theorem scanFile_step (session : Session) (slot : Slot) (path : Path) :
    let scanned := session.step (.scanFile slot path)
    (scanned.2.isError = true ∧ scanned.1 = session) ∨
      ∃ content, session.files.node? path = some (.file content) ∧
        let result := scanText (Utf8.decode content) (session.table slot)
        scanned = (session.setTable slot result.2, .scanned result.1 result.2.names) := by
  cases tried : session.files.scanFile path (session.table slot) with
  | error failure => exact .inl (by simp [Session.step, tried, Answer.isError])
  | ok result =>
    obtain ⟨content, read, rfl⟩ := FileSystem.scanFile_eq_ok_iff.mp tried
    exact .inr ⟨content, FileSystem.readHeader_eq_ok_iff.mp read, by simp [Session.step, tried]⟩

/-- Whatever a session has been through, a step that answers with an error leaves tables and scanner as
they were, and all files unless directories were being made or a file written. Scanning a file changes
no file, and a table only if the file can be read; then it is scanning its text. -/
theorem failing_steps_keep_memory (session : Session) :
    (∀ step, (session.step step).2.isError = true →
      let next := (session.step step).1
      let answer := (session.step step).2
      next.tables = session.tables ∧ next.scanner = session.scanner ∧
        Refused session step next.files answer ∧
        (next.files = session.files ∨ ∃ path cause,
          answer = .failed (.directoryCreate path cause) ∨ answer = .failed (.fileWrite path cause))) ∧
    ∀ slot path,
      let scanned := session.step (.scanFile slot path)
      scanned.1.files = session.files ∧
        ((scanned.2.isError = true ∧ scanned.1 = session) ∨
          ∃ content, session.files.node? path = some (.file content) ∧
            let result := scanText (Utf8.decode content) (session.table slot)
            scanned = (session.setTable slot result.2, .scanned result.1 result.2.names)) := by
  constructor
  · intro step error next answer
    have refused : Refused session step next.files answer := refused_of_isError error
    have kept : next = { session with files := next.files } := congrArg Prod.fst refused.step_eq
    have tables : next.tables = session.tables := by rw [kept]
    have scanner : next.scanner = session.scanner := by rw [kept]
    exact ⟨tables, scanner, refused, refused.files_eq⟩
  · intro slot path scanned
    have ways := session.scanFile_step slot path
    refine ⟨?_, ways⟩
    rcases ways with ⟨_, same⟩ | ⟨_, _, same⟩
    · exact congrArg Session.files same
    · exact congrArg (fun stepped => stepped.1.files) same

/-- An array is open and one key is there when steps fail; a complete table is written to a path that
ends in a slash, which makes a directory and no file. -/
theorem failing_steps_keep_memory_in_mid_capture :
    let name (text : String) : Path := Path.ofText text.toList
    let slot (n : Fin 3) : Slot := n
    let files := FileSystem.fresh.layOut [.directory (name "d"), .link (name "l") (name "d")]
    let session := (start files).after [
      .feed (slot 0) "uint32_t in_key_p".toList, .feed (slot 0) "0x1".toList,
      .insert (slot 0) "out_key_s".toList "x".toList]
    let complete := session.after [.scan (slot 1) ("uint32_t out_key_p\n\x7d;\nuint32_t out_key_s\n\x7d;\n" ++
      "uint32_t in_key_p\n\x7d;\nuint32_t in_key_s\n\x7d;").toList]
    let write : Step := .writeTo (slot 1) (name "new/file/")
    (∀ step ∈ [Step.insert (slot 0) "no_key".toList [], .get (slot 0) [], .render (slot 0), .writeTo (slot 0) (name "d/k"),
        .scanFile (slot 0) (name "l"), .scanFile (slot 0) (name "/proc/self/mem")],
      (session.step step).2.isError = true ∧ (session.step step).1 = session) ∧
    (complete.step write).2 = .failed (.fileWrite (name "new/file/") .isADirectory) ∧
      (complete.step write).1.tables = complete.tables ∧ (complete.step write).1.scanner = complete.scanner ∧
      (complete.step write).1.files ≠ complete.files := by
  intro name slot files session complete write
  have refused : ∀ step ∈ [Step.insert (slot 0) "no_key".toList [], .get (slot 0) [], .render (slot 0),
      .writeTo (slot 0) (name "d/k"), .scanFile (slot 0) (name "l"), .scanFile (slot 0) (name "/proc/self/mem")],
      (session.step step).2.isError = true ∧ (session.step step).1.files = session.files := by decide +kernel
  have failed : (complete.step write).2 = .failed (.fileWrite (name "new/file/") .isADirectory) := by decide +kernel
  obtain ⟨tables, scanner, _⟩ := (failing_steps_keep_memory complete).1 write (congrArg Answer.isError failed)
  refine ⟨fun step member => ?_, failed, tables, scanner, by decide +kernel⟩
  obtain ⟨error, files⟩ := refused step member
  obtain ⟨tables, scanner, _⟩ := (failing_steps_keep_memory session).1 step error
  exact ⟨error, by rw [Session.mk.injEq]; exact ⟨tables, scanner, files⟩⟩

end HeaderKeys.Session
