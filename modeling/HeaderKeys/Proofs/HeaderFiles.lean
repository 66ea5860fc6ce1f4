import HeaderKeys.Extraction

/-! When a header can be read: exactly if its path leads to a regular file whose content can
be read, and then scanning it is scanning the text of that content. There are two failures: the
path leads to no regular file, or to one whose content cannot be had. -/

namespace HeaderKeys.FileSystem

variable {fs : FileSystem} {path : Path}

theorem readHeader_eq_ok_iff {content : Bytes} :
    fs.readHeader path = .ok content ↔ fs.node? path = some (.file content) := by
  unfold readHeader isRegularFile node? read
  cases fs.locate .existing path with
  | error e => simp
  | ok place => cases found : fs.nodeAt place with
    | none => simp [found]
    | some node => cases node <;> simp [found, Node.isRegular]

theorem readHeader_eq_error_iff {failure : Failure} :
    fs.readHeader path = .error failure ↔
      fs.isRegularFile path = false ∧ failure = .notAFile path ∨
      fs.node? path = some .faulty ∧ failure = .fileRead path .inputOutput := by
  unfold readHeader isRegularFile node? read
  cases fs.locate .existing path with
  | error e => simp [eq_comm]
  | ok place => cases found : fs.nodeAt place with
    | none => simp [found, eq_comm]
    | some node => cases node <;> simp [found, Node.isRegular, eq_comm]

theorem scanFile_eq_ok_iff {table : KeyTable} {result : ScanReport × KeyTable} :
    fs.scanFile path table = .ok result ↔
      ∃ content, fs.readHeader path = .ok content ∧ scanText (Utf8.decode content) table = result := by
  unfold scanFile
  cases fs.readHeader path with
  | error failure => simp [Except.map]
  | ok content => simp [Except.map]

theorem scanFile_eq_error_iff {table : KeyTable} {failure : Failure} :
    fs.scanFile path table = .error failure ↔ fs.readHeader path = .error failure := by
  unfold scanFile
  cases fs.readHeader path with
  | error failure => simp [Except.map]
  | ok content => simp [Except.map]

end HeaderKeys.FileSystem
