import HeaderKeys.FileSystem.Layout
import HeaderKeys.Proofs.AsciiBytes
import HeaderKeys.Proofs.HeaderFiles
import HeaderKeys.Proofs.LeadingWords
import HeaderKeys.Proofs.ScannerRuns
import Mathlib.Data.List.Forall2

/-! A scanner that never reads its lines as text. It looks for the words of ASCII in the raw
lines of a file and keeps raw blocks, and it finds, closes and drops the same arrays as the
scanner of the text, whatever bytes the file consists of. So damage moves, hides and forges
nothing, and bytes that are not ASCII matter only where they stand in a closed block. -/

namespace HeaderKeys

section Tokens

def KeyName.openingBytes (key : KeyName) : Bytes := Utf8.encode key.opening

def closingBytes : Bytes := [0x7D, 0x3B]

theorem openingBytes_ascii (key : KeyName) : ∀ b ∈ key.openingBytes, b < 0x80 := by cases key <;> decide +kernel

theorem decode_openingBytes (key : KeyName) : Utf8.decode key.openingBytes = key.opening := by cases key <;> decide +kernel

theorem distinct_openingBytes : Distinct KeyName.openingBytes where
  nonempty key := by cases key <;> decide
  apart key other := by cases key <;> cases other <;> decide

theorem closingBytes_ascii : ∀ b ∈ closingBytes, b < 0x80 := by decide +kernel

variable {line : Bytes} {key : KeyName}

theorem closes_decode_iff : closes (Utf8.decode line) = true ↔ closingBytes <:+: line := by
  rw [closes_iff, show closingMark = Utf8.decode closingBytes by decide]
  exact Utf8.infix_decode_iff closingBytes_ascii (by decide)

theorem closes_decode : closes (Utf8.decode line) = occurs closingBytes line := by
  rw [Bool.eq_iff_iff, closes_decode_iff, occurs_iff_contained]

theorem decode_around_opening (key : KeyName) (front back : Bytes) :
    Utf8.decode (front ++ key.openingBytes ++ back) = Utf8.decode front ++ key.opening ++ Utf8.decode back := by
  rw [Utf8.decode_around (openingBytes_ascii key) (distinct_openingBytes.nonempty key), decode_openingBytes]

theorem exists_opening_of_decode {before after : Text} (same : Utf8.decode line = before ++ key.opening ++ after) :
    ∃ front back, line = front ++ key.openingBytes ++ back ∧ Utf8.decode front = before ∧ Utf8.decode back = after := by
  rw [← decode_openingBytes] at same
  exact Utf8.exists_of_decode_eq (openingBytes_ascii key) (distinct_openingBytes.nonempty key) same

/-- Two declarations of a line stand in the same order in its text. -/
theorem length_decode_le_iff {other : KeyName} {front back front' back' : Bytes}
    (same : front ++ key.openingBytes ++ back = front' ++ other.openingBytes ++ back') :
    (Utf8.decode front).length ≤ (Utf8.decode front').length ↔ front.length ≤ front'.length := by
  have later (key : KeyName) {front back front' rest : Bytes} (same : front ++ key.openingBytes ++ back = front' ++ rest)
      (shorter : front.length < front'.length) : (Utf8.decode front).length < (Utf8.decode front').length :=
    Utf8.length_decode_lt (openingBytes_ascii key) (distinct_openingBytes.nonempty key) same shorter
  constructor
  · intro least
    apply Nat.le_of_not_lt
    intro shorter
    have := later other (same.symm.trans (List.append_assoc _ _ _)) shorter
    omega
  · intro least
    rcases Nat.lt_or_eq_of_le least with shorter | equal
    · exact Nat.le_of_lt (later key (same.trans (List.append_assoc _ _ _)) shorter)
    · rw [List.append_assoc, List.append_assoc] at same
      obtain ⟨rfl, _⟩ := List.append_inj same equal
      exact Nat.le_refl _

theorem comesFirst_decode_iff : ComesFirst KeyName.opening (Utf8.decode line) key ↔ ComesFirst KeyName.openingBytes line key := by
  constructor
  · rintro ⟨before, after, same, first⟩
    obtain ⟨front, back, rfl, rfl, rfl⟩ := exists_opening_of_decode same
    refine ⟨front, back, rfl, fun other front' back' same' => ?_⟩
    have read := (congrArg Utf8.decode same').trans (decode_around_opening other front' back')
    exact (length_decode_le_iff same').mp (first other _ _ read)
  · rintro ⟨front, back, rfl, first⟩
    refine ⟨_, _, decode_around_opening key front back, fun other before' after' same' => ?_⟩
    obtain ⟨front', back', same, rfl, rfl⟩ := exists_opening_of_decode same'
    exact (length_decode_le_iff same).mpr (first other front' back' same)

/-- Reading damaged bytes as text keeps every declaration in its place, and adds none. -/
theorem declaredKey?_decode : declaredKey? (Utf8.decode line) = leading? KeyName.openingBytes line := by
  apply Option.ext
  intro key
  rw [declaredKey?_eq_leading?, leading?_eq_some_iff distinct_opening, leading?_eq_some_iff distinct_openingBytes,
    comesFirst_decode_iff]

end Tokens

/-- What a scanner of raw lines knows: the open array with its bytes, and the closed ones. -/
structure ByteScanner where
  open? : Option (KeyName × Bytes) := none
  closed : List (KeyName × Bytes) := []
deriving DecidableEq, Repr

namespace ByteScanner

def feed (scanner : ByteScanner) (line : Bytes) : ByteScanner :=
  match scanner.open? with
  | none => { scanner with open? := (leading? KeyName.openingBytes line).map fun key => (key, []) }
  | some (key, block) =>
    if occurs closingBytes line then ⟨none, scanner.closed ++ [(key, block)]⟩
    else { scanner with open? := some (key, block ++ line) }

def scan (content : Bytes) : ByteScanner := (splitAfter 0x0A content).foldl feed {}

def report (scanner : ByteScanner) : ScanReport := ⟨scanner.closed.map (·.1), scanner.open?.map (·.1)⟩

/-- The table with the constants of the closed blocks. Only here bytes are read as text. -/
def store (scanner : ByteScanner) (table : KeyTable) : KeyTable :=
  scanner.closed.foldl (fun table array => table.insert array.1 (declaration array.1 (suffixLiterals (Utf8.decode array.2)))) table

/-- The scanner that reads the same lines as text. -/
def text (scanner : ByteScanner) : Scanner where
  state := match scanner.open? with
    | none => .idle
    | some (key, block) => .capturing key (Utf8.decode block)
  found := scanner.closed.map (·.1)

theorem finish_text (scanner : ByteScanner) : scanner.text.finish = scanner.report := by
  obtain ⟨open?, closed⟩ := scanner
  cases open? <;> rfl

/-- The open block ends with a line break, so reading goes on behind it as if it began there. -/
def Broken (scanner : ByteScanner) : Prop := ∀ array ∈ scanner.open?, EndsIn 0x0A array.2

theorem broken_feed {scanner : ByteScanner} (broken : scanner.Broken) {line : Bytes} (ends : EndsIn 0x0A line) :
    (scanner.feed line).Broken := by
  obtain ⟨open?, closed⟩ := scanner
  cases open? with
  | none =>
    intro array opened
    obtain ⟨key, _, rfl⟩ := Option.map_eq_some_iff.mp opened
    exact endsIn_nil
  | some held =>
    intro array opened
    simp only [feed] at opened
    split at opened
    · cases opened
    · cases opened
      exact (broken held rfl).append ends

theorem feed_text {scanner : ByteScanner} (broken : scanner.Broken) (line : Bytes) (table : KeyTable) :
    (scanner.text.feed (Utf8.decode line)).1 = (scanner.feed line).text ∧
      (scanner.store table).recordAll (scanner.text.feed (Utf8.decode line)).2.toList = (scanner.feed line).store table := by
  obtain ⟨open?, closed⟩ := scanner
  cases open? with
  | none =>
    cases declared : leading? KeyName.openingBytes line with
    | none =>
      simp only [text, Scanner.feed, feed, declaredKey?_decode, declared]
      exact ⟨rfl, rfl⟩
    | some key =>
      simp only [text, Scanner.feed, feed, declaredKey?_decode, declared]
      exact ⟨rfl, rfl⟩
  | some array =>
    obtain ⟨key, block⟩ := array
    have joined := Utf8.decode_append (broken (key, block) rfl) line
    cases marked : occurs closingBytes line with
    | true => simp [text, Scanner.feed, feed, closes_decode, marked, store, KeyTable.recordAll, KeyTable.record]
    | false => simp [text, Scanner.feed, feed, closes_decode, marked, store, joined, KeyTable.recordAll]

theorem feedAll_text {scanner : ByteScanner} (broken : scanner.Broken) {lines : List Bytes}
    (ends : ∀ line ∈ lines.dropLast, EndsIn 0x0A line) (table : KeyTable) :
    (scanner.text.feedAll (lines.map Utf8.decode)).1 = (lines.foldl feed scanner).text ∧
      (scanner.store table).recordAll (scanner.text.feedAll (lines.map Utf8.decode)).2 = (lines.foldl feed scanner).store table := by
  induction lines generalizing scanner with
  | nil => exact ⟨rfl, rfl⟩
  | cons line lines ih =>
    obtain ⟨state, stored⟩ := feed_text broken line table
    rw [List.map_cons, Scanner.feedAll, List.foldl_cons, KeyTable.recordAll_append, stored, state]
    cases lines with
    | nil => exact ⟨rfl, rfl⟩ -- The last line may lack its line break, but nothing is read behind it.
    | cons next lines =>
      have first : EndsIn 0x0A line := ends line (by simp)
      exact ih (broken_feed broken first) fun other member => ends other (by simp [member])

theorem scanText_decode (content : Bytes) (table : KeyTable) :
    scanText (Utf8.decode content) table = ((scan content).report, (scan content).store table) := by
  have fresh : Broken {} := by simp [Broken]
  obtain ⟨state, stored⟩ := feedAll_text fresh (endsIn_of_mem_dropLast content) table
  rw [← Utf8.lines_decode] at state stored
  rw [scanText, HeaderKeys.report, findings]
  exact Prod.ext ((congrArg Scanner.finish state).trans (finish_text _)) stored

end ByteScanner

/-- Two bytes that no word of ASCII tells apart. -/
def Alike (a b : UInt8) : Prop := a = b ∨ 0x80 ≤ a ∧ 0x80 ≤ b

instance (a b : UInt8) : Decidable (Alike a b) := by
  unfold Alike
  infer_instance

section Alike

theorem Alike.beq_eq {a b : UInt8} (alike : Alike a b) {c : UInt8} (ascii : c < 0x80) : (c == a) = (c == b) := by
  rcases alike with rfl | ⟨first, second⟩
  · rfl
  · have apart {d : UInt8} (high : 0x80 ≤ d) : (c == d) = false := by
      apply beq_eq_false_iff_ne.mpr
      rintro rfl
      exact absurd high (UInt8.not_le.mpr ascii)
    rw [apart first, apart second]

variable {line line' : Bytes} (alike : List.Forall₂ Alike line line')
include alike

theorem isPrefixOf_alike {word : Bytes} (ascii : ∀ b ∈ word, b < 0x80) : word.isPrefixOf line = word.isPrefixOf line' := by
  induction word generalizing line line' with
  | nil => simp
  | cons b word ih =>
    cases alike with
    | nil => rfl
    | cons first rest =>
      rw [List.isPrefixOf_cons_cons, List.isPrefixOf_cons_cons, first.beq_eq (ascii b (by simp)),
        ih rest fun c member => ascii c (by simp [member])]

theorem occurs_alike {word : Bytes} (ascii : ∀ b ∈ word, b < 0x80) : occurs word line = occurs word line' := by
  induction alike with
  | nil => rfl
  | cons first rest ih => rw [occurs, occurs, ih, isPrefixOf_alike (.cons first rest) ascii]

theorem leading?_alike {word : KeyName → Bytes} (ascii : ∀ key, ∀ b ∈ word key, b < 0x80) :
    leading? word line = leading? word line' := by
  induction alike with
  | nil => rfl
  | cons first rest ih =>
    have here (key : KeyName) := isPrefixOf_alike (.cons first rest) (ascii key)
    simp only [leading?, ih, here]

theorem splitAfter_alike : List.Forall₂ (List.Forall₂ Alike) (splitAfter 0x0A line) (splitAfter 0x0A line') := by
  induction alike with
  | nil => exact .nil
  | @cons a b rest rest' first later ih =>
    have same : (a == 0x0A) = (b == 0x0A) := by
      rw [Bool.beq_comm, first.beq_eq (by decide), Bool.beq_comm]
    simp only [splitAfter, same]
    split
    · exact .cons (.cons first .nil) ih
    · generalize splitAfter 0x0A rest = pieces, splitAfter 0x0A rest' = pieces' at ih ⊢
      cases ih with
      | nil => exact .cons (.cons first .nil) .nil
      | cons piece pieces => exact .cons (.cons first piece) pieces

end Alike

namespace ByteScanner

/-- Whether the line at `i` belongs to the block of an array that is closed behind it. -/
def inBlock (scanner : ByteScanner) (lines : List Bytes) (i : Nat) : Bool :=
  ((lines.take i).foldl feed scanner).open?.isSome && lines[i]?.any (fun line => !occurs closingBytes line) &&
    (lines.drop (i + 1)).any (occurs closingBytes)

/-- What scanners of alike lines have in common while `lines` are still to come. Their open blocks
differ only if nothing closes them. -/
structure Agrees (lines : List Bytes) (a b : ByteScanner) : Prop where
  closed : a.closed = b.closed
  key : a.open?.map (·.1) = b.open?.map (·.1)
  block : lines.any (occurs closingBytes) = true → a.open? = b.open?

variable {a b : ByteScanner} {line line' : Bytes} {lines lines' : List Bytes}

theorem agrees_feed (agree : Agrees (line :: lines) a b) (alike : List.Forall₂ Alike line line')
    (kept : a.inBlock (line :: lines) 0 = true → line' = line) : Agrees lines (a.feed line) (b.feed line') := by
  obtain ⟨open?, closed⟩ := a
  obtain ⟨open?', closed'⟩ := b
  obtain ⟨same, key, block⟩ := agree
  obtain rfl : closed = closed' := same
  have marked := occurs_alike alike closingBytes_ascii
  cases open? with
  | none =>
    obtain rfl : open?' = none := by simpa using key.symm
    have declared := leading?_alike alike openingBytes_ascii
    simp only [feed, declared]
    exact ⟨rfl, rfl, fun _ => rfl⟩
  | some array =>
    obtain ⟨array', rfl, sameKey⟩ := Option.map_eq_some_iff.mp key.symm
    obtain ⟨name, bytes⟩ := array
    obtain ⟨name', bytes'⟩ := array'
    obtain rfl : name' = name := sameKey
    have whole (closing : (line :: lines).any (occurs closingBytes) = true) : bytes = bytes' := by simpa using block closing
    cases closes : occurs closingBytes line with
    | true =>
      rw [whole (by simp [closes])]
      simp only [feed, ← marked, closes, if_true]
      exact ⟨rfl, rfl, fun _ => rfl⟩
    | false =>
      simp only [feed, ← marked, closes, if_false, Bool.false_eq_true]
      refine ⟨rfl, rfl, fun later => ?_⟩
      have inside : line' = line := kept (by simpa [inBlock, closes] using later)
      rw [whole (by rw [List.any_cons, later, Bool.or_true]), inside]

theorem agrees_foldl (alike : List.Forall₂ (List.Forall₂ Alike) lines lines') (agree : Agrees lines a b)
    (kept : ∀ i < lines.length, a.inBlock lines i = true → lines'[i]? = lines[i]?) :
    Agrees [] (lines.foldl feed a) (lines'.foldl feed b) := by
  induction alike generalizing a b with
  | nil => exact agree
  | @cons line line' lines lines' first rest ih =>
    have here (inside : a.inBlock (line :: lines) 0 = true) : line' = line := by
      simpa using kept 0 (by simp) inside
    have behind (i : Nat) (bound : i < lines.length) (inside : (a.feed line).inBlock lines i = true) :
        lines'[i]? = lines[i]? := by
      have inside' : a.inBlock (line :: lines) (i + 1) = true := by simpa [inBlock] using inside
      simpa using kept (i + 1) (by simpa using bound) inside'
    exact ih (agrees_feed agree first here) behind

theorem scanText_alike {content content' : Bytes} (alike : List.Forall₂ Alike content content')
    (kept : ∀ i < (splitAfter 0x0A content).length, inBlock {} (splitAfter 0x0A content) i = true →
      (splitAfter 0x0A content')[i]? = (splitAfter 0x0A content)[i]?) (table : KeyTable) :
    scanText (Utf8.decode content') table = scanText (Utf8.decode content) table := by
  have agree := agrees_foldl (splitAfter_alike alike) (⟨rfl, rfl, fun _ => rfl⟩ : Agrees _ {} {}) kept
  obtain ⟨closed, key, _⟩ : Agrees [] (scan content) (scan content') := agree
  rw [scanText_decode, scanText_decode, report, report, store, store, closed, key]

end ByteScanner

/-- Whatever bytes a file consists of, its lines are read one by one, each mark and each declaration
of the text stands in the bytes and the other way round, and a scan finds what a scanner of the raw lines
finds. Outside the blocks of closed arrays one byte above 0x7F is as good as another. -/
theorem invalid_bytes_keep_tokens (fs : FileSystem) (path : Path) (content : Bytes)
    (held : fs.node? path = some (.file content)) (table : KeyTable) :
    let lines := splitAfter 0x0A content
    (Utf8.decode content).lines = lines.map Utf8.decode ∧
    (∀ line : Bytes, (closes (Utf8.decode line) = true ↔ closingBytes <:+: line) ∧
      (∀ key, declaredKey? (Utf8.decode line) = some key ↔ ComesFirst KeyName.openingBytes line key) ∧
      (declaredKey? (Utf8.decode line) = none ↔ ∀ key, ¬ KeyName.openingBytes key <:+: line)) ∧
    fs.scanFile path table = .ok ((ByteScanner.scan content).report, (ByteScanner.scan content).store table) ∧
    ∀ (fs' : FileSystem) (path' : Path) (content' : Bytes), fs'.node? path' = some (.file content') →
      List.Forall₂ Alike content content' →
      (∀ i < lines.length, ByteScanner.inBlock {} lines i = true → (splitAfter 0x0A content')[i]? = lines[i]?) →
      fs'.scanFile path' table = fs.scanFile path table := by
  intro lines
  have scanned {fs : FileSystem} {path : Path} {content : Bytes} (held : fs.node? path = some (.file content)) :
      fs.scanFile path table = .ok (scanText (Utf8.decode content) table) :=
    FileSystem.scanFile_eq_ok_iff.mpr ⟨content, FileSystem.readHeader_eq_ok_iff.mpr held, rfl⟩
  refine ⟨Utf8.lines_decode content, fun line => ⟨closes_decode_iff, fun key => ?_, ?_⟩, ?_,
    fun fs' path' content' held' alike kept => ?_⟩
  · rw [declaredKey?_decode, leading?_eq_some_iff distinct_openingBytes]
  · rw [declaredKey?_decode, leading?_eq_none_iff distinct_openingBytes]
  · rw [scanned held, ByteScanner.scanText_decode]
  · rw [scanned held, scanned held', ByteScanner.scanText_alike alike kept]

/-- Sequences break off before a declaration, before a mark, before a line break and at the end. In the other
file all of them are others but the one in the block. -/
theorem invalid_bytes_keep_tokens_where_sequences_break_off :
    let word (text : String) : Bytes := Utf8.encode text.toList
    let header (a b c d : UInt8) : Bytes :=
      [a, b] ++ word "uint32_t out_key_p // " ++ [c] ++ word "\n0xDEADBEEF " ++ [0xF0, 0x9F] ++ word "\n" ++ [d] ++
        word "\x7d;\n" ++ [c, d] ++ word "uint32_t in_key_s\n" ++ [a]
    let content := header 0xE2 0x82 0xE9 0xC3
    let content' := header 0xC0 0xFF 0x80 0xF4
    let fs := FileSystem.fresh.layOut [.file (word "a.h") content, .file (word "b.h") content']
    let found : Except Failure (ScanReport × KeyTable) := .ok (⟨[.outKeyP], some .inKeyS⟩,
      KeyTable.empty.insert .outKeyP "public static final long[] out_key_p = \x7b\n0xDEADBEEFL \uFFFD\n\t\x7d;".toList)
    fs.node? (word "a.h") = some (.file content) ∧ content ≠ content' ∧
      fs.scanFile (word "a.h") .empty = found ∧ fs.scanFile (word "b.h") .empty = found := by
  intro word header content content' fs found
  have held : fs.node? (word "a.h") = some (.file content) := by decide +kernel
  have held' : fs.node? (word "b.h") = some (.file content') := by decide +kernel
  have alike : List.Forall₂ Alike content content' := by decide +kernel
  obtain ⟨_, _, scanned, alone⟩ := invalid_bytes_keep_tokens fs (word "a.h") content held .empty
  have same : fs.scanFile (word "a.h") .empty = found := by
    rw [scanned]
    decide +kernel
  refine ⟨held, by decide +kernel, same, ?_⟩
  rw [alone fs (word "b.h") content' held' alike (by decide +kernel), same]

end HeaderKeys
