import HeaderKeys.Proofs.Insertions
import HeaderKeys.Proofs.WholeWords

/-! Headers with carriage returns. One before every line break changes no line but at its end, and neither a
declaration nor a closing mark reaches there; nor does a literal, since a return ends a word as the break does. So both
headers take the scanner through the same states, and what is stored differs by the returns of the blocks alone. -/

namespace HeaderKeys

open Literal

/-- A carriage return before every line break, also before one that has a return already. -/
def Text.withReturns (text : Text) : Text := text.flatMap fun c => if c = '\n' then ['\r', '\n'] else [c]

/-- A change to lines that the scanner takes no notice of. It may be made before or after lines are joined. -/
structure Unnoticed (change : Text → Text) : Prop where
  nil : change [] = []
  append : ∀ a b, change (a ++ b) = change a ++ change b
  closes : ∀ line, closes (change line) = closes line
  declares : ∀ line, declaredKey? (change line) = declaredKey? line

/-- The key and the rewritten block that a finding stores. -/
def Finding.rewritten? : Finding → Option (KeyName × Text)
  | .opened _ => none
  | .closed key block => some (key, suffixLiterals block)

/-- The rewritten blocks that scanning a text stores, in order. -/
def rewrittenBlocks (text : Text) : List (KeyName × Text) := (findings text).filterMap Finding.rewritten?

section Change

variable (change : Text → Text)

def ScanState.mapBlock : ScanState → ScanState
  | .idle => .idle
  | .capturing key block => .capturing key (change block)

def Finding.mapBlock : Finding → Finding
  | .opened key => .opened key
  | .closed key block => .closed key (change block)

def Scanner.mapBlock (scanner : Scanner) : Scanner := { scanner with state := scanner.state.mapBlock change }

theorem Scanner.finish_mapBlock (scanner : Scanner) : (scanner.mapBlock change).finish = scanner.finish := by
  obtain ⟨state, found⟩ := scanner
  cases state <;> rfl

variable {change} (unnoticed : Unnoticed change)
include unnoticed

namespace Scanner

theorem feed_mapBlock (scanner : Scanner) (line : Text) :
    (scanner.mapBlock change).feed (change line) =
      ((scanner.feed line).1.mapBlock change, (scanner.feed line).2.map (Finding.mapBlock change)) := by
  obtain ⟨state, found⟩ := scanner
  cases state with
  | idle =>
    simp only [mapBlock, ScanState.mapBlock, feed, unnoticed.declares]
    cases declaredKey? line with
    | none => rfl
    | some key => simp [Finding.mapBlock, unnoticed.nil]
  | capturing key block =>
    simp only [mapBlock, ScanState.mapBlock, feed, unnoticed.closes]
    split
    · rfl
    · simp [unnoticed.append]

theorem feedAll_mapBlock (scanner : Scanner) (lines : List Text) :
    (scanner.mapBlock change).feedAll (lines.map change) =
      ((scanner.feedAll lines).1.mapBlock change, (scanner.feedAll lines).2.map (Finding.mapBlock change)) := by
  induction lines generalizing scanner with
  | nil => rfl
  | cons line lines ih =>
    simp only [List.map_cons, feedAll, feed_mapBlock unnoticed, ih, List.map_append]
    cases (scanner.feed line).2 <;> rfl

end Scanner

/-- Two texts whose lines differ by such a change bring about the same, but for the blocks. -/
theorem scan_of_lines {a b : Text} (lines : b.lines = a.lines.map change) :
    report b = report a ∧ findings b = (findings a).map (Finding.mapBlock change) := by
  have run := Scanner.feedAll_mapBlock unnoticed {} a.lines
  have start : Scanner.mapBlock change {} = {} := rfl
  rw [start, ← lines] at run
  constructor
  · rw [report, run, Scanner.finish_mapBlock, report]
  · rw [findings, run, findings]

end Change

namespace Text

theorem withReturns_append (a b : Text) : withReturns (a ++ b) = withReturns a ++ withReturns b := List.flatMap_append

@[simp] theorem withReturns_break (rest : Text) : withReturns ('\n' :: rest) = '\r' :: '\n' :: withReturns rest := rfl

@[simp] theorem withReturns_cons {c : Char} (other : c ≠ '\n') (rest : Text) :
    withReturns (c :: rest) = c :: withReturns rest := by
  simp [withReturns, other]

theorem lines_withReturns (text : Text) : text.withReturns.lines = text.lines.map withReturns := by
  unfold lines
  induction text with
  | nil => rfl
  | cons c rest ih =>
    by_cases stop : c = '\n'
    · subst stop
      have piece : withReturns ['\n'] = ['\r', '\n'] := rfl
      simp [splitAfter, ih, piece]
    · rw [withReturns_cons stop]
      simp only [splitAfter, beq_iff_eq, if_neg stop, ih]
      cases splitAfter '\n' rest <;> simp [withReturns, stop]

/-- What holds neither character of a break is found where it was. -/
theorem isPrefixOf_withReturns {word : Text} (plain : '\r' ∉ word ∧ '\n' ∉ word) (text : Text) :
    word.isPrefixOf text.withReturns = word.isPrefixOf text := by
  induction word generalizing text with
  | nil => rw [List.isPrefixOf_nil_left, List.isPrefixOf_nil_left]
  | cons c word ih =>
    obtain ⟨⟨noReturn, noReturns⟩, noBreak, noBreaks⟩ : (c ≠ '\r' ∧ '\r' ∉ word) ∧ c ≠ '\n' ∧ '\n' ∉ word := by
      simpa [eq_comm] using plain
    cases text with
    | nil => rfl
    | cons d rest =>
      by_cases stop : d = '\n'
      · subst stop
        have apart : (c == '\r') = false ∧ (c == '\n') = false := ⟨beq_false_of_ne noReturn, beq_false_of_ne noBreak⟩
        rw [withReturns_break, List.isPrefixOf_cons_cons, List.isPrefixOf_cons_cons, apart.1, apart.2, Bool.false_and,
          Bool.false_and]
      · rw [withReturns_cons stop, List.isPrefixOf_cons_cons, List.isPrefixOf_cons_cons, ih ⟨noReturns, noBreaks⟩]

theorem closes_withReturns (line : Text) : closes line.withReturns = closes line := by
  induction line with
  | nil => rfl
  | cons c rest ih =>
    by_cases stop : c = '\n'
    · subst stop
      simp [closes_cons, ih]
    · have here : closingMark.isPrefixOf (withReturns (c :: rest)) = closingMark.isPrefixOf (c :: rest) :=
        isPrefixOf_withReturns (by decide) _
      rw [withReturns_cons stop] at here ⊢
      simp only [closes, occurs, here] at ih ⊢
      rw [ih]

theorem openingKey?_withReturns (text : Text) : openingKey? text.withReturns = openingKey? text := by
  have plain (key : KeyName) : '\r' ∉ key.opening ∧ '\n' ∉ key.opening := by cases key <;> decide
  simp only [openingKey?, isPrefixOf_withReturns (plain _)]

theorem declaredKey?_withReturns (line : Text) : declaredKey? line.withReturns = declaredKey? line := by
  induction line with
  | nil => rfl
  | cons c rest ih =>
    have here := openingKey?_withReturns (c :: rest)
    by_cases stop : c = '\n'
    · subst stop
      have behind : openingKey? ('\n' :: withReturns rest) = none := rfl
      simp only [withReturns_break] at here ⊢
      simp only [declaredKey?, here, behind, ih, Option.none_or]
    · rw [withReturns_cons stop] at here ⊢
      rw [declaredKey?, declaredKey?, here, ih]

theorem unnoticed_withReturns : Unnoticed withReturns where
  nil := rfl
  append := withReturns_append
  closes := closes_withReturns
  declares := declaredKey?_withReturns

/-- A return ends a word as the break behind it does. -/
theorem suffixFrom_withReturns (progress : Progress) (text : Text) :
    suffixFrom progress text.withReturns = (suffixFrom progress text).withReturns := by
  have plain (progress : Progress) : progress.suffix.withReturns = progress.suffix := by
    unfold Progress.suffix
    split <;> rfl
  induction text generalizing progress with
  | nil => exact (plain progress).symm
  | cons c rest ih =>
    by_cases stop : c = '\n'
    · subst stop
      have spaces : isWordChar '\r' = false ∧ isWordChar '\n' = false := by decide
      calc suffixFrom progress (withReturns ('\n' :: rest))
        _ = progress.suffix ++ '\r' :: suffixLiterals ('\n' :: withReturns rest) := suffixFrom_cons_space spaces.1 ..
        _ = progress.suffix ++ '\r' :: '\n' :: suffixLiterals (withReturns rest) := by
          rw [suffixLiterals_cons_space spaces.2]
        _ = withReturns (progress.suffix ++ '\n' :: suffixLiterals rest) := by
          rw [withReturns_append, plain, withReturns_break, suffixLiterals, ih]
          rfl
        _ = withReturns (suffixFrom progress ('\n' :: rest)) := by rw [suffixFrom_cons_space spaces.2]
    · rw [withReturns_cons stop]
      simp only [suffixFrom]
      split
      · rw [ih, withReturns_cons stop]
      · rw [ih, withReturns_append, plain, withReturns_cons stop]

theorem suffixLiterals_withReturns (text : Text) : suffixLiterals text.withReturns = (suffixLiterals text).withReturns :=
  suffixFrom_withReturns .start text

end Text

theorem insertions_eq_rewrittenBlocks (text : Text) :
    insertions text = (rewrittenBlocks text).map fun stored => (stored.1, declaration stored.1 stored.2) := by
  rw [insertions, rewrittenBlocks, List.map_filterMap]
  congr 1
  funext finding
  cases finding <;> rfl

theorem rewrittenBlocks_withReturns (text : Text) :
    rewrittenBlocks text.withReturns = (rewrittenBlocks text).map fun stored => (stored.1, stored.2.withReturns) := by
  have brought := (scan_of_lines Text.unnoticed_withReturns (Text.lines_withReturns text)).2
  rw [rewrittenBlocks, brought, List.filterMap_map, rewrittenBlocks, List.map_filterMap]
  congr 1
  funext finding
  cases finding with
  | opened key => rfl
  | closed key block =>
    simp only [Function.comp_apply, Finding.mapBlock, Finding.rewritten?, Text.suffixLiterals_withReturns, Option.map_some]

/-- Whether a header has carriage returns is not told from its report. It stores the same constants in the same
order, each around the block of the other header with returns in it: the breaks of the template have none, and
the same literals have their suffixes. -/
theorem returns_change_only_blocks (text : Text) (table : KeyTable) :
    (scanText text.withReturns table).1 = (scanText text table).1 ∧
    insertions text = (rewrittenBlocks text).map (fun stored => (stored.1, declaration stored.1 stored.2)) ∧
    insertions text.withReturns =
      (rewrittenBlocks text).map (fun stored => (stored.1, declaration stored.1 stored.2.withReturns)) ∧
    (∀ other, (scanText other table).2 = table.insertAll (insertions other)) ∧
    ∀ block : Text, suffixLiterals block.withReturns = (suffixLiterals block).withReturns := by
  refine ⟨?_, insertions_eq_rewrittenBlocks text, ?_, fun other => table_scanText other table, Text.suffixLiterals_withReturns⟩
  · exact (scan_of_lines Text.unnoticed_withReturns (Text.lines_withReturns text)).1
  · rw [insertions_eq_rewrittenBlocks, rewrittenBlocks_withReturns, List.map_map]
    rfl

/-- A line that has a return already gets a second one, and a literal at the end of its line keeps its suffix. -/
example :
    insertions (Text.withReturns "uint32_t in_key_p[1] = \x7b\n\t0x33333333\n\t0x44444444,\r\n\x7d;\n".toList) =
      [(.inKeyP, "public static final long[] in_key_p = \x7b\n\t0x33333333L\r\n\t0x44444444L,\r\r\n\t\x7d;".toList)] := by
  decide +kernel

end HeaderKeys
