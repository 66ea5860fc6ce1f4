import HeaderKeys.Proofs.DeclarationPattern
import HeaderKeys.Proofs.TruncatedText

/-! Text behind the last token. The scanner looks for openings and closing marks, and text that adds none of them
changes neither what is found nor which array is left open; all that it can change is the block of that
array, which is dropped. A token holds no line break, so none comes together at one. -/

namespace HeaderKeys

/-- The words that the scanner looks for. -/
def IsToken (word : Text) : Prop := word = closingMark ∨ ∃ key : KeyName, word = key.opening

def Quiet (text : Text) : Prop := ∀ token, IsToken token → ¬ token <:+: text

/-- Every token of `text ++ more` ends in `text`. -/
def NoneAdded (text more : Text) : Prop :=
  ∀ token, IsToken token → ∀ before after, text ++ more = before ++ token ++ after → before ++ token <+: text

section Tokens

variable {text more : Text}

theorem quiet_iff : Quiet text ↔ ¬ closingMark <:+: text ∧ ∀ key : KeyName, ¬ key.opening <:+: text := by
  constructor
  · intro quiet
    exact ⟨quiet _ (.inl rfl), fun key => quiet _ (.inr ⟨key, rfl⟩)⟩
  · rintro ⟨unmarked, unopened⟩ token (rfl | ⟨key, rfl⟩)
    · exact unmarked
    · exact unopened key

theorem Quiet.of_infix {part : Text} (quiet : Quiet text) (inside : part <:+: text) : Quiet part :=
  fun token word found => quiet token word (found.trans inside)

theorem Quiet.declaredKey? (quiet : Quiet text) : declaredKey? text = none := declaredKey?_eq_none_iff.mpr (quiet_iff.mp quiet).2

theorem Quiet.closes (quiet : Quiet text) : closes text = false :=
  Bool.eq_false_iff.mpr fun marked => (quiet_iff.mp quiet).1 (closes_iff.mp marked)

theorem IsToken.ne_nil {token : Text} (word : IsToken token) : token ≠ [] := by
  rcases word with rfl | ⟨key, rfl⟩
  · decide
  · cases key <;> decide

/-- No character of a line break stands in a token. -/
theorem IsToken.within_line {token : Text} (word : IsToken token) : '\r' ∉ token ∧ '\n' ∉ token := by
  rcases word with rfl | ⟨key, rfl⟩
  · decide
  · cases key <;> decide

theorem NoneAdded.quiet (none : NoneAdded text more) : Quiet more := by
  rintro token word ⟨before, after, rfl⟩
  have short := (none token word (text ++ before) after (by simp)).length_le
  have some := List.length_pos_iff.mpr word.ne_nil
  simp only [List.length_append] at short
  omega

theorem NoneAdded.of_append {front : Text} (none : NoneAdded (front ++ text) more) : NoneAdded text more := by
  intro token word before after same
  have further := none token word (front ++ before) after (by simp [same])
  rw [List.append_assoc] at further
  exact (List.prefix_append_right_inj front).mp further

theorem NoneAdded.of_longer {rest : Text} (none : NoneAdded text (more ++ rest)) : NoneAdded text more :=
  fun token word before after same => none token word before (after ++ rest) (by rw [← List.append_assoc, same]; simp)

theorem NoneAdded.infix_iff (none : NoneAdded text more) {token : Text} (word : IsToken token) :
    token <:+: text ++ more ↔ token <:+: text := by
  constructor
  · rintro ⟨before, after, same⟩
    obtain ⟨rest, shorter⟩ := none token word before after same.symm
    exact ⟨before, rest, shorter⟩
  · intro inside
    exact inside.trans (List.prefix_append text more).isInfix

/-- Quiet text adds a token only where one lies across the seam. -/
theorem Quiet.noneAdded (quiet : Quiet more)
    (apart : ∀ left right, left ≠ [] → right ≠ [] → left <:+ text → right <+: more → ¬ IsToken (left ++ right)) :
    NoneAdded text more := by
  intro token word before after same
  rcases List.append_eq_append_iff.mp same with ⟨right, reach, rfl⟩ | ⟨rest, rfl, _⟩
  · -- The token reaches over the end of `text` by `right`.
    by_cases ends : right = []
    · have whole : before ++ token = text := by rw [reach, ends, List.append_nil]
      exact ⟨[], (List.append_nil _).trans whole⟩
    · exfalso
      rcases List.append_eq_append_iff.mp reach with ⟨left, rfl, rfl⟩ | ⟨left, _, rfl⟩
      · by_cases begins : left = []
        · subst begins
          exact quiet right word ⟨[], after, rfl⟩
        · exact apart left right begins ends (List.suffix_append before left) (List.prefix_append right after) word
      · exact quiet token word ⟨left, after, rfl⟩
  · exact List.prefix_append _ rest

/-- No token lies across a line break. -/
theorem Quiet.noneAdded_at_break (quiet : Quiet more)
    (seam : more = [] ∨ EndsIn '\n' text ∨ ∃ lineBreak ∈ ["\n".toList, "\r\n".toList], lineBreak <+: more) :
    NoneAdded text more := by
  refine quiet.noneAdded fun left right begins ends behind ahead word => ?_
  obtain ⟨noReturn, noBreak⟩ := word.within_line
  rcases seam with rfl | ended | ⟨lineBreak, kind, starts⟩
  · exact ends (List.prefix_nil.mp ahead)
  · obtain ⟨before, rfl⟩ := behind
    have last : left.getLast begins = '\n' := ended _ (by simp [List.getLast?_append, List.getLast?_eq_some_getLast begins])
    exact noBreak (List.mem_append_left right (last ▸ List.getLast_mem begins))
  · obtain ⟨c, right, rfl⟩ := List.exists_cons_of_ne_nil ends
    obtain ⟨rest, rfl⟩ := starts
    obtain ⟨after, same⟩ := ahead
    simp only [List.mem_cons, List.not_mem_nil, or_false] at kind
    rcases kind with rfl | rfl
    · obtain rfl : c = '\n' := (List.cons.inj same).1
      exact noBreak (by simp)
    · obtain rfl : c = '\r' := (List.cons.inj same).1
      exact noReturn (by simp)

end Tokens

namespace Scanner

/-- A line without tokens leaves the report as it would have been. -/
theorem feed_quiet {line : Text} (quiet : Quiet line) (scanner : Scanner) :
    (scanner.feed line).1.finish = scanner.finish ∧ (scanner.feed line).2 = none := by
  obtain ⟨state, found⟩ := scanner
  cases state with
  | idle => simp [feed, quiet.declaredKey?]
  | capturing key block => simp [feed, quiet.closes, finish]

theorem feedAll_quiet {lines : List Text} (quiet : ∀ line ∈ lines, Quiet line) (scanner : Scanner) :
    (scanner.feedAll lines).1.finish = scanner.finish ∧ (scanner.feedAll lines).2 = [] := by
  induction lines generalizing scanner with
  | nil => exact ⟨rfl, rfl⟩
  | cons line lines ih =>
    obtain ⟨here, later⟩ := List.forall_mem_cons.mp quiet
    obtain ⟨same, nothing⟩ := feed_quiet here scanner
    obtain ⟨same', nothing'⟩ := ih later (scanner.feed line).1
    exact ⟨same'.trans same, by rw [feedAll, nothing, nothing']; rfl⟩

/-- A line may go on without tokens. -/
theorem feed_longer {line next : Text} (none : NoneAdded line next) (scanner : Scanner) :
    (scanner.feed (line ++ next)).1.finish = (scanner.feed line).1.finish ∧
      (scanner.feed (line ++ next)).2 = (scanner.feed line).2 := by
  obtain ⟨state, found⟩ := scanner
  cases state with
  | idle =>
    have declares : declaredKey? (line ++ next) = declaredKey? line := by
      cases declared : declaredKey? line with
      | some key => exact declaredKey?_append declared next
      | none =>
        rw [declaredKey?_eq_none_iff] at declared ⊢
        exact fun key found => declared key ((none.infix_iff (.inr ⟨key, rfl⟩)).mp found)
    simp [feed, declares]
  | capturing key block =>
    have marked : closes (line ++ next) = closes line := by
      rw [Bool.eq_iff_iff, closes_iff, closes_iff, none.infix_iff (.inl rfl)]
    simp only [feed, marked]
    split <;> exact ⟨rfl, rfl⟩

/-- Lines behind the end of a text, and what its last line goes on with, are of no account if they add no token. The
runs agree in what is reported and not in their states: an array that is open to the end takes up all that follows. -/
theorem feedAll_longer {lines whole : List Text} (broken : BrokenOff lines whole) {more : Text}
    (joined : whole.flatten = lines.flatten ++ more) (none : NoneAdded lines.flatten more) (scanner : Scanner) :
    (scanner.feedAll whole).1.finish = (scanner.feedAll lines).1.finish ∧
      (scanner.feedAll whole).2 = (scanner.feedAll lines).2 := by
  induction broken generalizing scanner with
  | nothing whole =>
    obtain rfl : whole.flatten = more := joined
    exact feedAll_quiet (fun line member => none.quiet.of_infix (List.infix_of_mem_flatten member)) scanner
  | within line next later =>
    obtain rfl : more = next ++ later.flatten := by simpa using joined.symm
    rw [List.flatten_singleton] at none
    have behind (line' : Text) (member : line' ∈ later) : Quiet line' :=
      none.quiet.of_infix ((List.infix_of_mem_flatten member).trans (List.suffix_append next _).isInfix)
    obtain ⟨same, alike⟩ := feed_longer none.of_longer scanner
    obtain ⟨same', nothing⟩ := feedAll_quiet behind (scanner.feed (line ++ next)).1
    exact ⟨same'.trans same, by simp only [feedAll, nothing, alike]⟩
  | behind line broken ih =>
    rw [List.flatten_cons, List.flatten_cons, List.append_assoc, List.append_cancel_left_eq] at joined
    obtain ⟨same, alike⟩ := ih joined none.of_append (scanner.feed line).1
    exact ⟨same, by simp only [feedAll, alike]⟩

end Scanner

theorem scanText_longer {text more : Text} (none : NoneAdded text more) (table : KeyTable) :
    scanText (text ++ more) table = scanText text table := by
  have whole (text : Text) : text.lines.flatten = text := flatten_splitAfter '\n' text
  have joined : (text ++ more).lines.flatten = text.lines.flatten ++ more := by rw [whole, whole]
  have run := Scanner.feedAll_longer (Text.brokenOff_lines text more) joined (by rwa [whole]) {}
  rw [scanText, report, findings, run.1, run.2]
  rfl

/-- Text without openings and closing marks may follow a header if a line break parts them, or if no token comes
together between them: the report and the table stay as they are. So it is all the same whether
the last line has its break. -/
theorem trailing_text_ignored :
    (∀ text more : Text, ¬ closingMark <:+: more → (∀ key : KeyName, ¬ key.opening <:+: more) →
      (more = [] ∨ EndsIn '\n' text ∨ ∃ lineBreak ∈ ["\n".toList, "\r\n".toList], lineBreak <+: more) →
      ∀ table, scanText (text ++ more) table = scanText text table) ∧
    (∀ text more, NoneAdded text more → ∀ table, scanText (text ++ more) table = scanText text table) ∧
    ∀ text table, scanText (text ++ "\n".toList) table = scanText text table := by
  refine ⟨fun text more unmarked unopened seam table => ?_, fun text more none table => scanText_longer none table,
    fun text table => ?_⟩
  · exact scanText_longer ((quiet_iff.mpr ⟨unmarked, unopened⟩).noneAdded_at_break seam) table
  · have quiet : Quiet "\n".toList := quiet_iff.mpr ⟨by decide, fun key => by cases key <;> decide⟩
    exact scanText_longer (quiet.noneAdded_at_break (.inr (.inr ⟨_, List.mem_cons_self, List.prefix_rfl⟩))) table

/-- A header that breaks off in its last line, be it a closing line, one of a block or a declaration. What follows
holds parts of tokens, but no break lies inside a token. -/
theorem trailing_text_ignored_behind_each_line :
    let header := "uint32_t in_key_p\n0x00000001\n\x7d;".toList
    let more := "\n;\nuint32_t in_key_\np \x7d\n".toList
    (¬ closingMark <:+: more ∧ ∀ key : KeyName, ¬ key.opening <:+: more) ∧ "\n".toList <+: more ∧ ∀ table,
      scanText (header ++ more) table =
        (⟨[.inKeyP], none⟩, table.insert .inKeyP "public static final long[] in_key_p = \x7b\n0x00000001L\n\t\x7d;".toList) ∧
      scanText ("uint32_t in_key_p\n\x7d".toList ++ more) table = (⟨[], some .inKeyP⟩, table) ∧
      scanText ("uint32_t in_key_p".toList ++ more) table = (⟨[], some .inKeyP⟩, table) := by
  intro header more
  obtain ⟨ignored, _, _⟩ := trailing_text_ignored
  have unmarked : ¬ closingMark <:+: more := fun inside => absurd (closes_iff.mpr inside) (by decide)
  have unopened := declaredKey?_eq_none_iff.mp (by decide +kernel : declaredKey? more = none)
  have begins : "\n".toList <+: more := ⟨_, rfl⟩
  have same (text : Text) := ignored text more unmarked unopened (.inr (.inr ⟨_, List.mem_cons_self, begins⟩))
  refine ⟨⟨unmarked, unopened⟩, begins, fun table => ⟨(same _ table).trans ?_, (same _ table).trans ?_, (same _ table).trans ?_⟩⟩
  · have brought : report header = ⟨[.inKeyP], none⟩ ∧
        findings header = [.opened .inKeyP, .closed .inKeyP "0x00000001\n".toList] := by decide +kernel
    rw [scanText, brought.1, brought.2]
    rfl
  · rfl
  · rfl

end HeaderKeys
