import HeaderKeys.Proofs.HeaderFiles
import HeaderKeys.Proofs.OutlineScan

/-! Tables that hold nothing but what scans have stored. Each entry is the constant of its
own key around a block of whole lines, since only the last line of a text can lack its
break and that line is never inside a closed array. So no closing mark comes together
across lines, at an inserted suffix or at the ends of the block. -/

namespace HeaderKeys

open Literal

theorem head?_suffixFrom_start (text : Text) : (suffixFrom .start text).head? = text.head? := by
  cases text with
  | nil => rfl
  | cons c rest =>
    simp only [suffixFrom]
    split <;> rfl

theorem Literal.Progress.suffix_clean (progress : Progress) :
    closes progress.suffix = false ∧ progress.suffix.getLast? ≠ some '\x7d' := by
  unfold Progress.suffix
  split
  · decide
  · decide

/-- Suffixes neither part a closing mark nor make one. -/
theorem closes_suffixFrom (progress : Progress) (text : Text) : closes (suffixFrom progress text) = closes text := by
  induction text generalizing progress with
  | nil => exact progress.suffix_clean.1
  | cons c rest ih =>
    simp only [suffixFrom]
    split
    next word =>
      have different : (c == '\x7d') = false := by
        refine beq_false_of_ne ?_
        rintro rfl
        exact absurd word (by decide)
      rw [closes_cons, closes_cons, ih, different]
      rfl
    next space =>
      obtain ⟨unmarked, noBrace⟩ := progress.suffix_clean
      have seam : (progress.suffix.getLast? == some '\x7d') = false := beq_false_of_ne noBrace
      rw [closes_append, unmarked, seam, closes_cons, closes_cons, head?_suffixFrom_start, ih]
      simp

theorem closes_suffixLiterals (text : Text) : closes (suffixLiterals text) = closes text :=
  closes_suffixFrom .start text

/-- A mark behind a text that would need one more character to close is the only one. -/
theorem closingMark_once {body : Text} (unclosed : closes (body ++ ['\x7d']) = false) {before after : Text}
    (same : body ++ closingMark = before ++ closingMark ++ after) : before = body ∧ after = [] := by
  rcases List.eq_nil_or_concat after with rfl | ⟨rest, c, rfl⟩
  · rw [List.append_nil] at same
    exact ⟨(List.append_cancel_right same).symm, rfl⟩
  · have shorter : body ++ ['\x7d'] = before ++ closingMark ++ rest := by
      have last : (body ++ ['\x7d']) ++ [';'] = (before ++ closingMark ++ rest) ++ [c] := by
        simpa [closingMark] using same
      exact (List.append_inj' last rfl).1
    have marked : closes (body ++ ['\x7d']) = true := closes_iff.mpr ⟨before, rest, shorter.symm⟩
    rw [unclosed] at marked
    cases marked

private theorem closes_around {head block tail : Text} (clean : closes head = false ∧ closes tail = false)
    (ends : head.getLast? = some '\n') (begins : tail.head? = some '\t') (unclosed : closes block = false) :
    closes (head ++ block ++ tail) = false := by
  have seam : (head.getLast? == some '\x7d') = false := by rw [ends]; rfl
  have other : (tail.head? == some ';') = false := by rw [begins]; rfl
  rw [closes_append, closes_append, clean.1, clean.2, unclosed, seam, other]
  simp

/-- The constant around a block without marks closes once, at its end. -/
theorem declaration_closes (key : KeyName) {block : Text} (unclosed : closes block = false) :
    ∃ body, declaration key block = body ++ closingMark ∧ closes (body ++ ['\x7d']) = false := by
  cases key with
  | outKeyP | inKeyP =>
    refine ⟨_, List.append_assoc _ ['\t'] closingMark |>.symm, ?_⟩
    rw [List.append_assoc]
    exact closes_around (by decide) (by decide) (by decide) unclosed
  | outKeyS | inKeyS =>
    refine ⟨_, List.append_assoc _ ['\t', '\x7d'] closingMark |>.symm, ?_⟩
    rw [List.append_assoc]
    exact closes_around (by decide) (by decide) (by decide) unclosed

/-- The block of a closed array is made of whole lines, none with a mark. -/
theorem ClosedArray.content_of_outline {text : Text} {array : ClosedArray} (member : array ∈ text.outline.arrays) :
    EndsIn '\n' array.content ∧ closes array.content = false := by
  obtain ⟨front, back, arrays⟩ := List.append_of_mem member
  have cut := text.lines_outline.symm
  rw [Outline.lines, arrays, List.flatMap_append, List.flatMap_cons, lines, OpenArray.lines] at cut
  obtain ⟨before, after, around⟩ : ∃ before after, text.lines = before ++ array.block ++ array.closing :: after :=
    ⟨text.outline.lead ++ front.flatMap ClosedArray.lines ++ [array.opening], _, by simpa using cut⟩
  have ended := Text.getLast?_of_lines around
  refine ⟨EndsIn.flatten fun line inside => ?_, closes_flatten ended fun line inside => ?_⟩
  · rw [EndsIn, ended line inside]
    simp
  · exact Bool.eq_false_iff.mpr fun marked => array.unclosed line inside (closes_iff.mp marked)

namespace KeyTable

theorem mem_insertArrays {table : KeyTable} {arrays : List ClosedArray} {entry : KeyName × Text}
    (member : entry ∈ (table.insertArrays arrays).entries) :
    (∃ array ∈ arrays, entry = (array.key, array.constant)) ∨ entry ∈ table.entries := by
  induction arrays generalizing table with
  | nil => exact .inr member
  | cons array arrays ih =>
    rcases ih member with ⟨other, inside, same⟩ | old
    · exact .inl ⟨other, List.mem_cons_of_mem _ inside, same⟩
    · rcases mem_insertEntry old with same | old
      · exact .inl ⟨array, List.mem_cons_self, same⟩
      · exact .inr old

/-- Tables that come from scanning texts and files in any order, starting from no entry. -/
inductive Scanned : KeyTable → Prop
  | empty : Scanned .empty
  | text {table : KeyTable} (scanned : Scanned table) (text : Text) : Scanned (scanText text table).2
  | file {table : KeyTable} (scanned : Scanned table) {fs : FileSystem} {path : Path} {result : ScanReport × KeyTable}
      (succeeded : fs.scanFile path table = .ok result) : Scanned result.2

def IsConstant (key : KeyName) (text : Text) : Prop :=
  ∃ block, EndsIn '\n' block ∧ closes block = false ∧ text = declaration key (suffixLiterals block)

private theorem constant_of_scan {table : KeyTable} (kept : ∀ entry ∈ table.entries, IsConstant entry.1 entry.2)
    (text : Text) : ∀ entry ∈ (scanText text table).2.entries, IsConstant entry.1 entry.2 := by
  intro entry member
  rw [scanText_eq] at member
  rcases mem_insertArrays member with ⟨array, inside, rfl⟩ | old
  · have whole := ClosedArray.content_of_outline inside
    exact ⟨array.content, whole.1, whole.2, rfl⟩
  · exact kept entry old

theorem Scanned.constants {table : KeyTable} (scanned : Scanned table) :
    ∀ entry ∈ table.entries, IsConstant entry.1 entry.2 := by
  induction scanned with
  | empty => exact fun _ impossible => absurd impossible List.not_mem_nil
  | text _ text kept => exact constant_of_scan kept text
  | @file table _ fs path result succeeded kept =>
    obtain ⟨content, _, rfl⟩ := FileSystem.scanFile_eq_ok_iff.mp succeeded
    exact constant_of_scan kept _

/-- In a scanned table an entry is the constant of its own key around whole lines, and the
closing mark stands in it once, as its last two characters. -/
theorem scanned_entries_close_once {table : KeyTable} (scanned : Scanned table) : ∀ entry ∈ table.entries,
    ∃ block body, EndsIn '\n' block ∧ entry.2 = declaration entry.1 (suffixLiterals block) ∧
      entry.2 = body ++ closingMark ∧
      ∀ before after, entry.2 = before ++ closingMark ++ after → before = body ∧ after = [] := by
  intro entry member
  obtain ⟨block, whole, unclosed, constant⟩ := scanned.constants entry member
  obtain ⟨body, split, alone⟩ := declaration_closes entry.1 ((closes_suffixLiterals block).trans unclosed)
  refine ⟨block, body, whole, constant, constant.trans split, fun before after same => ?_⟩
  rw [constant, split] at same
  exact closingMark_once alone same

/-- A brace and a semicolon on lines of their own close nothing, and an array that stays open
replaces nothing. -/
theorem scanned_entries_close_once_over_lines :
    let first := (scanText "uint32_t in_key_p[1] = \x7b 0x1 \x7d;\n\x7d\n;\n\t0xDEADBEEF\x7d\n\x7d;".toList empty).2
    let table := (scanText "uint32_t in_key_p;\n\x7d\nuint32_t out_key_s\n".toList first).2
    let constant := "public static final long[] in_key_p = \x7b\n\x7d\n;\n\t0xDEADBEEFL\x7d\n\t\x7d;".toList
    Scanned table ∧ (.inKeyP, constant) ∈ table.entries ∧
      ∃ block body, EndsIn '\n' block ∧ constant = declaration .inKeyP (suffixLiterals block) ∧
        constant = body ++ closingMark ∧
        ∀ before after, constant = before ++ closingMark ++ after → before = body ∧ after = [] := by
  intro first table constant
  have scanned : Scanned table := (Scanned.empty.text _).text _
  have member : (.inKeyP, constant) ∈ table.entries := by decide +kernel
  exact ⟨scanned, member, scanned_entries_close_once scanned _ member⟩

end KeyTable

end HeaderKeys
