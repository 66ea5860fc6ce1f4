import HeaderKeys.Proofs.TextLines
import HeaderKeys.Scanner

/-! What the lines of a header are, said without a scanner. Lines that declare nothing stand
between arrays. An array is the line that declares it, a block of lines without a closing
mark, and a line with one; the last array may lack that line. Every list of lines has
exactly one such outline, and the scanner reports and stores just its arrays. -/

namespace HeaderKeys

/-- An array as far as no line closes it. -/
@[ext]
structure OpenArray where
  key : KeyName
  opening : Text
  block : List Text
  declares : declaredKey? opening = some key
  unclosed : ∀ line ∈ block, ¬ closingMark <:+: line

/-- An array with the line that closes it, and the lines up to the next array. -/
@[ext]
structure ClosedArray extends OpenArray where
  closing : Text
  marked : closingMark <:+: closing
  gap : List Text
  silent : ∀ line ∈ gap, declaredKey? line = none

/-- How a list of lines falls apart: a beginning, whole arrays, and an open one if it ends
in the middle of an array. -/
@[ext]
structure Outline where
  lead : List Text
  silent : ∀ line ∈ lead, declaredKey? line = none
  arrays : List ClosedArray
  rest : Option OpenArray

namespace OpenArray

def lines (array : OpenArray) : List Text := array.opening :: array.block

def content (array : OpenArray) : Text := array.block.flatten

def start {line : Text} {key : KeyName} (declares : declaredKey? line = some key) : OpenArray :=
  ⟨key, line, [], declares, by simp⟩

def extend (array : OpenArray) (lines : List Text) (unclosed : ∀ line ∈ lines, ¬ closingMark <:+: line) : OpenArray where
  key := array.key
  opening := array.opening
  block := array.block ++ lines
  declares := array.declares
  unclosed line member := (List.mem_append.mp member).elim (array.unclosed line) (unclosed line)

@[simp] theorem key_start {line : Text} {key : KeyName} (declares : declaredKey? line = some key) :
    (start declares).key = key := rfl

@[simp] theorem lines_start {line : Text} {key : KeyName} (declares : declaredKey? line = some key) :
    (start declares).lines = [line] := rfl

@[simp] theorem content_start {line : Text} {key : KeyName} (declares : declaredKey? line = some key) :
    (start declares).content = [] := rfl

section Extend
variable (array : OpenArray) (lines : List Text) (unclosed : ∀ line ∈ lines, ¬ closingMark <:+: line)

@[simp] theorem key_extend : (array.extend lines unclosed).key = array.key := rfl

@[simp] theorem lines_extend : (array.extend lines unclosed).lines = array.lines ++ lines := rfl

@[simp] theorem content_extend : (array.extend lines unclosed).content = array.content ++ lines.flatten := by
  simp [content, extend]

end Extend

end OpenArray

/-- All lines of a closed array, those behind it included. -/
def ClosedArray.lines (array : ClosedArray) : List Text := array.toOpenArray.lines ++ array.closing :: array.gap

def ClosedArray.constant (array : ClosedArray) : Text := declaration array.key (suffixLiterals array.content)

namespace Outline

def lines (outline : Outline) : List Text :=
  outline.lead ++ (outline.arrays.flatMap ClosedArray.lines ++ outline.rest.toList.flatMap OpenArray.lines)

def keys (outline : Outline) : List KeyName := outline.arrays.map fun array => array.key

def openKey? (outline : Outline) : Option KeyName := outline.rest.map OpenArray.key

def precede (outline : Outline) (gap : List Text) (silent : ∀ line ∈ gap, declaredKey? line = none) : Outline where
  lead := gap ++ outline.lead
  silent line member := (List.mem_append.mp member).elim (silent line) (outline.silent line)
  arrays := outline.arrays
  rest := outline.rest

def follow (array : OpenArray) {line : Text} (marked : closingMark <:+: line) (outline : Outline) : Outline where
  lead := []
  silent := by simp
  arrays := ⟨array, line, marked, outline.lead, outline.silent⟩ :: outline.arrays
  rest := outline.rest

/-- The outline of lines that stand behind an open array, or behind none. -/
def read : Option OpenArray → List Text → Outline
  | array?, [] => ⟨[], by simp, [], array?⟩
  | none, line :: later =>
    match declared : declaredKey? line with
    | none => (read none later).precede [line] (by simpa using declared)
    | some _ => read (some (.start declared)) later
  | some array, line :: later =>
    if marked : closes line then follow array (closes_iff.mp marked) (read none later)
    else read (some (array.extend [line] (by simpa [closes_iff] using marked))) later

theorem lines_read (array? : Option OpenArray) (later : List Text) :
    (read array? later).lines = array?.toList.flatMap OpenArray.lines ++ later := by
  induction later generalizing array? with
  | nil => simp [read, lines]
  | cons line later ih =>
    cases array? with
    | none =>
      simp only [read]
      split
      next declared =>
        have behind := ih none
        simp only [lines, precede, Option.toList_none, List.flatMap_nil, List.nil_append] at behind ⊢
        rw [List.append_assoc, behind]
        rfl
      next key declared => simp [ih]
    | some array =>
      simp only [read]
      split
      next marked =>
        have behind := ih none
        simp only [lines, follow, ClosedArray.lines, List.flatMap_cons, List.nil_append, List.append_assoc,
          List.cons_append, Option.toList_none, Option.toList_some, List.flatMap_nil, List.append_nil] at behind ⊢
        rw [behind]
      next unmarked => simp [ih]

theorem read_gap {gap : List Text} (silent : ∀ line ∈ gap, declaredKey? line = none) (later : List Text) :
    read none (gap ++ later) = (read none later).precede gap silent := by
  induction gap with
  | nil => rfl
  | cons line gap ih =>
    have here := silent line (by simp)
    simp only [List.cons_append, read]
    split
    next declared => rw [ih fun other member => silent other (by simp [member])]; rfl
    next key declared => rw [here] at declared; cases declared

theorem read_block (array : OpenArray) {block : List Text} (unclosed : ∀ line ∈ block, ¬ closingMark <:+: line)
    (later : List Text) : read (some array) (block ++ later) = read (some (array.extend block unclosed)) later := by
  induction block generalizing array with
  | nil =>
    have same : array.extend [] unclosed = array := by simp [OpenArray.extend]
    rw [same]
    rfl
  | cons line block ih =>
    have here := unclosed line (by simp)
    simp only [List.cons_append, read]
    split
    next marked => exact absurd (closes_iff.mp marked) here
    next unmarked =>
      rw [ih _ fun other member => unclosed other (by simp [member])]
      simp [OpenArray.extend]

theorem read_open (array : OpenArray) (later : List Text) : read none (array.lines ++ later) = read (some array) later := by
  simp only [OpenArray.lines, List.cons_append, read]
  split
  next declared => rw [array.declares] at declared; cases declared
  next key declared =>
    obtain rfl : array.key = key := Option.some.inj (array.declares.symm.trans declared)
    rw [read_block _ array.unclosed]
    rfl

theorem read_closed (array : ClosedArray) (later : List Text) :
    read none (array.lines ++ later) = follow array.toOpenArray array.marked (read none (array.gap ++ later)) := by
  rw [ClosedArray.lines, List.append_assoc, read_open, List.cons_append, read, dif_pos (closes_iff.mpr array.marked)]

/-- An outline is what its lines are read as. -/
theorem read_lines (outline : Outline) : read none outline.lines = outline := by
  obtain ⟨lead, silent, arrays, rest⟩ := outline
  induction arrays generalizing lead with
  | nil =>
    rw [lines, read_gap silent]
    cases rest with
    | none => simp [read, precede]
    | some array =>
      have alone := read_open array []
      simp only [List.append_nil] at alone
      simp [alone, read, precede]
  | cons array arrays ih =>
    have behind := ih array.gap array.silent
    rw [lines, read_gap silent, List.flatMap_cons, List.append_assoc, read_closed]
    rw [lines] at behind
    rw [behind]
    simp [follow, precede]

end Outline

def Text.outline (text : Text) : Outline := Outline.read none text.lines

theorem Text.lines_outline (text : Text) : text.outline.lines = text.lines := by
  simp [Text.outline, Outline.lines_read]

/-- A text has no other outline. -/
theorem Text.eq_outline {text : Text} {outline : Outline} (same : outline.lines = text.lines) : outline = text.outline := by
  rw [Text.outline, ← same, Outline.read_lines]

end HeaderKeys
