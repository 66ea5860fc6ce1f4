import HeaderKeys.Proofs.Outline
import HeaderKeys.Proofs.ScannerRuns

/-! The scanner against the outline. Between two lines the scanner's state is the array that
is open there, and what it hands out is that of the outline; so a table gets the constants
of the closed arrays, one after the other, and nothing from an array that stays open. -/

namespace HeaderKeys

namespace Outline

/-- What the arrays of an outline bring about. -/
def findings (outline : Outline) : List Finding :=
  outline.arrays.flatMap (fun array => [.opened array.key, .closed array.key array.content]) ++
    outline.rest.toList.map fun array => .opened array.key

end Outline

namespace Scanner

/-- The state behind an array that may be open. -/
def stateOf : Option OpenArray → ScanState
  | none => .idle
  | some array => .capturing array.key array.content

theorem finish_stateOf (array? : Option OpenArray) (found : List KeyName) :
    (⟨stateOf array?, found⟩ : Scanner).finish = ⟨found, array?.map OpenArray.key⟩ := by
  cases array? <;> rfl

/-- The opening of an array is reported before its lines are read, so it stands before the
findings and not among them. -/
theorem feedAll_read (array? : Option OpenArray) (found : List KeyName) (lines : List Text) :
    ∃ findings, (⟨stateOf array?, found⟩ : Scanner).feedAll lines =
        (⟨stateOf (Outline.read array? lines).rest, found ++ (Outline.read array? lines).keys⟩, findings) ∧
      array?.toList.map (fun array => Finding.opened array.key) ++ findings = (Outline.read array? lines).findings := by
  induction lines generalizing array? found with
  | nil => exact ⟨[], by simp [feedAll, Outline.read, Outline.keys], by simp [Outline.read, Outline.findings]⟩
  | cons line lines ih =>
    cases array? with
    | none =>
      simp only [Outline.read]
      split
      next declared =>
        obtain ⟨findings, fed, same⟩ := ih none found
        exact ⟨findings, (feedAll_silent found lines declared).trans fed, same⟩
      next key declared =>
        obtain ⟨findings, fed, same⟩ := ih (some (.start declared)) found
        refine ⟨.opened key :: findings, ?_, same⟩
        simp only [stateOf, OpenArray.key_start, OpenArray.content_start] at fed ⊢
        rw [feedAll_opening found lines declared, fed]
    | some array =>
      simp only [Outline.read]
      split
      next marked =>
        obtain ⟨findings, fed, same⟩ := ih none (found ++ [array.key])
        refine ⟨.closed array.key array.content :: findings, ?_, ?_⟩
        · simp only [stateOf] at fed ⊢
          rw [feedAll_closing found array.content lines marked, fed]
          simp [Outline.follow, Outline.keys]
        · simp only [Option.toList_none, List.map_nil, List.nil_append] at same
          simp only [same, Outline.findings, Outline.follow, List.flatMap_cons]
          rfl
      next unmarked =>
        obtain ⟨findings, fed, same⟩ := ih (some (array.extend [line] (by simpa [closes_iff] using unmarked))) found
        refine ⟨findings, ?_, same⟩
        simp only [stateOf, OpenArray.key_extend, OpenArray.content_extend, List.flatten_singleton] at fed ⊢
        rw [feedAll_data found array.content lines unmarked, fed]

end Scanner

theorem report_eq (text : Text) : report text = ⟨text.outline.keys, text.outline.openKey?⟩ := by
  obtain ⟨findings, fed, _⟩ := Scanner.feedAll_read none [] text.lines
  simp only [Scanner.stateOf] at fed
  simp only [report, fed, List.nil_append]
  exact Scanner.finish_stateOf _ _

theorem findings_eq (text : Text) : findings text = text.outline.findings := by
  obtain ⟨findings, fed, same⟩ := Scanner.feedAll_read none [] text.lines
  simp only [Scanner.stateOf] at fed
  simp only [HeaderKeys.findings, fed]
  exact same

namespace KeyTable

def insertArrays (table : KeyTable) (arrays : List ClosedArray) : KeyTable :=
  arrays.foldl (fun current array => current.insert array.key array.constant) table

theorem recordAll_findings (table : KeyTable) (outline : Outline) :
    table.recordAll outline.findings = table.insertArrays outline.arrays := by
  obtain ⟨lead, silent, arrays, rest⟩ := outline
  have closed : table.recordAll (arrays.flatMap fun array => [.opened array.key, .closed array.key array.content]) =
      table.insertArrays arrays := by
    induction arrays generalizing table with
    | nil => rfl
    | cons array arrays ih => exact ih (table.insert array.key array.constant)
  rw [Outline.findings, recordAll_append, closed]
  cases rest <;> rfl

/-- An entry comes from the last array of its key, if there is one. -/
theorem get?_insertArrays (table : KeyTable) (arrays : List ClosedArray) (key : KeyName) :
    (table.insertArrays arrays).get? key =
      ((arrays.reverse.find? fun array => array.key = key).map ClosedArray.constant).or (table.get? key) := by
  induction arrays generalizing table with
  | nil => rfl
  | cons array arrays ih =>
    have later := ih (table.insert array.key array.constant)
    simp only [insertArrays, List.foldl_cons] at later ⊢
    rw [later, List.reverse_cons, List.find?_append]
    cases arrays.reverse.find? fun array => array.key = key with
    | some last => rfl
    | none =>
      by_cases same : array.key = key
      · simp [same]
      · simp [same, Ne.symm same]

end KeyTable

theorem scanText_eq (text : Text) (table : KeyTable) :
    scanText text table = (⟨text.outline.keys, text.outline.openKey?⟩, table.insertArrays text.outline.arrays) := by
  rw [scanText, report_eq, findings_eq, KeyTable.recordAll_findings]

/-- A text has exactly one outline. Scanning reports the keys of its closed arrays and of the
open one, and stores the constants of the closed ones in order; no other entry changes. -/
theorem scanText_outline (text : Text) (table : KeyTable) :
    text.outline.lines = text.lines ∧ (∀ other : Outline, other.lines = text.lines → other = text.outline) ∧
      (scanText text table).1.found = text.outline.arrays.map (fun array => array.key) ∧
      (scanText text table).1.discarded = text.outline.rest.map (fun array => array.key) ∧
      (scanText text table).2 = text.outline.arrays.foldl (fun current array =>
        current.insert array.key (declaration array.key (suffixLiterals array.block.flatten))) table ∧
      ∀ key, (∀ array ∈ text.outline.arrays, array.key ≠ key) → (scanText text table).2.get? key = table.get? key := by
  refine ⟨text.lines_outline, fun _ same => Text.eq_outline same, ?_, ?_, ?_, ?_⟩
  · rw [scanText_eq]; rfl
  · rw [scanText_eq]; rfl
  · rw [scanText_eq]; rfl
  · intro key absent
    have none : text.outline.arrays.reverse.find? (fun array => array.key = key) = none := by
      simpa using absent
    rw [scanText_eq, KeyTable.get?_insertArrays, none]
    rfl

/-- A declaring line may hold the mark, a closing line and one inside an array may declare,
and the key that is still open at the end keeps its older entry. -/
theorem scanText_outline_overlapping :
    let text : Text := "uint32_t in_key_s \x7d;\nuint32_t out_key_s\n\x7d; uint32_t in_key_p\n\nuint32_t out_key_p\n1".toList
    let table := KeyTable.empty.insert .outKeyP "old".toList
    text.outline.arrays.map (fun array => array.block) = [["uint32_t out_key_s\n".toList]] ∧
      (scanText text table).1.found = [.inKeyS] ∧ (scanText text table).1.discarded = some .outKeyP ∧
      (scanText text table).2.get? .outKeyP = some "old".toList := by
  intro text table
  obtain ⟨_, _, found, discarded, _, kept⟩ := scanText_outline text table
  refine ⟨by decide +kernel, found.trans (by decide +kernel), discarded.trans (by decide +kernel), ?_⟩
  exact kept .outKeyP (by decide +kernel)

end HeaderKeys
