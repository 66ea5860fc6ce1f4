import HeaderKeys.Proofs.OutlineScan

/-! What a scan stores, one constant after the other. A finding that closes an array is an
insertion, and any other one is none. So all that a table sees of a text is its insertions, and
the keys that a report tells of are theirs. -/

namespace HeaderKeys

/-- The key and the constant that a finding stores. -/
def Finding.insertion? : Finding → Option (KeyName × Text)
  | .opened _ => none
  | .closed key block => some (key, declaration key (suffixLiterals block))

/-- What scanning a text stores, in order. -/
def insertions (text : Text) : List (KeyName × Text) := (findings text).filterMap Finding.insertion?

namespace KeyTable

def insertAll (table : KeyTable) (insertions : List (KeyName × Text)) : KeyTable :=
  insertions.foldl (fun current insertion => current.insert insertion.1 insertion.2) table

theorem recordAll_eq_insertAll (table : KeyTable) (findings : List Finding) :
    table.recordAll findings = table.insertAll (findings.filterMap Finding.insertion?) := by
  induction findings generalizing table with
  | nil => rfl
  | cons finding findings ih =>
    cases finding with
    | opened key => exact ih table
    | closed key block => exact ih (table.insert key (declaration key (suffixLiterals block)))

end KeyTable

theorem table_scanText (text : Text) (table : KeyTable) : (scanText text table).2 = table.insertAll (insertions text) :=
  table.recordAll_eq_insertAll (findings text)

theorem insertions_eq (text : Text) : insertions text = text.outline.arrays.map fun array => (array.key, array.constant) := by
  have whole (arrays : List ClosedArray) :
      (arrays.flatMap fun array => [.opened array.key, .closed array.key array.content]).filterMap Finding.insertion? =
        arrays.map fun array => (array.key, array.constant) := by
    induction arrays with
    | nil => rfl
    | cons array arrays ih => exact congrArg ((array.key, array.constant) :: ·) ih
  have silent : (text.outline.rest.toList.map fun array => Finding.opened array.key).filterMap Finding.insertion? = [] := by
    cases text.outline.rest <;> rfl
  rw [insertions, findings_eq, Outline.findings, List.filterMap_append, whole, silent, List.append_nil]

theorem found_report (text : Text) : (report text).found = (insertions text).map Prod.fst := by
  rw [report_eq, insertions_eq, List.map_map]
  rfl

end HeaderKeys
