import HeaderKeys.Scanner

/-! Runs of the scanner over several lines: what the next line does in each state, how a run
continues another one, and that keys found earlier are carried along and never looked at. -/

namespace HeaderKeys

namespace Scanner

section Lines
variable {line : Text} {key : KeyName} (found : List KeyName) (block : Text) (lines : List Text)

theorem feedAll_silent (declared : declaredKey? line = none) :
    (⟨.idle, found⟩ : Scanner).feedAll (line :: lines) = (⟨.idle, found⟩ : Scanner).feedAll lines := by
  simp [feedAll, feed, declared]

theorem feedAll_opening (declared : declaredKey? line = some key) :
    (⟨.idle, found⟩ : Scanner).feedAll (line :: lines) =
      (((⟨.capturing key [], found⟩ : Scanner).feedAll lines).1,
        .opened key :: ((⟨.capturing key [], found⟩ : Scanner).feedAll lines).2) := by
  simp [feedAll, feed, declared]

theorem feedAll_closing (marked : closes line = true) :
    (⟨.capturing key block, found⟩ : Scanner).feedAll (line :: lines) =
      (((⟨.idle, found ++ [key]⟩ : Scanner).feedAll lines).1,
        .closed key block :: ((⟨.idle, found ++ [key]⟩ : Scanner).feedAll lines).2) := by
  simp [feedAll, feed, marked]

theorem feedAll_data (unmarked : ¬ closes line = true) :
    (⟨.capturing key block, found⟩ : Scanner).feedAll (line :: lines) =
      (⟨.capturing key (block ++ line), found⟩ : Scanner).feedAll lines := by
  simp [feedAll, feed, unmarked]

end Lines

/-- A run over more lines goes on where the run over the first ones stopped. -/
theorem feedAll_append (scanner : Scanner) (a b : List Text) :
    scanner.feedAll (a ++ b) =
      (((scanner.feedAll a).1.feedAll b).1, (scanner.feedAll a).2 ++ ((scanner.feedAll a).1.feedAll b).2) := by
  induction a generalizing scanner with
  | nil => rfl
  | cons line a ih => simp [feedAll, ih]

theorem feed_found (state : ScanState) (earlier found : List KeyName) (line : Text) :
    (⟨state, earlier ++ found⟩ : Scanner).feed line =
      (⟨((⟨state, found⟩ : Scanner).feed line).1.state, earlier ++ ((⟨state, found⟩ : Scanner).feed line).1.found⟩,
        ((⟨state, found⟩ : Scanner).feed line).2) := by
  cases state with
  | idle => cases declared : declaredKey? line <;> simp [feed, declared]
  | capturing key block => by_cases marked : closes line <;> simp [feed, marked]

theorem feedAll_found (state : ScanState) (earlier found : List KeyName) (lines : List Text) :
    (⟨state, earlier ++ found⟩ : Scanner).feedAll lines =
      (⟨((⟨state, found⟩ : Scanner).feedAll lines).1.state, earlier ++ ((⟨state, found⟩ : Scanner).feedAll lines).1.found⟩,
        ((⟨state, found⟩ : Scanner).feedAll lines).2) := by
  induction lines generalizing state found with
  | nil => rfl
  | cons line lines ih => simp only [feedAll, feed_found, ih]

theorem finish_found (state : ScanState) (found : List KeyName) :
    (⟨state, found⟩ : Scanner).finish = ⟨found, (⟨state, []⟩ : Scanner).finish.discarded⟩ := by
  cases state <;> rfl

theorem idle_of_finish {scanner : Scanner} (closed : scanner.finish.discarded = none) : scanner.state = .idle := by
  cases state : scanner.state with
  | idle => rfl
  | capturing key block => simp [finish, state] at closed

end Scanner

theorem KeyTable.recordAll_append (table : KeyTable) (a b : List Finding) :
    table.recordAll (a ++ b) = (table.recordAll a).recordAll b := List.foldl_append

end HeaderKeys
