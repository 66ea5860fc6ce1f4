import HeaderKeys.Proofs.OutlineScan
import HeaderKeys.Session
import Mathlib.Data.List.Induction

/-! The scanner of a session beside its tables. It stands where a fresh scanner stands behind the
lines that were fed since it was last finished, whatever else the session did in between. Of the
tables it changes only the one named by the line that closes an array, and of that
one entry; no step changes a table that it does not name. -/

namespace HeaderKeys.Session

def Step.line? : Step → Option Text
  | .feed _ line => some line
  | _ => none

/-- The table that a step works on. -/
def Step.slot? : Step → Option Slot
  | .insert slot _ _ => some slot
  | .get slot _ => some slot
  | .info slot => some slot
  | .dump slot => some slot
  | .clear slot => some slot
  | .copy slot _ => some slot
  | .compare slot _ => some slot
  | .render slot => some slot
  | .feed slot _ => some slot
  | .finish => none
  | .scan slot _ => some slot
  | .scanFile slot _ => some slot
  | .writeTo slot _ => some slot
  | .tree => none

/-- The lines fed since the scanner was last finished. -/
def fed (steps : List Step) : List Text := (steps.reverse.takeWhile (· ≠ .finish)).reverse.filterMap Step.line?

theorem fed_concat (steps : List Step) (step : Step) :
    fed (steps ++ [step]) = if step = .finish then [] else fed steps ++ step.line?.toList := by
  rw [fed, List.reverse_append, List.reverse_singleton, List.singleton_append, List.takeWhile_cons]
  by_cases last : step = .finish
  · simp [last]
  · cases line : step.line? <;> simp [last, line, fed]

theorem after_concat (session : Session) (steps : List Step) (step : Step) :
    session.after (steps ++ [step]) = ((session.after steps).step step).1 := List.foldl_append

/-- A step feeds its line to the scanner, puts a fresh one in its place, or leaves it alone. -/
theorem scanner_step (session : Session) (step : Step) :
    (session.step step).1.scanner = if step = .finish then {} else (session.scanner.feedAll step.line?.toList).1 := by
  cases step with
  | insert slot name declaration | get slot name =>
    simp only [Session.step]
    split <;> rfl
  | render slot =>
    simp only [Session.step]
    split <;> rfl
  | scanFile slot path =>
    simp only [Session.step]
    split <;> rfl
  | info | dump | clear | copy | compare | feed | finish | scan | writeTo | tree => rfl

theorem scanner_after (files : FileSystem) (steps : List Step) :
    ((start files).after steps).scanner = (({} : Scanner).feedAll (fed steps)).1 := by
  induction steps using List.reverseRecOn with
  | nil => rfl
  | append_singleton steps step ih =>
    rw [after_concat, scanner_step, fed_concat]
    split
    · rfl
    · rw [ih, Scanner.feedAll_append]

theorem table_step_other (session : Session) {step : Step} {other : Slot} (apart : step.slot? ≠ some other) :
    (session.step step).1.table other = session.table other := by
  have elsewhere {slot : Slot} (named : step.slot? = some slot) (table : KeyTable) :
      (session.setTable slot table).table other = session.table other := by
    have different : other ≠ slot := by
      rintro rfl
      exact apart named
    rw [table_setTable, if_neg different]
  cases step with
  | insert slot name declaration =>
    simp only [Session.step]
    split
    · rfl
    · exact elsewhere rfl _
  | get slot name =>
    simp only [Session.step]
    split <;> rfl
  | render slot =>
    simp only [Session.step]
    split <;> rfl
  | scanFile slot path =>
    simp only [Session.step]
    split
    · exact elsewhere rfl _
    · rfl
  | clear slot | copy slot source | scan slot text | feed slot line => exact elsewhere rfl _
  | info | dump | compare | finish | writeTo | tree => rfl

theorem table_feed (session : Session) (slot : Slot) (line : Text) :
    (session.step (.feed slot line)).1.table slot =
      (session.table slot).recordAll (session.scanner.feed line).2.toList := by
  have stored := table_setTable session slot slot ((session.table slot).recordAll (session.scanner.feed line).2.toList)
  rw [if_pos rfl] at stored
  exact stored

section Lines

variable (table : KeyTable) (found : List KeyName) {line : Text}

theorem recordAll_feed_silent {array? : Option OpenArray} (unmarked : ∀ array, array? = some array → closes line = false) :
    table.recordAll ((⟨Scanner.stateOf array?, found⟩ : Scanner).feed line).2.toList = table := by
  cases array? with
  | none =>
    cases declared : declaredKey? line with
    | none =>
      simp only [Scanner.feed, Scanner.stateOf, declared]
      rfl
    | some key =>
      simp only [Scanner.feed, Scanner.stateOf, declared]
      rfl
  | some array =>
    simp only [Scanner.feed, Scanner.stateOf, unmarked array rfl]
    rfl

theorem recordAll_feed_closing (array : OpenArray) (marked : closes line = true) :
    table.recordAll ((⟨Scanner.stateOf (some array), found⟩ : Scanner).feed line).2.toList =
      table.insert array.key (declaration array.key (suffixLiterals array.content)) := by
  simp only [Scanner.feed, Scanner.stateOf, marked]
  rfl

end Lines

/-- The scanner knows of nothing but the lines fed to it since it was last finished, whose last array may
be open. A line stores nothing unless it closes that array, and then it stores one entry, in the
table it is fed under: the constant around what was fed behind the opening line. -/
theorem scanner_and_tables_apart (files : FileSystem) (steps : List Step) :
    let session := (start files).after steps
    let outline := Outline.read none (fed steps)
    outline.lines = fed steps ∧ session.scanner = (({} : Scanner).feedAll (fed steps)).1 ∧
    session.scanner = ⟨Scanner.stateOf outline.rest, outline.keys⟩ ∧
    (∀ slot line, (∀ array, outline.rest = some array → ¬ closingMark <:+: line) →
      ∀ other, (session.step (.feed slot line)).1.table other = session.table other) ∧
    (∀ slot line array, outline.rest = some array → closingMark <:+: line →
      ∀ other key, ((session.step (.feed slot line)).1.table other).get? key =
        if other = slot ∧ key = array.key then some (declaration array.key (suffixLiterals array.block.flatten))
        else (session.table other).get? key) ∧
    ∀ step other, step.slot? ≠ some other → (session.step step).1.table other = session.table other := by
  intro session outline
  have scanner := scanner_after files steps
  obtain ⟨_, behind, _⟩ := Scanner.feedAll_read none [] (fed steps)
  have state : session.scanner = ⟨Scanner.stateOf outline.rest, outline.keys⟩ := scanner.trans (congrArg Prod.fst behind)
  have apart {slot other : Slot} (different : other ≠ slot) (line : Text) :
      (session.step (.feed slot line)).1.table other = session.table other :=
    table_step_other session fun same => different (Option.some.inj same).symm
  refine ⟨Outline.lines_read none _, scanner, state, fun slot line unmarked other => ?_,
    fun slot line array rest marked other key => ?_, fun step other => table_step_other session⟩
  · by_cases same : other = slot
    · have silent : ∀ array, outline.rest = some array → closes line = false := fun array rest =>
        Bool.eq_false_iff.mpr fun marked => unmarked array rest (closes_iff.mp marked)
      rw [same, table_feed, state, recordAll_feed_silent _ _ silent]
    · exact apart same line
  · by_cases same : other = slot
    · rw [same, table_feed, state, rest, recordAll_feed_closing _ _ _ (closes_iff.mpr marked), KeyTable.get?_insert]
      simp [OpenArray.content]
    · rw [apart same line]
      simp [same]

/-- An array comes together under three tables, with a clearance, a scan of its own and a refused step in
between, after another one was dropped. -/
theorem scanner_and_tables_apart_over_mixed_steps :
    let slot (n : Fin 3) : Slot := n
    let steps : List Step := [
      .feed (slot 0) "uint32_t in_key_s".toList, .feed (slot 0) "lost".toList, .finish,
      .feed (slot 2) "x uint32_t out_key_p \x7d;".toList, .clear (slot 2), .feed (slot 0) "0xDEAD".toList,
      .scan (slot 1) "uint32_t in_key_p\n\x7d;".toList, .feed (slot 2) "BEEF\n\x7d".toList, .render (slot 1),
      .insert (slot 0) "no_key".toList "kept".toList]
    let session := (start .fresh).after steps
    let closed := (session.step (.feed (slot 1) ";\x7d;".toList)).1
    session.scanner = ⟨.capturing .outKeyP "0xDEADBEEF\n\x7d".toList, []⟩ ∧
      (closed.table (slot 1)).get? .outKeyP = some "public static final long[] out_key_p = \x7b\n0xDEADBEEFL\n\x7d\t\x7d;".toList ∧
      (closed.table (slot 1)).get? .inKeyP = (session.table (slot 1)).get? .inKeyP ∧
      closed.table (slot 0) = session.table (slot 0) ∧
      (session.step (.feed (slot 1) ";".toList)).1.table (slot 1) = session.table (slot 1) := by
  intro slot steps session closed
  obtain ⟨_, _, state, silent, closing, apart⟩ := scanner_and_tables_apart .fresh steps
  have known : (Outline.read none (fed steps)).rest.map (fun array => (array.key, array.block)) =
      some (.outKeyP, ["0xDEAD".toList, "BEEF\n\x7d".toList]) := by decide +kernel
  obtain ⟨array, rest, same⟩ := Option.map_eq_some_iff.mp known
  obtain ⟨key, block⟩ := Prod.mk.inj same
  have marked : closingMark <:+: ";\x7d;".toList := closes_iff.mp (by decide)
  have entries := closing (slot 1) ";\x7d;".toList array rest marked (slot 1)
  rw [key, block] at entries
  refine ⟨?_, (entries .outKeyP).trans (by decide +kernel), entries .inKeyP, apart _ _ (by decide), ?_⟩
  · refine state.trans ?_
    rw [rest, Scanner.stateOf, OpenArray.content, key, block]
    have none : (Outline.read none (fed steps)).keys = [] := by decide +kernel
    rw [none]
    rfl
  · have unmarked : ¬ closingMark <:+: ";".toList := fun found => absurd (closes_iff.mpr found) (by decide)
    exact silent (slot 1) _ (fun _ _ => unmarked) (slot 1)

end HeaderKeys.Session
