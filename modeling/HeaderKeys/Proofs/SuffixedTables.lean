import HeaderKeys.Proofs.CompleteTable
import HeaderKeys.Proofs.HeaderFiles
import HeaderKeys.Proofs.WholeWords
import HeaderKeys.Session

/-! No generated file holds a bare literal. A block is rewritten as a whole when its array
closes, however many lines it was put together from. No word crosses a seam of the templates,
so the rewrite passes through them: through a file to its constants and through a constant to
its block, where it finds nothing left to do. -/

namespace HeaderKeys

/-- Text that the rewrite leaves alone, and that no word goes on from. -/
structure Inert (text : Text) : Prop where
  fixed : suffixLiterals text = text
  ends : endsInWord text = false

theorem Inert.append {a b : Text} (first : Inert a) (second : Inert b) : Inert (a ++ b) := by
  constructor
  · rw [suffixLiterals_append (.inl first.ends), first.fixed, second.fixed]
  · exact endsInWord_append first.ends second.ends

theorem Inert.append_string {a b : String} (first : Inert a.toList) (second : Inert b.toList) : Inert (a ++ b).toList := by
  rw [String.toList_append]
  exact first.append second

theorem suffixLiterals_around {head tail : Text} (inert : Inert head) (fixed : suffixLiterals tail = tail)
    (begins : beginsInWord tail = false) (text : Text) :
    suffixLiterals (head ++ text ++ tail) = head ++ suffixLiterals text ++ tail := by
  rw [suffixLiterals_between ⟨inert.ends, begins⟩, inert.fixed, fixed]

/-- A literal can neither begin nor end outside the block of a constant. -/
theorem suffixLiterals_declaration (key : KeyName) (block : Text) :
    suffixLiterals (declaration key block) = declaration key (suffixLiterals block) := by
  cases key with
  | outKeyP | outKeyS | inKeyP | inKeyS => exact suffixLiterals_around ⟨by decide, by decide⟩ (by decide) (by decide) block

namespace ClassSource

theorem suffixLiterals_member (text : Text) : suffixLiterals (member text) = member (suffixLiterals text) :=
  suffixLiterals_around ⟨by decide, by decide⟩ (by decide) (by decide) text

theorem endsInWord_member (text : Text) : endsInWord (member text) = false := endsInWord_concat ("\t".toList ++ text) '\n'

theorem suffixLiterals_members (declarations : List Text) :
    suffixLiterals (joinWith separator (declarations.map member)) =
      joinWith separator ((declarations.map suffixLiterals).map member) := by
  induction declarations with
  | nil => rfl
  | cons first declarations ih =>
    cases declarations with
    | nil => exact suffixLiterals_member first
    | cons second declarations =>
      have behind : Seam (member first ++ separator) (joinWith separator ((second :: declarations).map member)) :=
        .inl (endsInWord_append (endsInWord_member first) (by decide))
      have before : Seam (member first) separator := .inr (by decide)
      have fixed : suffixLiterals separator = separator := by decide
      simp only [List.map_cons, joinWith] at ih behind ⊢
      rw [suffixLiterals_append behind, suffixLiterals_append before, suffixLiterals_member, fixed, ih]

/-- The comments go line by line: evaluating all of the text at once is slow. -/
theorem inert_licenseHeader : Inert licenseHeader := by
  unfold licenseHeader
  iterate 16 refine .append_string ?_ ?_
  all_goals
    rw [String.toList_ofList]
    exact ⟨by decide +kernel, by decide +kernel⟩

theorem inert_attribution : Inert attribution := by
  unfold attribution
  iterate 4 refine .append_string ?_ ?_
  all_goals
    rw [String.toList_ofList]
    exact ⟨by decide +kernel, by decide +kernel⟩

theorem inert_opening : Inert opening := by
  have blank : Inert "\n".toList := ⟨by decide, by decide⟩
  have heading : Inert ("package ".toList ++ packageName ++ ";\n\n".toList
      ++ "public final class ".toList ++ className ++ " \x7b\n".toList) := ⟨by decide +kernel, by decide +kernel⟩
  have parts := ((inert_licenseHeader.append blank).append (inert_attribution.append blank)).append heading
  simp only [List.append_assoc] at parts
  simpa only [opening, List.append_assoc] using parts

theorem suffixLiterals_layout (declarations : List Text) :
    suffixLiterals (layout declarations) = layout (declarations.map suffixLiterals) := by
  have fixed : suffixLiterals closing = closing := by decide
  simp only [layout, suffixLiterals_around inert_opening fixed (by decide), suffixLiterals_members]

end ClassSource

namespace KeyTable

/-- Tables that lines are fed into and texts and files are scanned into, in any order, starting
from no entry. The lines may come from any scanner at any time. -/
inductive Filled : KeyTable → Prop
  | empty : Filled .empty
  | feed {table : KeyTable} (filled : Filled table) (scanner : Scanner) (line : Text) :
      Filled (table.recordAll (scanner.feed line).2.toList)
  | scan {table : KeyTable} (filled : Filled table) (text : Text) : Filled (scanText text table).2
  | scanFile {table : KeyTable} (filled : Filled table) {fs : FileSystem} {path : Path} {result : ScanReport × KeyTable}
      (succeeded : fs.scanFile path table = .ok result) : Filled result.2

/-- The rewrite has nothing left to do in a table. -/
def Suffixed (table : KeyTable) : Prop := ∀ key constant, table.get? key = some constant → suffixLiterals constant = constant

theorem Suffixed.record {table : KeyTable} (suffixed : Suffixed table) (finding : Finding) : Suffixed (table.record finding) := by
  cases finding with
  | opened key => exact suffixed
  | closed key block =>
    intro other constant held
    rw [KeyTable.record, get?_insert] at held
    split at held
    next same =>
      cases held
      rw [suffixLiterals_declaration, suffixLiterals_suffixLiterals]
    next different => exact suffixed other constant held

theorem Suffixed.recordAll {table : KeyTable} (suffixed : Suffixed table) (findings : List Finding) :
    Suffixed (table.recordAll findings) := by
  induction findings generalizing table with
  | nil => exact suffixed
  | cons finding findings ih => exact ih (suffixed.record finding)

theorem Filled.suffixed {table : KeyTable} (filled : Filled table) : Suffixed table := by
  induction filled with
  | empty =>
    intro key constant held
    cases held
  | feed _ scanner line kept => exact kept.recordAll _
  | scan _ text kept => exact kept.recordAll _
  | scanFile _ succeeded kept =>
    obtain ⟨content, _, rfl⟩ := FileSystem.scanFile_eq_ok_iff.mp succeeded
    exact kept.recordAll _

end KeyTable

namespace Session

open KeyTable

theorem filled_setTable {session : Session} (filled : ∀ slot, Filled (session.table slot)) {table : KeyTable}
    (stored : Filled table) (slot other : Slot) : Filled ((session.setTable slot table).table other) := by
  rw [table_setTable]
  split
  · exact stored
  · exact filled other

theorem filled_step {session : Session} (filled : ∀ slot, Filled (session.table slot)) {step : Step}
    (noInsertion : ∀ slot key declaration, step ≠ .insert slot key declaration) (other : Slot) :
    Filled ((session.step step).1.table other) := by
  cases step with
  | insert slot key declaration => exact absurd rfl (noInsertion slot key declaration)
  | get slot name =>
    simp only [Session.step]
    split <;> exact filled other
  | render slot =>
    simp only [Session.step]
    split <;> exact filled other
  | info slot | dump slot | compare slot second | finish | writeTo slot path | tree => exact filled other
  | clear slot => exact filled_setTable filled .empty slot other
  | copy slot source => exact filled_setTable filled (filled source) slot other
  | feed slot line => exact filled_setTable filled ((filled slot).feed session.scanner line) slot other
  | scan slot text => exact filled_setTable filled ((filled slot).scan text) slot other
  | scanFile slot path =>
    simp only [Session.step]
    split
    next scanned succeeded => exact filled_setTable filled ((filled slot).scanFile succeeded) slot other
    next failure failed => exact filled other

theorem filled_after {session : Session} (filled : ∀ slot, Filled (session.table slot)) {steps : List Step}
    (noInsertion : ∀ slot key declaration, .insert slot key declaration ∉ steps) :
    ∀ slot, Filled ((session.after steps).table slot) := by
  induction steps generalizing session with
  | nil => exact filled
  | cons step steps ih =>
    have first : ∀ slot key declaration, step ≠ .insert slot key declaration := by
      rintro slot key declaration rfl
      exact noInsertion slot key declaration List.mem_cons_self
    have later : ∀ slot key declaration, .insert slot key declaration ∉ steps :=
      fun slot key declaration member => noInsertion slot key declaration (List.mem_cons_of_mem _ member)
    exact ih (filled_step filled first) later

theorem table_start (files : FileSystem) (slot : Slot) : (start files).table slot = .empty := by
  simp [Session.table, start]

/-- A session without insertions fills its tables by feeding and scanning alone, and what such
tables are written out as, one by one or in any number, holds no bare literal. -/
theorem rendered_literals_suffixed :
    (∀ (files : FileSystem) (steps : List Step), (∀ slot key declaration, .insert slot key declaration ∉ steps) →
      ∀ slot, Filled (((start files).after steps).table slot)) ∧
    ∀ table : KeyTable, Filled table → ∀ text, table.render = .ok text →
      suffixLiterals text = text ∧
      ∀ before word after, text = before ++ word ++ after → Delimited before after → ¬ IsBare word := by
  constructor
  · intro files steps noInsertion
    apply filled_after _ noInsertion
    intro slot
    rw [table_start]
    exact .empty
  · intro table filled text rendered
    obtain ⟨constants, held, written⟩ := constants_of_render rendered
    have each : KeyName.all.map (suffixLiterals ∘ constants) = KeyName.all.map constants :=
      List.map_congr_left fun key _ => filled.suffixed key _ (held key)
    have fixed : suffixLiterals text = text := by
      rw [written, ClassSource.suffixLiterals_layout, List.map_map, each]
    refine ⟨fixed, fun before word after same delimited => ?_⟩
    rw [same] at fixed
    exact not_bare_of_fixed fixed delimited

/-- A literal comes together from two lines fed under different tables, and the file is that of a
copied table. -/
theorem rendered_literals_suffixed_over_pieces :
    let slot (n : Fin 3) : Slot := n
    let steps : List Step := [
      .feed (slot 0) "uint32_t out_key_p".toList, .feed (slot 1) "\t0xDEAD".toList, .feed (slot 2) "beef".toList,
      .feed (slot 1) "\x7d;".toList,
      .scan (slot 1) "uint32_t out_key_s\n\x7d;\nuint32_t in_key_p\n0x1\n\x7d;\nuint32_t in_key_s\n\x7d;\n0x12345678".toList,
      .clear (slot 0), .copy (slot 0) (slot 1), .finish]
    let table := ((start .fresh).after steps).table (slot 0)
    table.get? .outKeyP = some "public static final long[] out_key_p = \x7b\n\t0xDEADbeefL\t\x7d;".toList ∧
      ∃ text, table.render = .ok text ∧ suffixLiterals text = text ∧
        ∀ before word after, text = before ++ word ++ after → Delimited before after → ¬ IsBare word := by
  intro slot steps table
  have noInsertion : ∀ slot key declaration, .insert slot key declaration ∉ steps := by simp [steps]
  have complete : table.isComplete = true := by decide +kernel
  obtain ⟨constants, held⟩ := exists_constants complete
  refine ⟨by decide +kernel, _, render_of_get? held, ?_⟩
  exact rendered_literals_suffixed.2 table (rendered_literals_suffixed.1 .fresh steps noInsertion _) _ (render_of_get? held)

end Session

end HeaderKeys
