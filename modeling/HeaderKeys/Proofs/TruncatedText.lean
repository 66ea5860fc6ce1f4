import HeaderKeys.Proofs.Insertions
import HeaderKeys.Proofs.LeadingWords

/-! Texts that break off. The lines of a beginning are the first lines of the whole text, and just the last
of them may go on there. A line that goes on declares what it declared and keeps its mark; so a
beginning brings about nothing but what the whole text brings about first. -/

namespace HeaderKeys

section Pieces

variable {α : Type}

/-- The first pieces of `whole`, the last one perhaps not to its end. -/
inductive BrokenOff : List (List α) → List (List α) → Prop
  | nothing (whole : List (List α)) : BrokenOff [] whole
  | within (piece next : List α) (later : List (List α)) : BrokenOff [piece] ((piece ++ next) :: later)
  | behind (piece : List α) {pieces whole : List (List α)} (broken : BrokenOff pieces whole) :
      BrokenOff (piece :: pieces) (piece :: whole)

theorem brokenOff_splitAfter [BEq α] (stop : α) (a b : List α) :
    BrokenOff (splitAfter stop a) (splitAfter stop (a ++ b)) := by
  induction a with
  | nil => exact .nothing _
  | cons c rest ih =>
    simp only [List.cons_append, splitAfter]
    split
    · exact .behind [c] ih
    · -- The item joins the piece behind it, which the beginning may not have begun yet.
      generalize splitAfter stop rest = pieces, splitAfter stop (rest ++ b) = whole at ih ⊢
      cases ih with
      | nothing whole =>
        cases whole with
        | nil => exact .within [c] [] []
        | cons piece later => exact .within [c] piece later
      | within piece next later => exact .within (c :: piece) next later
      | behind piece broken => exact .behind (c :: piece) broken

end Pieces

theorem Text.brokenOff_lines (a b : Text) : BrokenOff a.lines (a ++ b).lines := brokenOff_splitAfter '\n' a b

namespace Scanner

/-- What a line brings about it also does with more text behind it. -/
theorem feed_append {scanner : Scanner} {line : Text} {finding : Finding} (brought : (scanner.feed line).2 = some finding)
    (next : Text) : (scanner.feed (line ++ next)).2 = some finding := by
  obtain ⟨state, found⟩ := scanner
  cases state with
  | idle =>
    cases declared : declaredKey? line with
    | none => simp [feed, declared] at brought
    | some key =>
      have longer := declaredKey?_append declared next
      simpa [feed, declared, longer] using brought
  | capturing key block =>
    by_cases marked : closes line = true
    · have longer : closes (line ++ next) = true := by simp [closes_append, marked]
      simpa [feed, marked, longer] using brought
    · simp [feed, marked] at brought

theorem feedAll_brokenOff {lines whole : List Text} (broken : BrokenOff lines whole) (scanner : Scanner) :
    (scanner.feedAll lines).2 <+: (scanner.feedAll whole).2 := by
  induction broken generalizing scanner with
  | nothing whole => exact List.nil_prefix
  | within line next later =>
    simp only [feedAll, List.append_nil]
    cases brought : (scanner.feed line).2 with
    | none => exact List.nil_prefix
    | some finding =>
      rw [feed_append brought next]
      exact List.prefix_append [finding] _
  | behind line broken ih =>
    simp only [feedAll]
    exact (List.prefix_append_right_inj _).mpr (ih _)

end Scanner

theorem findings_begin (a b : Text) : findings a <+: findings (a ++ b) :=
  Scanner.feedAll_brokenOff (Text.brokenOff_lines a b) {}

theorem insertions_begin (a b : Text) : insertions a <+: insertions (a ++ b) := (findings_begin a b).filterMap _

/-- Wherever a text breaks off, scanning it stores what scanning the whole text stores first, and
nothing else: each scan stores its insertions, those of the beginning come first among those of the
whole, and after as many of them as keys were found in the beginning the table is the one that the
beginning leaves. It is the same with all findings, so no array opens in a beginning that does not
open in the whole text. -/
theorem truncated_text_stores_first (a b : Text) (table : KeyTable) :
    (∀ text, (scanText text table).2 = table.insertAll (insertions text) ∧
      (scanText text table).1.found = (insertions text).map Prod.fst) ∧
    findings a <+: findings (a ++ b) ∧ insertions a <+: insertions (a ++ b) ∧
    (scanText a table).1.found <+: (scanText (a ++ b) table).1.found ∧
    table.insertAll ((insertions (a ++ b)).take (scanText a table).1.found.length) = (scanText a table).2 := by
  have reported (text : Text) : (scanText text table).1.found = (insertions text).map Prod.fst := found_report text
  have first := insertions_begin a b
  refine ⟨fun text => ⟨table_scanText text table, reported text⟩, findings_begin a b, first, ?_, ?_⟩
  · rw [reported, reported]
    exact first.map Prod.fst
  · rw [reported, List.length_map, ← List.prefix_iff_eq_take.mp first, table_scanText]

/-- The text breaks off inside a closing mark. -/
example :
    let a := "uint32_t in_key_p\n0x00000001 \x7d;\nuint32_t in_key_s\n\x7d;\nuint32_t out_key_p \n\x7d".toList
    (insertions a).map Prod.fst = [.inKeyP, .inKeyS] ∧
      (insertions (a ++ ";".toList)).map Prod.fst = [.inKeyP, .inKeyS, .outKeyP] := by
  decide +kernel

end HeaderKeys
