import HeaderKeys.Proofs.SuffixedTables
import HeaderKeys.Proofs.TextLines
import HeaderKeys.Proofs.WordRuns

/-! The rewrite of a text in pieces. It does the same before and after a cut wherever no word goes on there, so
blocks can be rewritten line by line and constants by their blocks. Inside a word this fails
exactly if a literal comes together or comes apart at the cut. -/

namespace HeaderKeys

section Pieces

variable {a b : Text}

theorem seam_iff : Seam a b ↔ ¬ (endsInWord a = true ∧ beginsInWord b = true) := by
  rw [Seam, not_and_or, Bool.not_eq_true, Bool.not_eq_true]

theorem EndsIn.seam (ends : EndsIn '\n' a) (b : Text) : Seam a b := by
  apply Or.inl
  rcases ends.shape with rfl | ⟨before, rfl⟩
  · rfl
  · rw [endsInWord_concat]
    decide

/-- Lines are rewritten by themselves, with their breaks; the last one may lack its break. -/
theorem suffixLiterals_lines {lines : List Text} (ended : ∀ line ∈ lines.dropLast, EndsIn '\n' line) :
    suffixLiterals lines.flatten = lines.flatMap suffixLiterals := by
  induction lines with
  | nil => rfl
  | cons line later ih =>
    cases later with
    | nil => simp
    | cons next later =>
      rw [List.dropLast_cons_cons, List.forall_mem_cons] at ended
      have seam := ended.1.seam (next :: later).flatten
      rw [List.flatten_cons, List.flatMap_cons, suffixLiterals_append seam, ih ended.2]

end Pieces

section Words

variable {u v : Text}

theorem length_suffixLiterals_word {word : Text} (inside : ∀ c ∈ word, isWordChar c = true) :
    (suffixLiterals word).length = word.length + if IsBare word then 1 else 0 := by
  rw [suffixLiterals_uniform ⟨true, inside⟩, suffixRun]
  split
  · rw [List.length_append, length_longSuffix]
  · rfl

/-- A word is rewritten like its two parts unless it is a literal or one of them is. -/
theorem suffixLiterals_word_append_iff (inside : ∀ c ∈ u ++ v, isWordChar c = true) (first : u ≠ []) (last : v ≠ []) :
    suffixLiterals (u ++ v) = suffixLiterals u ++ suffixLiterals v ↔ ∀ word ∈ [u, v, u ++ v], ¬ IsBare word := by
  obtain ⟨insideU, insideV⟩ := List.forall_mem_append.mp inside
  simp only [List.forall_mem_cons, List.not_mem_nil, false_implies, implies_true, and_true]
  constructor
  · intro same
    have lengths := congrArg List.length same
    rw [List.length_append, length_suffixLiterals_word inside, length_suffixLiterals_word insideU,
      length_suffixLiterals_word insideV, List.length_append] at lengths
    by_cases whole : IsBare (u ++ v)
    · -- All literals have one length, so no part of a literal is one.
      have full := whole.length
      rw [List.length_append] at full
      have someU := List.length_pos_of_ne_nil first
      have someV := List.length_pos_of_ne_nil last
      have otherU : ¬ IsBare u := by
        intro part
        have short := part.length
        omega
      have otherV : ¬ IsBare v := by
        intro part
        have short := part.length
        omega
      rw [if_pos whole, if_neg otherU, if_neg otherV] at lengths
      omega
    · rw [if_neg whole] at lengths
      refine ⟨?_, ?_, whole⟩
      · intro part
        rw [if_pos part] at lengths
        omega
      · intro part
        rw [if_pos part] at lengths
        omega
  · rintro ⟨otherU, otherV, other⟩
    rw [suffixLiterals_other inside other, suffixLiterals_other insideU otherU, suffixLiterals_other insideV otherV]

theorem suffixLiterals_cut_iff {before after : Text} (whole : WholeWord before (u ++ v) after) (first : u ≠ []) (last : v ≠ []) :
    suffixLiterals (before ++ u ++ (v ++ after)) = suffixLiterals (before ++ u) ++ suffixLiterals (v ++ after) ↔
      ∀ word ∈ [u, v, u ++ v], ¬ IsBare word := by
  have joined := suffixLiterals_between whole.toDelimited (u ++ v)
  have left : suffixLiterals (before ++ u) = suffixLiterals before ++ suffixLiterals u := suffixLiterals_append (.inl whole.left)
  have right : suffixLiterals (v ++ after) = suffixLiterals v ++ suffixLiterals after := suffixLiterals_append (.inr whole.right)
  rw [← suffixLiterals_word_append_iff whole.inside first last, left, right]
  simp only [List.append_assoc] at joined ⊢
  rw [joined, List.append_cancel_left_eq, ← List.append_assoc (suffixLiterals u), List.append_cancel_right_eq]

end Words

/-- Rewriting twice is rewriting once. Two texts are rewritten together as they are alone unless a word goes on
from the one to the other; so a block may be rewritten line by line, and a constant by its block.
Where the cut is inside a word, the same holds unless that word is a literal or one of its two
parts is. -/
theorem suffixLiterals_piecewise :
    (∀ text, suffixLiterals (suffixLiterals text) = suffixLiterals text) ∧
    (∀ a b, ¬ (endsInWord a = true ∧ beginsInWord b = true) → suffixLiterals (a ++ b) = suffixLiterals a ++ suffixLiterals b) ∧
    (∀ lines : List Text, (∀ line ∈ lines.dropLast, EndsIn '\n' line) →
      suffixLiterals lines.flatten = lines.flatMap suffixLiterals) ∧
    (∀ text : Text, suffixLiterals text = text.lines.flatMap suffixLiterals) ∧
    (∀ key block, suffixLiterals (declaration key block) = declaration key (suffixLiterals block)) ∧
    ∀ before u v after, WholeWord before (u ++ v) after → u ≠ [] → v ≠ [] →
      (suffixLiterals (before ++ u ++ (v ++ after)) = suffixLiterals (before ++ u) ++ suffixLiterals (v ++ after) ↔
        ∀ word ∈ [u, v, u ++ v], ¬ IsBare word) := by
  refine ⟨suffixLiterals_suffixLiterals, ?_, fun lines ended => suffixLiterals_lines ended, ?_, suffixLiterals_declaration, ?_⟩
  · intro a b apart
    exact suffixLiterals_append (seam_iff.mpr apart)
  · intro text
    rw [Text.lines, ← suffixLiterals_lines (endsIn_of_mem_dropLast text), flatten_splitAfter]
  · intro before u v after whole first last
    exact suffixLiterals_cut_iff whole first last

/-- A literal ends before a sign beyond ASCII, and lines end with one, with nothing and in the middle of
another. Two halves of a literal are none. -/
theorem suffixLiterals_piecewise_of_halves :
    let a := "\u00E90x12345678\t0xDEADBEEF".toList
    let b := "\u00D70x00000001L,0xfeedBEEF".toList
    let lines := ["0x12345678\r\n".toList, [], "\t0x1234\n".toList, "5678,0xABCDEF01".toList]
    ¬ (endsInWord a = true ∧ beginsInWord b = true) ∧
      suffixLiterals (a ++ b) = "\u00E90x12345678\t0xDEADBEEFL".toList ++ "\u00D70x00000001L,0xfeedBEEFL".toList ∧
      (∀ line ∈ lines.dropLast, EndsIn '\n' line) ∧
      suffixLiterals lines.flatten = "0x12345678L\r\n\t0x1234\n5678,0xABCDEF01L".toList ∧
      suffixLiterals (" ".toList ++ "0xDEAD".toList ++ ("BEEF".toList ++ ",".toList)) ≠
        suffixLiterals (" ".toList ++ "0xDEAD".toList) ++ suffixLiterals ("BEEF".toList ++ ",".toList) := by
  intro a b lines
  obtain ⟨_, apart, byLine, _, _, cut⟩ := suffixLiterals_piecewise
  have ended : ∀ line ∈ lines.dropLast, EndsIn '\n' line := by decide +kernel
  have free : ¬ (endsInWord a = true ∧ beginsInWord b = true) := by decide +kernel
  refine ⟨free, ?_, ended, ?_, ?_⟩
  · rw [apart a b free]
    decide +kernel
  · rw [byLine lines ended]
    decide +kernel
  · have whole : WholeWord " ".toList ("0xDEAD".toList ++ "BEEF".toList) ",".toList :=
      ⟨⟨by decide, by decide⟩, by decide, List.all_eq_true.mp (by decide)⟩
    intro same
    have other := (cut _ _ _ _ whole (by decide) (by decide)).mp same
    exact other ("0xDEAD".toList ++ "BEEF".toList) (by simp) (by decide)

end HeaderKeys
