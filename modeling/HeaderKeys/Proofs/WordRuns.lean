import HeaderKeys.Proofs.WholeWords
import Mathlib.Data.List.SplitBy

/-! The rewrite run by run. A search from the left for bare literals between word boundaries finds the words that
are bare and nothing else: no fit begins or ends inside a word, and none is lost to an earlier one.
So each text can be cut into runs and rewritten by the run. -/

namespace HeaderKeys

open Literal

instance : DecidablePred IsBare := fun word =>
  decidable_of_iff (word.take 2 = "0x".toList ∧ (word.drop 2).length = 8 ∧ (word.drop 2).all isHexDigit = true) <| by
    rw [List.all_eq_true]
    constructor
    · rintro ⟨mark, eight, hex⟩
      exact ⟨word.drop 2, by rw [← mark, List.take_append_drop], eight, hex⟩
    · rintro ⟨digits, rfl, eight, hex⟩
      exact ⟨rfl, eight, hex⟩

/-- A word begins or ends between the two texts. -/
def Boundary (before after : Text) : Prop := endsInWord before ≠ beginsInWord after

instance (before after : Text) : Decidable (Boundary before after) := inferInstanceAs (Decidable (_ ≠ _))

/-- What the search looks for: a bare literal from one boundary to another. -/
structure Match (before word after : Text) : Prop where
  begins : Boundary before (word ++ after)
  bare : IsBare word
  ends : Boundary (before ++ word) after

instance (before word after : Text) : Decidable (Match before word after) :=
  decidable_of_iff (Boundary before (word ++ after) ∧ IsBare word ∧ Boundary (before ++ word) after)
    ⟨fun ⟨begins, bare, ends⟩ => ⟨begins, bare, ends⟩, fun ⟨begins, bare, ends⟩ => ⟨begins, bare, ends⟩⟩

/-- Searches from the left, with `before` passed already, and appends the suffix to each match. The search goes on
behind the match. -/
def replaceFrom (before : Text) : Text → Text
  | [] => []
  | c :: rest =>
    let word := (c :: rest).take bareLength
    let after := (c :: rest).drop bareLength
    if Match before word after then word ++ longSuffix ++ replaceFrom (before ++ word) after
    else c :: replaceFrom (before ++ [c]) rest
termination_by text => text.length
decreasing_by
  · simp only [bareLength, List.length_drop, List.length_cons]
    omega
  · exact Nat.lt_succ_self _

section Matches

variable {before word after : Text}

theorem IsBare.length (bare : IsBare word) : word.length = bareLength := by
  obtain ⟨digits, rfl, eight, _⟩ := bare
  rw [List.length_append, eight]
  rfl

theorem IsBare.beginsInWord_append (bare : IsBare word) (after : Text) : beginsInWord (word ++ after) = true := by
  obtain ⟨digits, rfl, _⟩ := bare
  exact (by decide : isWordChar '0' = true)

theorem IsBare.endsInWord_append (bare : IsBare word) (before : Text) : endsInWord (before ++ word) = true := by
  rcases List.eq_nil_or_concat word with rfl | ⟨front, c, rfl⟩
  · cases bare.length
  · rw [List.concat_eq_append, ← List.append_assoc, endsInWord_concat]
    exact bare.inside c (by simp)

/-- With word characters at both of its ends, a literal has its boundaries where no word goes on. -/
theorem match_iff : Match before word after ↔ Delimited before after ∧ IsBare word := by
  constructor
  · rintro ⟨begins, bare, ends⟩
    rw [Boundary, bare.beginsInWord_append] at begins
    rw [Boundary, bare.endsInWord_append] at ends
    exact ⟨⟨by simpa using begins, by simpa using ends.symm⟩, bare⟩
  · rintro ⟨delimited, bare⟩
    refine ⟨?_, bare, ?_⟩
    · rw [Boundary, bare.beginsInWord_append, delimited.left]
      exact Bool.false_ne_true
    · rw [Boundary, bare.endsInWord_append, delimited.right]
      exact Bool.false_ne_true.symm

theorem IsBare.take_append (bare : IsBare word) (after : Text) : (word ++ after).take bareLength = word := by
  rw [← bare.length, List.take_left]

theorem IsBare.drop_append (bare : IsBare word) (after : Text) : (word ++ after).drop bareLength = after := by
  rw [← bare.length, List.drop_left]

end Matches

section Search

/-- What is known of the word under way behind `before` when it holds no more match. -/
def carried (before : Text) : Progress := if endsInWord before then .differs else .start

theorem suffix_carried (before : Text) : (carried before).suffix = [] := by
  unfold carried
  split <;> rfl

theorem suffixFrom_carried (before : Text) {after : Text} (space : beginsInWord after = false) :
    suffixFrom (carried before) after = suffixLiterals after := by
  have ended := suffixFrom_append (carried before) [] space
  rwa [suffixFrom, suffix_carried] at ended

theorem exists_word (text : Text) :
    ∃ word after, text = word ++ after ∧ (∀ c ∈ word, isWordChar c = true) ∧ beginsInWord after = false := by
  induction text with
  | nil => exact ⟨[], [], rfl, List.forall_mem_nil _, rfl⟩
  | cons c rest ih =>
    cases kind : isWordChar c with
    | true =>
      obtain ⟨word, after, rfl, inside, ended⟩ := ih
      exact ⟨c :: word, after, rfl, List.forall_mem_cons.mpr ⟨kind, inside⟩, ended⟩
    | false => exact ⟨[], c :: rest, rfl, List.forall_mem_nil _, kind⟩

/-- Once the word that a text begins with is known not to be bare, it is another word. -/
theorem suffixFrom_differs {text : Text}
    (other : ∀ word after, text = word ++ after → beginsInWord after = false → ¬ IsBare word) :
    suffixFrom .differs text = suffixLiterals text := by
  obtain ⟨word, after, rfl, inside, ended⟩ := exists_word text
  have kept : suffixFrom .differs word = word := by
    rw [suffixFrom_word _ inside, foldl_extend_differs]
    exact List.append_nil word
  rw [suffixFrom_append _ _ ended, kept, suffixLiterals_append (.inr ended), suffixLiterals_other inside (other _ _ rfl ended)]

/-- Of a word that has begun, the search keeps only that it is no match. -/
theorem replaceFrom_eq (before text : Text) : replaceFrom before text = suffixFrom (carried before) text := by
  fun_induction replaceFrom before text with
  | case1 before => exact (suffix_carried before).symm
  | case2 before c rest word after found ih =>
    obtain ⟨⟨left, right⟩, bare⟩ := match_iff.mp found
    have whole : c :: rest = word ++ after := (List.take_append_drop bareLength _).symm
    have fresh : carried before = .start := if_neg (by simp [left])
    rw [ih, suffixFrom_carried _ right, whole, fresh, ← suffixLiterals, suffixLiterals_append (.inr right),
      suffixLiterals_bare bare]
  | case3 before c rest word after missed ih =>
    have passed : carried (before ++ [c]) = if isWordChar c then .differs else .start := by rw [carried, endsInWord_concat]
    rw [ih, passed]
    cases kind : isWordChar c with
    | false => rw [suffixFrom, kind, suffix_carried]; rfl
    | true =>
      have differs : suffixFrom .differs (c :: rest) = c :: suffixFrom .differs rest := by
        rw [suffixFrom, if_pos kind]
        rfl
      rw [if_pos rfl, ← differs]
      cases left : endsInWord before with
      | true => rw [carried, if_pos left]
      | false =>
        -- A bare word that begins here would have been a match.
        rw [carried, if_neg (by simp [left])]
        refine suffixFrom_differs fun word' after' cut right bare => missed ?_
        have word_eq : word = word' := by simp only [word, cut, bare.take_append]
        have after_eq : after = after' := by simp only [after, cut, bare.drop_append]
        rw [word_eq, after_eq]
        exact match_iff.mpr ⟨⟨left, right⟩, bare⟩

theorem replaceFrom_nil (text : Text) : replaceFrom [] text = suffixLiterals text := replaceFrom_eq [] text

/-- Without a match the search passes everything. -/
theorem replaceFrom_of_no_match {before text : Text}
    (unmatched : ∀ front word after, text = front ++ word ++ after → ¬ Match (before ++ front) word after) :
    replaceFrom before text = text := by
  fun_induction replaceFrom before text with
  | case1 => rfl
  | case2 before c rest word after found ih =>
    have whole : c :: rest = [] ++ word ++ after := (List.take_append_drop bareLength _).symm
    exact absurd (by rwa [List.append_nil]) (unmatched [] word after whole)
  | case3 before c rest word after missed ih =>
    rw [ih]
    intro front word after cut found
    have further : c :: rest = (c :: front) ++ word ++ after := congrArg (List.cons c) cut
    exact unmatched _ _ _ further (by rwa [List.append_assoc] at found)

end Search

section Borrowed

theorem length_longSuffix : longSuffix.length = 1 := rfl

theorem bareFrom_eq_false_iff (progress : Progress) (text : Text) :
    bareFrom progress text = false ↔ suffixFrom progress text = text := by
  induction text generalizing progress with
  | nil =>
    unfold bareFrom suffixFrom Progress.suffix
    cases progress.isBare <;> decide
  | cons c rest ih =>
    unfold bareFrom suffixFrom
    split
    · rw [ih, List.cons.injEq, and_iff_right rfl]
    · unfold Progress.suffix
      cases progress.isBare with
      | false => rw [Bool.false_or, ih, if_neg Bool.false_ne_true, List.nil_append, List.cons.injEq, and_iff_right rfl]
      | true =>
        constructor
        · intro free
          cases free
        · intro same
          have longer := congrArg List.length same
          have later := length_le_suffixFrom .start rest
          simp only [if_true, List.length_append, List.length_cons, length_longSuffix] at longer
          omega

theorem hasBare_eq_false_iff {text : Text} : hasBare text = false ↔ suffixLiterals text = text :=
  bareFrom_eq_false_iff .start text

end Borrowed

section Runs

/-- Whether both are word characters, or neither is. -/
def sameKind (c d : Char) : Bool := isWordChar c == isWordChar d

/-- The text in pieces, cut where a word begins or ends. -/
def runs (text : Text) : List Text := text.splitBy sameKind

/-- A text cut into runs of word characters and runs of others, none of them empty and each as long as
it can be. -/
structure MaximalRuns (text : Text) (cut : List Text) : Prop where
  whole : cut.flatten = text
  nonempty : [] ∉ cut
  uniform : ∀ run ∈ cut, ∃ kind, ∀ c ∈ run, isWordChar c = kind
  apart : cut.IsChain Boundary

theorem isChain_sameKind_iff {run : Text} :
    (run.IsChain fun c d => sameKind c d = true) ↔ ∃ kind, ∀ c ∈ run, isWordChar c = kind := by
  constructor
  · intro chain
    cases run with
    | nil => exact ⟨false, List.forall_mem_nil _⟩
    | cons c rest =>
      have alike : Trans (fun c d => sameKind c d = true) (fun c d => sameKind c d = true) fun c d => sameKind c d = true :=
        ⟨fun first second => beq_iff_eq.mpr ((beq_iff_eq.mp first).trans (beq_iff_eq.mp second))⟩
      have later := (List.pairwise_cons.mp (List.isChain_iff_pairwise.mp chain)).1
      exact ⟨isWordChar c, List.forall_mem_cons.mpr ⟨rfl, fun d member => (beq_iff_eq.mp (later d member)).symm⟩⟩
  · rintro ⟨kind, same⟩
    refine List.Pairwise.isChain (List.pairwise_of_forall_mem_list fun c first d second => ?_)
    exact beq_iff_eq.mpr ((same c first).trans (same d second).symm)

theorem maximalRuns_iff {text : Text} {cut : List Text} : MaximalRuns text cut ↔ runs text = cut := by
  have apart_iff (nonempty : [] ∉ cut) : cut.IsChain Boundary ↔
      cut.IsChain fun run later => ∃ filled filled', sameKind (run.getLast filled) (later.head filled') = false := by
    refine List.IsChain.iff_of_mem_imp fun run later first second => ?_
    rcases List.eq_nil_or_concat run with rfl | ⟨front, c, rfl⟩
    · exact absurd first nonempty
    · cases later with
      | nil => exact absurd second nonempty
      | cons d rest => simp [Boundary, sameKind, List.concat_eq_append]
  rw [runs, List.splitBy_eq_iff]
  constructor
  · rintro ⟨whole, nonempty, uniform, apart⟩
    exact ⟨whole.symm, nonempty, fun run member => isChain_sameKind_iff.mpr (uniform run member), (apart_iff nonempty).mp apart⟩
  · rintro ⟨whole, nonempty, uniform, apart⟩
    exact ⟨whole.symm, nonempty, fun run member => isChain_sameKind_iff.mp (uniform run member), (apart_iff nonempty).mpr apart⟩

/-- A word that is a bare literal gets the suffix. -/
def suffixRun (run : Text) : Text := if IsBare run then run ++ longSuffix else run

theorem suffixLiterals_spaces {run : Text} (outside : ∀ c ∈ run, isWordChar c = false) : suffixLiterals run = run := by
  induction run with
  | nil => rfl
  | cons c rest ih =>
    obtain ⟨first, later⟩ := List.forall_mem_cons.mp outside
    rw [suffixLiterals_cons_space first, ih later]

theorem suffixLiterals_uniform {run : Text} (uniform : ∃ kind, ∀ c ∈ run, isWordChar c = kind) :
    suffixLiterals run = suffixRun run := by
  unfold suffixRun
  split
  next bare => exact suffixLiterals_bare bare
  next other =>
    obtain ⟨kind, same⟩ := uniform
    cases kind with
    | true => exact suffixLiterals_other same other
    | false => exact suffixLiterals_spaces same

theorem Boundary.seam {run later : Text} (boundary : Boundary run later) (nonempty : later ≠ []) (rest : Text) :
    Seam run (later ++ rest) := by
  obtain ⟨c, later, rfl⟩ := List.exists_cons_of_ne_nil nonempty
  unfold Boundary at boundary
  unfold Seam
  rw [beginsInWord_cons] at boundary
  rw [List.cons_append, beginsInWord_cons]
  cases ends : endsInWord run with
  | false => exact .inl rfl
  | true =>
    rw [ends] at boundary
    exact .inr (by simpa using boundary.symm)

/-- Beside each other the pieces are rewritten as they are alone. -/
theorem suffixLiterals_flatten {cut : List Text} (nonempty : [] ∉ cut)
    (uniform : ∀ run ∈ cut, ∃ kind, ∀ c ∈ run, isWordChar c = kind) (apart : cut.IsChain Boundary) :
    suffixLiterals cut.flatten = cut.flatMap suffixRun := by
  induction cut with
  | nil => rfl
  | cons run later ih =>
    obtain ⟨first, others⟩ := List.forall_mem_cons.mp uniform
    have seam : Seam run later.flatten := by
      cases later with
      | nil => exact .inr rfl
      | cons next rest =>
        have boundary : Boundary run next := (List.isChain_cons_cons.mp apart).1
        exact boundary.seam (fun empty => nonempty (by simp [empty])) rest.flatten
    rw [List.flatten_cons, List.flatMap_cons, suffixLiterals_append seam, suffixLiterals_uniform first,
      ih (fun member => nonempty (List.mem_cons_of_mem _ member)) others apart.tail]

theorem length_flatten_le (cut : List Text) : cut.flatten.length ≤ (cut.flatMap suffixRun).length := by
  induction cut with
  | nil => exact Nat.le_refl _
  | cons run later ih =>
    have first : run.length ≤ (suffixRun run).length := by
      unfold suffixRun
      split
      · simp
      · exact Nat.le_refl _
    simp only [List.flatten_cons, List.flatMap_cons, List.length_append]
    omega

theorem flatMap_suffixRun_eq_iff {cut : List Text} :
    cut.flatMap suffixRun = cut.flatten ↔ ∀ run ∈ cut, ¬ IsBare run := by
  induction cut with
  | nil => simp
  | cons run later ih =>
    rw [List.flatMap_cons, List.flatten_cons, List.forall_mem_cons, suffixRun]
    split
    next bare =>
      refine ⟨fun same => ?_, fun others => absurd bare others.1⟩
      have longer := congrArg List.length same
      have rest := length_flatten_le later
      simp only [List.length_append, length_longSuffix] at longer
      omega
    next other => rw [List.append_cancel_left_eq, ih, and_iff_right other]

end Runs

/-- The rewrite is a search from the left for bare literals between word boundaries, and it is a reading of the
text by its maximal runs, of which there is one cut only: a run that is a bare literal gets the suffix and
all others stay. A text passes for one without literals exactly if no run is one, exactly if it stays as
it is, and exactly if nothing matches. -/
theorem suffixLiterals_by_runs (text : Text) :
    MaximalRuns text (runs text) ∧ (∀ cut, MaximalRuns text cut → cut = runs text) ∧
    replaceFrom [] text = (runs text).flatMap suffixRun ∧
    suffixLiterals text = (runs text).flatMap suffixRun ∧
    (hasBare text = false ↔ ∀ run ∈ runs text, ¬ IsBare run) ∧
    (hasBare text = false ↔ suffixLiterals text = text) ∧
    (hasBare text = false ↔ ∀ before word after, text = before ++ word ++ after → ¬ Match before word after) := by
  have maximal : MaximalRuns text (runs text) := maximalRuns_iff.mpr rfl
  have rewritten : suffixLiterals text = (runs text).flatMap suffixRun := by
    have cut := suffixLiterals_flatten maximal.nonempty maximal.uniform maximal.apart
    rwa [maximal.whole] at cut
  have fixed : suffixLiterals text = text ↔ ∀ run ∈ runs text, ¬ IsBare run := by
    rw [rewritten, ← flatMap_suffixRun_eq_iff, maximal.whole]
  refine ⟨maximal, fun cut other => (maximalRuns_iff.mp other).symm, (replaceFrom_nil text).trans rewritten, rewritten,
    hasBare_eq_false_iff.trans fixed, hasBare_eq_false_iff, hasBare_eq_false_iff.trans ⟨?_, ?_⟩⟩
  · rintro same before word after rfl found
    obtain ⟨delimited, bare⟩ := match_iff.mp found
    exact not_bare_of_fixed same delimited bare
  · intro unmatched
    exact (replaceFrom_nil text).symm.trans (replaceFrom_of_no_match unmatched)

/-- An accent belongs to the word before it, so that is no literal. -/
theorem suffixLiterals_by_runs_of_accented :
    let text := "0x12345678\u0301 0xdeadBEEF,x0x12345678\n0x00000000".toList
    let cut := ["0x12345678\u0301", " ", "0xdeadBEEF", ",", "x0x12345678", "\n", "0x00000000"].map String.toList
    MaximalRuns text cut ∧ cut = runs text ∧
    suffixLiterals text = "0x12345678\u0301 0xdeadBEEFL,x0x12345678\n0x00000000L".toList ∧ hasBare text = true := by
  intro text cut
  obtain ⟨_, unique, _, rewritten, borrowed, _⟩ := suffixLiterals_by_runs text
  have maximal : MaximalRuns text cut := maximalRuns_iff.mpr (by decide +kernel)
  have same := unique cut maximal
  refine ⟨maximal, same, ?_, ?_⟩
  · rw [rewritten, ← same]
    decide +kernel
  · have literal : ¬ ∀ run ∈ runs text, ¬ IsBare run := by
      rw [← same]
      decide +kernel
    exact Bool.not_eq_false _ |>.mp fun free => literal (borrowed.mp free)

end HeaderKeys
