import HeaderKeys.Literal

/-! Bare literals as whole words. The rewrite follows a word one character at a time. Said at
once, a word is an unbroken run of word characters with none beside it, and it gets the suffix
exactly if it is `0x` with eight digits. A text may be cut wherever no word goes on: both sides
are then rewritten by themselves. -/

namespace HeaderKeys

open Literal

/-- Whether the first character may go on a word. -/
def beginsInWord (text : Text) : Bool := text.head?.any isWordChar

/-- Whether a word may go on behind the last character. -/
def endsInWord (text : Text) : Bool := text.getLast?.any isWordChar

/-- No word goes on from `a` into `b`. -/
def Seam (a b : Text) : Prop := endsInWord a = false ∨ beginsInWord b = false

/-- What stands between the two texts has no word character beside it. -/
structure Delimited (before after : Text) : Prop where
  left : endsInWord before = false
  right : beginsInWord after = false

/-- A run of word characters that is not part of a longer one. -/
structure WholeWord (before word after : Text) : Prop extends Delimited before after where
  nonempty : word ≠ []
  inside : ∀ c ∈ word, isWordChar c = true

/-- A literal that lacks its suffix: `0x` and eight digits. -/
def IsBare (word : Text) : Prop :=
  ∃ digits, word = "0x".toList ++ digits ∧ digits.length = 8 ∧ ∀ d ∈ digits, isHexDigit d = true

/-- A fact about hexadecimal digits need only be checked below 0x80. -/
theorem isHexDigit_ascii {c : Char} (digit : isHexDigit c = true) : ∃ n : Fin 128, c = Char.ofNat n := by
  simp only [isHexDigit, Bool.or_eq_true, Bool.and_eq_true, decide_eq_true_eq, Char.le_def, UInt32.le_iff_toNat_le] at digit
  have bounds : '9'.val.toNat = 57 ∧ 'f'.val.toNat = 102 ∧ 'F'.val.toNat = 70 := by decide
  rw [bounds.1, bounds.2.1, bounds.2.2] at digit
  have ascii : c.toNat < 128 := by
    change c.val.toNat < 128
    omega
  exact ⟨⟨c.toNat, ascii⟩, (Char.ofNat_toNat c).symm⟩

theorem isWordChar_of_isHexDigit {c : Char} (digit : isHexDigit c = true) : isWordChar c = true := by
  obtain ⟨n, rfl⟩ := isHexDigit_ascii digit
  have known : ∀ n : Fin 128, isHexDigit (Char.ofNat n) = true → isWordChar (Char.ofNat n) = true := by decide
  exact known n digit

theorem IsBare.inside {word : Text} (bare : IsBare word) : ∀ c ∈ word, isWordChar c = true := by
  obtain ⟨digits, rfl, _, hex⟩ := bare
  intro c member
  rcases List.mem_append.mp member with first | later
  · have known : "0x".toList.all isWordChar = true := by decide
    exact List.all_eq_true.mp known c first
  · exact isWordChar_of_isHexDigit (hex c later)

section Seams

@[simp] theorem beginsInWord_cons (c : Char) (rest : Text) : beginsInWord (c :: rest) = isWordChar c := rfl

@[simp] theorem endsInWord_concat (front : Text) (c : Char) : endsInWord (front ++ [c]) = isWordChar c := by
  simp [endsInWord]

theorem endsInWord_append {a b : Text} (first : endsInWord a = false) (second : endsInWord b = false) :
    endsInWord (a ++ b) = false := by
  rw [endsInWord, List.getLast?_append]
  rw [endsInWord] at first second
  cases last : b.getLast? with
  | none => exact first
  | some c =>
    rw [last] at second
    exact second

@[simp] theorem suffixLiterals_nil : suffixLiterals [] = [] := rfl

theorem suffixFrom_cons_space {c : Char} (space : isWordChar c = false) (progress : Progress) (rest : Text) :
    suffixFrom progress (c :: rest) = progress.suffix ++ c :: suffixLiterals rest := by
  have here : ¬ isWordChar c = true := by simp [space]
  rw [suffixFrom, if_neg here, suffixLiterals]

theorem suffixLiterals_cons_space {c : Char} (space : isWordChar c = false) (rest : Text) :
    suffixLiterals (c :: rest) = c :: suffixLiterals rest :=
  suffixFrom_cons_space space .start rest

theorem suffixFrom_append (progress : Progress) (a : Text) {b : Text} (space : beginsInWord b = false) :
    suffixFrom progress (a ++ b) = suffixFrom progress a ++ suffixLiterals b := by
  induction a generalizing progress with
  | nil =>
    cases b with
    | nil => exact (List.append_nil _).symm
    | cons c rest =>
      rw [beginsInWord_cons] at space
      rw [List.nil_append, suffixFrom_cons_space space, suffixLiterals_cons_space space, suffixFrom]
  | cons c rest ih =>
    simp only [List.cons_append, suffixFrom]
    split
    · rw [ih, List.cons_append]
    · rw [ih, List.append_assoc, List.cons_append]

theorem suffixLiterals_concat_space {c : Char} (space : isWordChar c = false) (front rest : Text) :
    suffixLiterals (front ++ c :: rest) = suffixLiterals front ++ c :: suffixLiterals rest := by
  have begins : beginsInWord (c :: rest) = false := space
  rw [suffixLiterals, suffixFrom_append _ _ begins, suffixLiterals_cons_space space]
  rfl

theorem shape_of_endsInWord {text : Text} (space : endsInWord text = false) :
    text = [] ∨ ∃ front c, text = front ++ [c] ∧ isWordChar c = false := by
  rcases List.eq_nil_or_concat text with none | ⟨front, c, last⟩
  · exact .inl none
  · rw [List.concat_eq_append] at last
    subst last
    exact .inr ⟨front, c, rfl, by simpa using space⟩

/-- The two sides of a seam are rewritten by themselves. -/
theorem suffixLiterals_append {a b : Text} (seam : Seam a b) :
    suffixLiterals (a ++ b) = suffixLiterals a ++ suffixLiterals b := by
  rcases seam with left | right
  · rcases shape_of_endsInWord left with rfl | ⟨front, c, rfl, space⟩
    · rfl
    · have alone := suffixLiterals_concat_space space front []
      rw [List.append_assoc, List.singleton_append, suffixLiterals_concat_space space, alone, List.append_assoc]
      rfl
  · exact suffixFrom_append .start a right

theorem suffixLiterals_between {before after : Text} (delimited : Delimited before after) (word : Text) :
    suffixLiterals (before ++ word ++ after) = suffixLiterals before ++ suffixLiterals word ++ suffixLiterals after := by
  rw [suffixLiterals_append (.inr delimited.right), suffixLiterals_append (.inl delimited.left)]

theorem Delimited.suffixed {before after : Text} (delimited : Delimited before after) :
    Delimited (suffixLiterals before) (suffixLiterals after) := by
  constructor
  · rcases shape_of_endsInWord delimited.left with rfl | ⟨front, c, rfl, space⟩
    · exact delimited.left
    · rw [suffixLiterals_concat_space space, suffixLiterals_nil, endsInWord_concat, space]
  · cases after with
    | nil => exact delimited.right
    | cons c rest =>
      have space : isWordChar c = false := delimited.right
      rw [suffixLiterals_cons_space space, beginsInWord_cons, space]

end Seams

section Words

theorem suffixFrom_word (progress : Progress) {word : Text} (inside : ∀ c ∈ word, isWordChar c = true) :
    suffixFrom progress word = word ++ (word.foldl Progress.extend progress).suffix := by
  induction word generalizing progress with
  | nil => rfl
  | cons c rest ih =>
    have later := ih (progress.extend c) fun d member => inside d (List.mem_cons_of_mem _ member)
    rw [suffixFrom, if_pos (inside c List.mem_cons_self), later]
    rfl

theorem foldl_extend_differs (word : Text) : word.foldl Progress.extend .differs = .differs := by
  induction word with
  | nil => rfl
  | cons c rest ih => exact ih

/-- A word stays bare so far as long as each character fits its place. -/
theorem foldl_extend_cons {position : Nat} {c : Char} {word : Text} :
    (c :: word).foldl Progress.extend (.agrees position) = .agrees bareLength ↔
      fits position c = true ∧ word.foldl Progress.extend (.agrees (position + 1)) = .agrees bareLength := by
  simp only [List.foldl_cons, Progress.extend]
  split
  next fitting => simp [fitting]
  next misfit => simp [misfit, foldl_extend_differs]

/-- Behind `0x` it is digits that fit, while there is room for them. -/
theorem foldl_extend_digits (position : Nat) (digits : Text) :
    digits.foldl Progress.extend (.agrees (position + 2)) = .agrees bareLength ↔
      position + 2 + digits.length = bareLength ∧ ∀ d ∈ digits, isHexDigit d = true := by
  induction digits generalizing position with
  | nil => simp
  | cons d digits ih =>
    have room : fits (position + 2) d = true ↔ position + 2 < bareLength ∧ isHexDigit d = true := by simp [fits]
    have later := ih (position + 1)
    rw [foldl_extend_cons, room, Nat.add_right_comm, later, List.length_cons, List.forall_mem_cons]
    constructor
    · rintro ⟨⟨_, first⟩, full, rest⟩
      exact ⟨by omega, first, rest⟩
    · rintro ⟨full, first, rest⟩
      exact ⟨⟨by omega, first⟩, by omega, rest⟩

/-- What the rewrite keeps of a word tells whether it is bare. -/
theorem foldl_extend_start {word : Text} : word.foldl Progress.extend .start = .agrees bareLength ↔ IsBare word := by
  constructor
  · intro agreed
    rcases word with _ | ⟨c, _ | ⟨d, digits⟩⟩
    · cases agreed
    · cases (foldl_extend_cons.mp agreed).2
    · obtain ⟨zero, agreed⟩ := foldl_extend_cons.mp agreed
      obtain ⟨mark, agreed⟩ := foldl_extend_cons.mp agreed
      obtain ⟨full, hex⟩ := (foldl_extend_digits 0 digits).mp agreed
      obtain rfl : c = '0' := by simpa [fits] using zero
      obtain rfl : d = 'x' := by simpa [fits] using mark
      exact ⟨digits, rfl, Nat.add_left_cancel full, hex⟩
  · rintro ⟨digits, rfl, eight, hex⟩
    exact (foldl_extend_digits 0 digits).mpr ⟨by rw [eight]; rfl, hex⟩

theorem suffixLiterals_bare {word : Text} (bare : IsBare word) : suffixLiterals word = word ++ longSuffix := by
  rw [suffixLiterals, suffixFrom_word _ bare.inside, foldl_extend_start.mpr bare]
  rfl

theorem suffixLiterals_other {word : Text} (inside : ∀ c ∈ word, isWordChar c = true) (other : ¬ IsBare word) :
    suffixLiterals word = word := by
  have differs : (word.foldl Progress.extend .start == .agrees bareLength) = false :=
    beq_false_of_ne fun same => other (foldl_extend_start.mp same)
  rw [suffixLiterals, suffixFrom_word _ inside, Progress.suffix, Progress.isBare, differs]
  exact List.append_nil word

theorem WholeWord.suffixed {before word after : Text} (whole : WholeWord before word after) :
    WholeWord (suffixLiterals before) (suffixLiterals word) (suffixLiterals after) := by
  refine ⟨whole.toDelimited.suffixed, ?_, ?_⟩
  · intro none
    have shape := suffixFrom_word .start whole.inside
    rw [← suffixLiterals, none] at shape
    exact whole.nonempty (List.append_eq_nil_iff.mp shape.symm).1
  · by_cases bare : IsBare word
    · have suffix : longSuffix.all isWordChar = true := by decide
      rw [suffixLiterals_bare bare]
      intro c member
      exact (List.mem_append.mp member).elim (whole.inside c) (List.all_eq_true.mp suffix c)
    · rw [suffixLiterals_other whole.inside bare]
      exact whole.inside

end Words

section Fixed

theorem suffixFrom_suffix (progress : Progress) : suffixFrom progress progress.suffix = progress.suffix := by
  unfold Progress.suffix
  split
  next bare =>
    rw [eq_of_beq bare]
    decide
  next other => exact if_neg other

/-- A suffix ends its literal, so the rewritten text has no literal left to rewrite. -/
theorem suffixFrom_suffixFrom (progress : Progress) (text : Text) :
    suffixFrom progress (suffixFrom progress text) = suffixFrom progress text := by
  induction text generalizing progress with
  | nil => exact suffixFrom_suffix progress
  | cons c rest ih =>
    simp only [suffixFrom]
    split
    next word => rw [suffixFrom, if_pos word, ih]
    next other =>
      have space : isWordChar c = false := by simpa using other
      have begins : beginsInWord (c :: suffixFrom .start rest) = false := space
      rw [suffixFrom_append _ _ begins, suffixFrom_suffix, suffixLiterals_cons_space space, suffixLiterals, ih]

theorem suffixLiterals_suffixLiterals (text : Text) : suffixLiterals (suffixLiterals text) = suffixLiterals text :=
  suffixFrom_suffixFrom .start text

theorem length_le_suffixFrom (progress : Progress) (text : Text) : text.length ≤ (suffixFrom progress text).length := by
  induction text generalizing progress with
  | nil => exact Nat.zero_le _
  | cons c rest ih =>
    simp only [suffixFrom]
    split
    · exact Nat.succ_le_succ (ih _)
    · have later := ih .start
      simp only [List.length_append, List.length_cons]
      omega

/-- A text that the rewrite leaves alone has no bare literal. -/
theorem not_bare_of_fixed {before word after : Text} (fixed : suffixLiterals (before ++ word ++ after) = before ++ word ++ after)
    (delimited : Delimited before after) : ¬ IsBare word := by
  intro bare
  have longer := congrArg List.length fixed
  rw [suffixLiterals_between delimited, suffixLiterals_bare bare] at longer
  have first := length_le_suffixFrom .start before
  have last := length_le_suffixFrom .start after
  simp only [suffixLiterals, List.length_append, longSuffix] at longer
  have one : "L".toList.length = 1 := rfl
  omega

end Fixed

end HeaderKeys
