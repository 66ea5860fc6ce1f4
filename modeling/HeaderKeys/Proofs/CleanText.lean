import HeaderKeys.CommandLine.Run

/-! Text without control characters. Logs and reports show it as it is and in one line. If a path
is shown as such text, then so is its parent. -/

namespace HeaderKeys

/-- Whether a text holds no control character, neither of ASCII nor of those right behind it. -/
def Text.isClean (text : Text) : Bool := text.all fun c => !(Terminal.isControl c || ('\x80' ≤ c && c ≤ '\x9f'))

namespace Text

theorem isClean_append (a b : Text) : (a ++ b).isClean = (a.isClean && b.isClean) := List.all_append

theorem isClean_of_parts {a b : Text} (front : a.isClean = true) (back : b.isClean = true) : isClean (a ++ b) = true := by
  rw [isClean_append, front, back, Bool.and_self]

theorem isClean_joinWith {gap : Text} (apart : gap.isClean = true) {pieces : List Text}
    (clean : ∀ piece ∈ pieces, piece.isClean = true) : isClean (joinWith gap pieces) = true := by
  induction pieces with
  | nil => rfl
  | cons piece pieces ih =>
    obtain ⟨here, later⟩ := List.forall_mem_cons.mp clean
    cases pieces with
    | nil => exact here
    | cons next pieces => simp only [joinWith, isClean_append, here, apart, ih later, Bool.and_self]

theorem not_mem_of_isClean {text : Text} (clean : text.isClean = true) {c : Char} (control : Terminal.isControl c = true) :
    c ∉ text := by
  intro member
  have plain := List.all_eq_true.mp clean c member
  simp [control] at plain

theorem not_isHarmful_of_isClean {text : Text} (clean : text.isClean = true) {c : Char} (member : c ∈ text) :
    Terminal.isHarmful c = false := by
  have ascii : ∀ d : Char, Terminal.isControl d = true → c ≠ d := by
    rintro d control rfl
    exact not_mem_of_isClean clean control member
  have behind := List.all_eq_true.mp clean c member
  simp only [Bool.not_eq_true', Bool.or_eq_false_iff] at behind
  simp only [Terminal.isHarmful, Bool.or_eq_false_iff, beq_eq_false_iff_ne]
  exact ⟨⟨⟨⟨⟨ascii _ (by decide), ascii _ (by decide)⟩, ascii _ (by decide)⟩, ascii _ (by decide)⟩, ascii _ (by decide)⟩,
    behind.2⟩

theorem spelled_of_isClean {text : Text} (clean : text.isClean = true) : Terminal.spelled text = text :=
  Terminal.spelled_eq_self fun _ member => not_isHarmful_of_isClean clean member

end Text

theorem piecesBetween_of_not_mem {α : Type} [BEq α] [LawfulBEq α] {stop : α} {items : List α} (absent : stop ∉ items) :
    piecesBetween stop items = [items] := by
  induction items with
  | nil => rfl
  | cons c rest ih =>
    have other : (c == stop) = false := beq_false_of_ne fun same => absent (same ▸ List.mem_cons_self)
    have later : stop ∉ rest := fun member => absent (List.mem_cons_of_mem _ member)
    simp [piecesBetween, other, ih later]

/-- Clean text is a single line. -/
theorem Text.shownLines_of_isClean {text : Text} (clean : text.isClean = true) : text.shownLines = [text] := by
  have noBreak : '\n' ∉ text := not_mem_of_isClean clean (by decide)
  have noReturn : text.getLast? ≠ some '\r' :=
    fun last => not_mem_of_isClean clean (by decide) (List.mem_of_getLast? last)
  rw [shownLines, piecesBetween_of_not_mem noBreak, List.map_singleton, withoutReturn, if_neg noReturn]

theorem Event.shownLines_of_isClean {event : Event} (clean : event.message.isClean = true) :
    event.line.shownLines = [event.level.name ++ " ".toList ++ event.message] := by
  have level : (event.level.name ++ " ".toList).isClean = true := by cases event.level <;> decide
  rw [Event.line, Text.spelled_of_isClean clean]
  exact Text.shownLines_of_isClean (by rw [Text.isClean_append, level, clean, Bool.and_self])

theorem CommandLine.Trouble.labelled_of_isClean {text : Text} (clean : text.isClean = true) (label indent : Text) :
    labelled label indent text = [label ++ text] := by
  rw [labelled, Text.shownLines_of_isClean clean]
  rfl

/-- What bytes are read as, they are read as in front of others, but for a replacement where they
break off. -/
theorem Utf8.mem_decodeFrom_append {state : Option Pending} {front : Bytes} (back : Bytes) {c : Char}
    (member : c ∈ decodeFrom state front) : c = replacement ∨ c ∈ decodeFrom state (front ++ back) := by
  induction front generalizing state with
  | nil => cases state <;> simp_all [decodeFrom]
  | cons b front ih =>
    simp only [decodeFrom, List.cons_append, List.mem_append] at member ⊢
    rcases member with here | later
    · exact .inr (.inl here)
    · exact (ih later).imp id .inr

namespace Path

theorem isClean_display_of_prefix {front whole : Path} (begins : front <+: whole) (clean : whole.display.isClean = true) :
    front.display.isClean = true := by
  obtain ⟨back, rfl⟩ := begins
  refine List.all_eq_true.mpr fun c member => ?_
  rcases Utf8.mem_decodeFrom_append back member with rfl | kept
  · decide
  · exact List.all_eq_true.mp clean c kept

theorem prefix_trimmed (pieces : List Name) : trimmed pieces <+: pieces := by
  have kept := (List.dropWhile_suffix (l := pieces.reverse) isBlank).reverse
  rwa [List.reverse_reverse] at kept

theorem prefix_joinWith (gap : Bytes) {front whole : List Name} (begins : front <+: whole) :
    joinWith gap front <+: joinWith gap whole := by
  obtain ⟨back, rfl⟩ := begins
  obtain ⟨rest, same, _⟩ := joinWith_append gap front back
  exact ⟨rest, same.symm⟩

/-- A parent is spelled as the path begins. -/
theorem prefix_of_parent? {path parent : Path} (found : path.parent? = some parent) : parent <+: path := by
  unfold parent? at found
  split at found
  · split at found
    · cases found
      exact List.nil_prefix
    · cases found
  next pieces nonempty =>
    cases found
    have begins := ((prefix_trimmed (trimmed path.start.2).dropLast).trans (List.dropLast_prefix _)).trans
      (prefix_trimmed path.start.2)
    have joined := (List.prefix_append_right_inj path.start.1).mpr (prefix_joinWith [slash] begins)
    rwa [append_join_start] at joined

end Path

end HeaderKeys
