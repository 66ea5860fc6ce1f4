/-! Text as a list of code points, and the list functions that everything else is
written with: does a word occur, where does a text come apart, how is it joined.
`splitAfter` loses nothing (`flatten_splitAfter`), so a file is its lines. -/

namespace HeaderKeys

/-- Code points in reading order. `String` appears only where text enters or leaves. -/
abbrev Text := List Char

/-- Bytes of a file, a name or a path. -/
abbrev Bytes := List UInt8

variable {α : Type}

def occurs [BEq α] (word : List α) : List α → Bool
  | [] => word.isEmpty
  | c :: rest => word.isPrefixOf (c :: rest) || occurs word rest

theorem occurs_iff [BEq α] [LawfulBEq α] {word text : List α} :
    occurs word text = true ↔ ∃ before after, text = before ++ word ++ after := by
  induction text with
  | nil => simp [occurs]
  | cons c rest ih =>
    simp only [occurs, Bool.or_eq_true, List.isPrefixOf_iff_prefix, ih]
    constructor
    · rintro (⟨after, same⟩ | ⟨before, after, same⟩)
      · exact ⟨[], after, by simpa using same.symm⟩
      · exact ⟨c :: before, after, by simp [same]⟩
    · rintro ⟨before, after, same⟩
      cases before with
      | nil => exact .inl ⟨after, by simpa using same.symm⟩
      | cons d before =>
        simp only [List.cons_append, List.cons.injEq] at same
        exact .inr ⟨before, after, by simp [same.2]⟩

/-- Cuts behind every `stop`, so each piece but possibly the last ends with one. -/
def splitAfter [BEq α] (stop : α) : List α → List (List α)
  | [] => []
  | c :: rest =>
    if c == stop then [c] :: splitAfter stop rest
    else match splitAfter stop rest with
      | [] => [[c]]
      | piece :: pieces => (c :: piece) :: pieces

@[simp] theorem flatten_splitAfter [BEq α] (stop : α) (items : List α) :
    (splitAfter stop items).flatten = items := by
  induction items with
  | nil => rfl
  | cons c rest ih =>
    simp only [splitAfter]
    split
    · simp [ih]
    · split
      next none => simp [none] at ih; simp [ih]
      next piece pieces some => simp [some] at ih; simp [ih]

/-- Cuts at every `stop` and drops it; there is always one piece more than there are stops. -/
def piecesBetween [BEq α] (stop : α) : List α → List (List α)
  | [] => [[]]
  | c :: rest =>
    if c == stop then [] :: piecesBetween stop rest
    else match piecesBetween stop rest with
      | [] => [[c]]
      | piece :: pieces => (c :: piece) :: pieces

def joinWith (gap : List α) : List (List α) → List α
  | [] => []
  | [piece] => piece
  | piece :: next :: pieces => piece ++ gap ++ joinWith gap (next :: pieces)

theorem piecesBetween_ne_nil [BEq α] (stop : α) (items : List α) : piecesBetween stop items ≠ [] := by
  cases items with
  | nil => simp [piecesBetween]
  | cons c rest =>
    simp only [piecesBetween]
    split
    · simp
    · split <;> simp

@[simp] theorem joinWith_piecesBetween [BEq α] [LawfulBEq α] (stop : α) (items : List α) :
    joinWith [stop] (piecesBetween stop items) = items := by
  induction items with
  | nil => rfl
  | cons c rest ih =>
    simp only [piecesBetween]
    split
    next same =>
      cases pieces : piecesBetween stop rest with
      | nil => exact absurd pieces (piecesBetween_ne_nil stop rest)
      | cons piece more => simp [pieces] at ih; simp [joinWith, ih, eq_of_beq same]
    · split
      next none => simp [none, joinWith] at ih; simp [joinWith, ih]
      next piece pieces some =>
        rw [some] at ih
        cases pieces <;> simp_all [joinWith]

theorem joinWith_append (gap : List α) (front back : List (List α)) :
    ∃ rest, joinWith gap (front ++ back) = joinWith gap front ++ rest ∧
      (joinWith gap back).length ≤ rest.length := by
  induction front with
  | nil => exact ⟨joinWith gap back, by simp [joinWith]⟩
  | cons piece front ih =>
    obtain ⟨rest, same, bound⟩ := ih
    cases front with
    | nil =>
      cases back with
      | nil => exact ⟨[], by simp [joinWith]⟩
      | cons next back => exact ⟨gap ++ joinWith gap (next :: back), by simp [joinWith]⟩
    | cons next front =>
      refine ⟨rest, ?_, bound⟩
      simpa [joinWith] using same

namespace Text

/-- Lines with their line breaks; a last line may lack one. -/
def lines (text : Text) : List Text := splitAfter '\n' text

def withoutReturn (line : Text) : Text := if line.getLast? = some '\r' then line.dropLast else line

/-- The lines that a reader sees. A carriage return directly before a line break belongs
to the break. -/
def shownLines (text : Text) : List Text := (piecesBetween '\n' text).map withoutReturn

def ofNat (n : Nat) : Text := Nat.toDigits 10 n

def ofInt : Int → Text
  | .ofNat n => ofNat n
  | .negSucc n => '-' :: ofNat (n + 1)

def quoted (text : Text) : Text := "'".toList ++ text ++ "'".toList

def bracketed (items : List Text) : Text := '[' :: joinWith [',', ' '] items ++ [']']

end Text

end HeaderKeys
