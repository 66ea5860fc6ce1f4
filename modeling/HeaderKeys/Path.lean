import HeaderKeys.Text.Utf8

/-! Paths as the bytes that were given, and what can be read off them without looking at
any file: their pieces, their parent and their last name. A shown path is its lossy
text. The parent keeps the spelling of what stands before the last name. -/

namespace HeaderKeys

abbrev Name := Bytes

/-- A path as it was written. -/
abbrev Path := Bytes

namespace Path

def slash : UInt8 := 0x2F

def here : Name := [0x2E]

def above : Name := [0x2E, 0x2E]

def ofText (text : Text) : Path := Utf8.encode text

def display (path : Path) : Text := Utf8.decode path

def isAbsolute (path : Path) : Bool := path.head? == some slash

def endsInSlash (path : Path) : Bool := path.getLast? == some slash

/-- The names that lead from the start of the path to its end. -/
def names (path : Path) : List Name := (piecesBetween slash path).filter (· ≠ [])

/-- The start of the path as far as it says where to begin: the root, the current
directory spelled out, or nothing; and the pieces behind it. -/
def start (path : Path) : Path × List Name :=
  match path with
  | [] => ([], [])
  | first :: rest =>
    if first = slash then ([slash], piecesBetween slash rest)
    else if [first] = here ∧ (rest = [] ∨ rest.head? = some slash) then (here, piecesBetween slash rest)
    else ([], piecesBetween slash path)

def isBlank (piece : Name) : Bool := piece = [] || piece = here

/-- The pieces without blank ones at the end. -/
def trimmed (pieces : List Name) : List Name := (pieces.reverse.dropWhile isBlank).reverse

/-- The path without its last name. The root and the empty path have no parent; the
parent of a single name is empty. -/
def parent? (path : Path) : Option Path :=
  match trimmed path.start.2 with
  | [] => if path.start.1 = here then some [] else none
  | pieces => some (path.start.1 ++ joinWith [slash] (trimmed pieces.dropLast))

theorem append_join_start (path : Path) :
    path.start.1 ++ joinWith [slash] path.start.2 = path := by
  unfold start
  split
  · rfl
  · split
    next same => simp [same]
    · split
      next spelled => simp [← spelled.1]
      · simp

private theorem trimmed_append (pieces : List Name) : ∃ blanks, pieces = trimmed pieces ++ blanks := by
  refine ⟨(pieces.reverse.takeWhile isBlank).reverse, ?_⟩
  rw [trimmed, ← List.reverse_append, List.takeWhile_append_dropWhile, List.reverse_reverse]

private theorem last_of_trimmed {pieces init : List Name} {last : Name}
    (same : trimmed pieces = init ++ [last]) : isBlank last = false := by
  have : pieces.reverse.dropWhile isBlank = last :: init.reverse := by
    simpa [trimmed] using congrArg List.reverse same
  have kept := List.head?_dropWhile_not isBlank pieces.reverse
  simpa [this] using kept

/-- A parent is a shorter path, so going up from a path ends. -/
theorem length_parent?_lt {path parent : Path} (found : path.parent? = some parent) :
    parent.length < path.length := by
  have whole := append_join_start path
  unfold parent? at found
  split at found
  next none =>
    split at found
    next spelled =>
      cases found
      rw [← whole, spelled]
      simp [here]
    · cases found
  next pieces nonempty =>
    cases found
    obtain ⟨blanks, split⟩ := trimmed_append path.start.2
    obtain ⟨trailing, shorter⟩ := trimmed_append (trimmed path.start.2).dropLast
    have lastly := (List.dropLast_concat_getLast nonempty).symm
    have nonblank := last_of_trimmed lastly
    generalize trimmed path.start.2 = kept at *
    have some : (kept.getLast nonempty).length ≠ 0 := by
      intro none
      have : kept.getLast nonempty = [] := List.eq_nil_of_length_eq_zero none
      simp [this, isBlank] at nonblank
    obtain ⟨a, sameA, _⟩ := joinWith_append [slash] (trimmed kept.dropLast) trailing
    obtain ⟨b, sameB, more⟩ := joinWith_append [slash] kept.dropLast [kept.getLast nonempty]
    obtain ⟨c, sameC, _⟩ := joinWith_append [slash] kept blanks
    rw [← shorter] at sameA
    rw [← lastly] at sameB
    rw [← split] at sameC
    have length := congrArg List.length whole
    simp only [List.length_append, sameC, sameB, sameA] at length
    simp only [joinWith] at more
    simp only [List.length_append]
    omega

/-- The last name, unless the path ends above or at its start. -/
def fileName? (path : Path) : Option Name :=
  (trimmed path.start.2).getLast?.filter (· ≠ above)

end Path

end HeaderKeys
