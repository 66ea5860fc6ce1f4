import HeaderKeys.FileSystem.Lookup

/-! One step of a walk at a time: what each kind of piece does, and what a walk that arrives can
have met at its first piece. A walk to something that is there may be cut anywhere: what it arrives at
behind the cut does not depend on how it came there. -/

namespace HeaderKeys.FileSystem

/-- A piece that names an entry which a walk with this aim may ask for. -/
structure Named (aim : Aim) (piece : Name) (rest : List Name) : Prop where
  real : Path.isBlank piece = false
  down : piece ≠ Path.above
  allowed : ¬ (aim = .creation ∧ rest = [[]])
  short : ¬ nameLimit < piece.length

/-- What is there can be asked for whatever comes behind it. -/
theorem Named.existing {aim : Aim} {piece : Name} {rest : List Name} (named : Named aim piece rest) (later : List Name) :
    Named .existing piece later :=
  ⟨named.real, named.down, fun slash => by simp at slash, named.short⟩

/-- What stands at the first piece of a walk that arrives at `place`. -/
inductive Passed (fs : FileSystem) (aim : Aim) (follow : Location → List Name → Except IoError Location)
    (here : Location) (rest : List Name) (place : Location) : Name → Prop
  | blank {piece : Name} (blank : Path.isBlank piece = true) (later : fs.walkTo aim follow here rest = .ok place) :
      Passed fs aim follow here rest place piece
  | above (later : fs.walkTo aim follow here.dropLast rest = .ok place) :
      Passed fs aim follow here rest place Path.above
  | missing {piece : Name} (named : Named aim piece rest) (missing : fs.nodeAt (here ++ [piece]) = none)
      (creates : aim = .creation) (last : rest = []) (arrived : here ++ [piece] = place) :
      Passed fs aim follow here rest place piece
  | link {piece : Name} {target : Path} (named : Named aim piece rest)
      (link : fs.nodeAt (here ++ [piece]) = some (.link target))
      (later : follow (if target.isAbsolute then [] else here) (target.steps ++ rest) = .ok place) :
      Passed fs aim follow here rest place piece
  | node {piece : Name} {node : Node} (named : Named aim piece rest)
      (present : fs.nodeAt (here ++ [piece]) = some node) (noLink : ∀ target, node ≠ .link target)
      (later : fs.walkTo aim follow (here ++ [piece]) rest = .ok place) : Passed fs aim follow here rest place piece

section Steps

variable {fs : FileSystem} {aim : Aim} {follow : Location → List Name → Except IoError Location}
  {here : Location} {piece : Name} {rest : List Name}

theorem walkTo_blank (inside : fs.nodeAt here = some .directory) (blank : Path.isBlank piece = true) :
    fs.walkTo aim follow here (piece :: rest) = fs.walkTo aim follow here rest := by
  simp [walkTo, inside, blank]

theorem walkTo_above (inside : fs.nodeAt here = some .directory) :
    fs.walkTo aim follow here (Path.above :: rest) = fs.walkTo aim follow here.dropLast rest := by
  have real : Path.isBlank Path.above = false := by decide
  simp [walkTo, inside, real]

section Entry

variable (inside : fs.nodeAt here = some .directory) (named : Named aim piece rest)
include inside named

theorem walkTo_missing (missing : fs.nodeAt (here ++ [piece]) = none) :
    fs.walkTo aim follow here (piece :: rest) =
      if aim = .creation ∧ rest = [] then .ok (here ++ [piece]) else .error .noSuchEntry := by
  obtain ⟨real, down, allowed, short⟩ := named
  simp only [walkTo, inside, real, down, allowed, short, missing]
  simp

theorem walkTo_link {target : Path} (link : fs.nodeAt (here ++ [piece]) = some (.link target)) :
    fs.walkTo aim follow here (piece :: rest) = follow (if target.isAbsolute then [] else here) (target.steps ++ rest) := by
  obtain ⟨real, down, allowed, short⟩ := named
  simp only [walkTo, inside, real, down, allowed, short, link]
  simp

theorem walkTo_node {node : Node} (present : fs.nodeAt (here ++ [piece]) = some node) (noLink : ∀ target, node ≠ .link target) :
    fs.walkTo aim follow here (piece :: rest) = fs.walkTo aim follow (here ++ [piece]) rest := by
  obtain ⟨real, down, allowed, short⟩ := named
  simp only [walkTo, inside, real, down, allowed, short, present]
  cases node with
  | link target => exact absurd rfl (noLink target)
  | directory | file | faulty | sink => simp

end Entry

theorem walkTo_cons {place : Location} (found : fs.walkTo aim follow here (piece :: rest) = .ok place) :
    fs.nodeAt here = some .directory ∧ Passed fs aim follow here rest place piece := by
  have inside : fs.nodeAt here = some .directory := by
    apply Decidable.byContradiction
    intro outside
    simp [walkTo, outside] at found
  refine ⟨inside, ?_⟩
  by_cases blank : Path.isBlank piece = true
  · exact .blank blank ((walkTo_blank inside blank).symm.trans found)
  by_cases up : piece = Path.above
  · subst up
    exact .above ((walkTo_above inside).symm.trans found)
  have named : Named aim piece rest := by
    refine ⟨by simpa using blank, up, ?_, ?_⟩
    · intro slash
      simp [walkTo, inside, blank, up, slash] at found
    · intro long
      by_cases slash : aim = .creation ∧ rest = [[]]
      · simp [walkTo, inside, blank, up, slash] at found
      · simp [walkTo, inside, blank, up, slash, long] at found
  cases entry : fs.nodeAt (here ++ [piece]) with
  | none =>
    rw [walkTo_missing inside named entry] at found
    split at found
    next fits => exact .missing named entry fits.1 fits.2 (Except.ok.inj found)
    · cases found
  | some node =>
    by_cases link : ∃ target, node = .link target
    · obtain ⟨target, rfl⟩ := link
      exact .link named entry ((walkTo_link inside named entry).symm.trans found)
    · have noLink : ∀ target, node ≠ .link target := fun target same => link ⟨target, same⟩
      exact .node named entry noLink ((walkTo_node inside named entry noLink).symm.trans found)

end Steps

section Cuts

variable {fs : FileSystem} {here place : Location}

/-- With some number of links left, a walk is a walk with some way to follow them. -/
theorem walk_eq (fs : FileSystem) (aim : Aim) (links : Nat) :
    ∃ follow, ∀ here steps, fs.walk aim links here steps = fs.walkTo aim follow here steps := by
  cases links with
  | zero => exact ⟨_, fun _ _ => rfl⟩
  | succ links => exact ⟨_, fun _ _ => rfl⟩

theorem walk_blank (aim : Aim) (links : Nat) (inside : fs.nodeAt here = some .directory) :
    fs.walk aim links here [[]] = .ok here := by
  obtain ⟨follow, walks⟩ := walk_eq fs aim links
  rw [walks, walkTo_blank inside rfl]
  rfl

theorem walkTo_through {follow : Location → List Name → Except IoError Location}
    {Onward : (Location → List Name → Except IoError Location) → Prop} (itself : Onward (fs.walkTo .existing follow))
    {piece : Name} {rest : List Name}
    (followed : ∀ here front, follow here (front ++ piece :: rest) = .ok place → ∃ directory onward,
      Onward onward ∧ fs.nodeAt directory = some .directory ∧ ∀ later, follow here (front ++ later) = onward directory later)
    {front : List Name} (found : fs.walkTo .existing follow here (front ++ piece :: rest) = .ok place) :
    ∃ directory onward, Onward onward ∧ fs.nodeAt directory = some .directory ∧
      ∀ later, fs.walkTo .existing follow here (front ++ later) = onward directory later := by
  induction front generalizing here with
  | nil => exact ⟨here, _, itself, (walkTo_cons found).1, fun _ => rfl⟩
  | cons first front ih =>
    rw [List.cons_append] at found
    obtain ⟨inside, passed⟩ := walkTo_cons found
    cases passed with
    | blank blank later =>
      obtain ⟨directory, onward, known, there, goes⟩ := ih later
      exact ⟨directory, onward, known, there, fun later => (walkTo_blank inside blank).trans (goes later)⟩
    | above later =>
      obtain ⟨directory, onward, known, there, goes⟩ := ih later
      exact ⟨directory, onward, known, there, fun later => (walkTo_above inside).trans (goes later)⟩
    | missing _ _ creates => cases creates
    | @link _ target named link later =>
      rw [← List.append_assoc] at later
      obtain ⟨directory, onward, known, there, goes⟩ := followed _ _ later
      refine ⟨directory, onward, known, there, fun later => ?_⟩
      rw [List.cons_append, walkTo_link inside (named.existing _) link, ← List.append_assoc, goes]
    | node named present noLink later =>
      obtain ⟨directory, onward, known, there, goes⟩ := ih later
      exact ⟨directory, onward, known, there,
        fun later => (walkTo_node inside (named.existing _) present noLink).trans (goes later)⟩

/-- A walk that gets over `front` and one piece more has come to a directory there, and whatever
comes behind `front` is walked from that directory. -/
theorem walk_through {links : Nat} {front : List Name} {piece : Name} {rest : List Name}
    (found : fs.walk .existing links here (front ++ piece :: rest) = .ok place) :
    ∃ directory left, fs.nodeAt directory = some .directory ∧
      ∀ later, fs.walk .existing links here (front ++ later) = fs.walk .existing left directory later := by
  have through : ∃ directory onward, (∃ left, onward = fs.walk .existing left) ∧ fs.nodeAt directory = some .directory ∧
      ∀ later, fs.walk .existing links here (front ++ later) = onward directory later := by
    induction links generalizing here front with
    | zero => exact walkTo_through ⟨0, rfl⟩ (fun _ _ impossible => by cases impossible) found
    | succ links ih => exact walkTo_through ⟨links + 1, rfl⟩ (fun _ _ later => ih later) found
  obtain ⟨directory, _, ⟨left, rfl⟩, inside, goes⟩ := through
  exact ⟨directory, left, inside, goes⟩

end Cuts

end HeaderKeys.FileSystem
