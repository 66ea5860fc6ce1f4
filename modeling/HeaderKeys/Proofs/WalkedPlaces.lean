import HeaderKeys.Extraction
import HeaderKeys.Proofs.Walks

/-! The places that a walk looks at. What a path leads to, and so what reading it gives, depends on
what stands at these places and on the current directory, and on nothing else of the files. -/

namespace HeaderKeys.FileSystem

/-- The places that a walk over `steps` looks at. Behind a link they are those that `follow` tells. -/
def looksTo (fs : FileSystem) (follow : Location → List Name → List Location) (here : Location) : List Name → List Location
  | [] => [here]
  | piece :: rest =>
    here :: if fs.nodeAt here ≠ some .directory then []
      else if Path.isBlank piece then fs.looksTo follow here rest
      else if piece = Path.above then fs.looksTo follow here.dropLast rest
      else if nameLimit < piece.length then []
      else (here ++ [piece]) :: match fs.nodeAt (here ++ [piece]) with
        | none => []
        | some (.link target) => follow (if target.isAbsolute then [] else here) (target.steps ++ rest)
        | some _ => fs.looksTo follow (here ++ [piece]) rest

/-- The places that a walk looks at which may follow so many links. -/
def looks (fs : FileSystem) : Nat → Location → List Name → List Location
  | 0, here, steps => fs.looksTo (fun _ _ => []) here steps
  | links + 1, here, steps => fs.looksTo (fs.looks links) here steps

/-- The places that are looked at for a path. A path that is refused leads to no look at all. -/
def looksFor (fs : FileSystem) (path : Path) : List Location :=
  if path.refusal?.isSome then [] else fs.looks linkLimit (fs.beginning path) path.steps

/-- Two file systems that nobody can tell apart who looks at these places only. -/
def AgreeAt (places : List Location) (fs fs' : FileSystem) : Prop :=
  ∀ place ∈ places, fs'.nodeAt place = fs.nodeAt place

variable {fs fs' : FileSystem} {aim : Aim}

theorem walkTo_of_agree {follow follow' : Location → List Name → Except IoError Location}
    {looked : Location → List Name → List Location}
    (followed : ∀ here steps, AgreeAt (looked here steps) fs fs' → follow' here steps = follow here steps)
    {here : Location} {steps : List Name} (agree : AgreeAt (fs.looksTo looked here steps) fs fs') :
    fs'.walkTo aim follow' here steps = fs.walkTo aim follow here steps := by
  induction steps generalizing here with
  | nil => rfl
  | cons piece rest ih =>
    unfold looksTo at agree
    obtain ⟨same, agree⟩ := List.forall_mem_cons.mp agree
    unfold walkTo
    rw [same]
    by_cases outside : fs.nodeAt here ≠ some .directory
    · simp only [if_pos outside]
    simp only [if_neg outside] at agree ⊢
    by_cases blank : Path.isBlank piece = true
    · simp only [if_pos blank] at agree ⊢
      exact ih agree
    simp only [if_neg blank] at agree ⊢
    by_cases up : piece = Path.above
    · simp only [if_pos up] at agree ⊢
      exact ih agree
    simp only [if_neg up] at agree ⊢
    by_cases long : nameLimit < piece.length
    · simp only [if_pos long]
    simp only [if_neg long] at agree ⊢
    -- Only an entry with a name of its own is looked up.
    obtain ⟨same, agree⟩ := List.forall_mem_cons.mp agree
    rw [same]
    cases entry : fs.nodeAt (here ++ [piece]) with
    | none => rfl
    | some node =>
      rw [entry] at agree
      split
      · rfl
      · cases node with
        | link target => exact followed _ _ agree
        | directory | file | faulty | sink => exact ih agree

theorem walk_of_agree {links : Nat} {here : Location} {steps : List Name} (agree : AgreeAt (fs.looks links here steps) fs fs') :
    fs'.walk aim links here steps = fs.walk aim links here steps := by
  induction links generalizing here steps with
  | zero => exact walkTo_of_agree (fun _ _ _ => rfl) agree
  | succ links ih => exact walkTo_of_agree (fun _ _ later => ih later) agree

theorem mem_looksTo {follow : Location → List Name → Except IoError Location} {looked : Location → List Name → List Location}
    {place : Location} (followed : ∀ here steps, follow here steps = .ok place → place ∈ looked here steps)
    {here : Location} {steps : List Name} (found : fs.walkTo aim follow here steps = .ok place) :
    place ∈ fs.looksTo looked here steps := by
  induction steps generalizing here with
  | nil =>
    cases found
    exact List.mem_singleton_self _
  | cons piece rest ih =>
    obtain ⟨inside, passed⟩ := walkTo_cons found
    refine List.mem_cons_of_mem _ ?_
    rw [if_neg (not_not_intro inside)]
    cases passed with
    | blank blank later =>
      rw [if_pos blank]
      exact ih later
    | above later =>
      rw [if_neg (by decide), if_pos rfl]
      exact ih later
    | missing named missing _ _ arrived =>
      rw [if_neg (by simp [named.real]), if_neg named.down, if_neg named.short]
      exact List.mem_cons.mpr (.inl arrived.symm)
    | link named link later =>
      rw [if_neg (by simp [named.real]), if_neg named.down, if_neg named.short, link]
      exact List.mem_cons_of_mem _ (followed _ _ later)
    | @node piece node named present noLink later =>
      rw [if_neg (by simp [named.real]), if_neg named.down, if_neg named.short, present]
      cases node with
      | link target => exact absurd rfl (noLink target)
      | directory | file | faulty | sink => exact List.mem_cons_of_mem _ (ih later)

/-- A walk looks at the place where it ends. -/
theorem mem_looks {links : Nat} {here place : Location} {steps : List Name}
    (found : fs.walk aim links here steps = .ok place) : place ∈ fs.looks links here steps := by
  induction links generalizing here steps with
  | zero => exact mem_looksTo (fun _ _ impossible => by cases impossible) found
  | succ links ih => exact mem_looksTo (fun _ _ later => ih later) found

section Paths

variable {path : Path}

theorem mem_looksFor {place : Location} (found : fs.locate aim path = .ok place) : place ∈ fs.looksFor path := by
  unfold locate at found
  unfold looksFor
  cases refused : path.refusal? with
  | some cause =>
    rw [refused] at found
    cases found
  | none =>
    rw [refused] at found
    exact mem_looks found

variable (current : fs'.current = fs.current) (agree : AgreeAt (fs.looksFor path) fs fs')
include current agree

theorem locate_of_agree : fs'.locate aim path = fs.locate aim path := by
  unfold locate
  unfold looksFor at agree
  cases refused : path.refusal? with
  | some cause => rfl
  | none =>
    rw [refused] at agree
    simp only [beginning, current]
    exact walk_of_agree agree

/-- Headers are read alike where what is looked at for them is alike. -/
theorem readHeader_of_agree : fs'.readHeader path = fs.readHeader path := by
  have located : fs'.locate .existing path = fs.locate .existing path := locate_of_agree current agree
  unfold readHeader isRegularFile node? read
  rw [located]
  cases found : fs.locate .existing path with
  | error cause => rfl
  | ok place =>
    have same := agree place (mem_looksFor found)
    simp only [same]

end Paths

end HeaderKeys.FileSystem
