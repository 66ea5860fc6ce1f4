import HeaderKeys.FileSystem.Change
import HeaderKeys.Proofs.CleanText

/-! The causes that operations on files fail with. They are few, whatever the files are, and each
is told in clean text. -/

namespace HeaderKeys

namespace IoError

/-- What operations on files give as a cause. -/
def ofFiles : List IoError :=
  [noSuchEntry, inputOutput, alreadyExists, notADirectory, isADirectory, nameTooLong, tooManyLinks, nulInPath,
    other "failed to create whole tree".toList]

theorem isClean_message {cause : IoError} (known : cause ∈ ofFiles) : cause.message.isClean = true := by
  have all : ∀ cause ∈ ofFiles, cause.message.isClean = true := by decide +kernel
  exact all cause known

end IoError

namespace FileSystem

/-- A result that, if it is an error, has one of these causes. -/
def Known {α : Type} (result : Except IoError α) : Prop := ∀ cause, result = .error cause → cause ∈ IoError.ofFiles

section Known

variable {α : Type}

theorem known_ok (value : α) : Known (.ok value) := by
  intro cause failed
  cases failed

theorem known_error {cause : IoError} (known : cause ∈ IoError.ofFiles) : Known (.error cause : Except IoError α) := by
  intro other failed
  cases failed
  exact known

theorem Known.ite {condition : Prop} [Decidable condition] {first second : Except IoError α} (one : Known first)
    (two : Known second) : Known (if condition then first else second) := by
  split
  · exact one
  · exact two

end Known

variable {fs : FileSystem} {path : Path}

theorem known_refusal? {cause : IoError} (refused : path.refusal? = some cause) : cause ∈ IoError.ofFiles := by
  unfold Path.refusal? at refused
  repeat' split at refused
  all_goals cases refused
  all_goals decide

theorem known_walkTo {aim : Aim} {follow : Location → List Name → Except IoError Location}
    (followed : ∀ here steps, Known (follow here steps)) (here : Location) (steps : List Name) :
    Known (fs.walkTo aim follow here steps) := by
  induction steps generalizing here with
  | nil => exact known_ok here
  | cons piece rest ih =>
    unfold walkTo
    refine .ite (known_error (by decide)) (.ite (ih _) (.ite (ih _) ?_))
    refine .ite (known_error (by decide)) (.ite (known_error (by decide)) ?_)
    split
    · exact .ite (known_ok _) (known_error (by decide))
    · exact followed _ _
    · exact ih _

theorem known_walk (aim : Aim) (links : Nat) (here : Location) (steps : List Name) : Known (fs.walk aim links here steps) := by
  induction links generalizing here steps with
  | zero => exact known_walkTo (fun _ _ => known_error (by decide)) here steps
  | succ links ih => exact known_walkTo ih here steps

theorem known_locate (aim : Aim) : Known (fs.locate aim path) := by
  unfold locate
  split
  next refused => exact known_error (known_refusal? refused)
  · exact known_walk aim _ _ _

theorem known_makeDirectory : Known (fs.makeDirectory path) := by
  unfold makeDirectory makeEntry
  split
  next refused => exact known_error (known_refusal? refused)
  · split
    next lost => exact known_error (known_walk _ _ _ _ _ lost)
    · split
      · exact known_error (by decide)
      · exact .ite (known_error (by decide)) (.ite (known_error (by decide)) (.ite (known_error (by decide)) (known_ok _)))

theorem known_ensureDirectory : Known (fs.ensureDirectory path).2 := by
  unfold ensureDirectory
  split
  · exact known_ok ()
  next refused => exact .ite (known_ok ()) (known_error (known_makeDirectory _ refused))

theorem known_makeWithin (levels : Nat) (path : Path) : Known (fs.makeWithin levels path).2 := by
  induction levels generalizing path with
  | zero => exact known_ok ()
  | succ levels ih =>
    unfold makeWithin
    split
    · exact known_ok ()
    · split
      · exact known_ok ()
      · split
        · split
          · exact known_error (by decide)
          next parent _ =>
            split
            · exact known_ensureDirectory
            next broken => exact broken ▸ ih parent
        · exact known_ensureDirectory

theorem known_writeFile (content : Bytes) : Known (fs.writeFile path content) := by
  unfold writeFile
  split
  next lost => exact known_error (known_locate _ _ lost)
  · split
    · exact known_ok _
    · exact known_ok _
    · exact known_ok _
    all_goals exact known_error (by decide)

end FileSystem

end HeaderKeys
