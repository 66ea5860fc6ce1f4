import HeaderKeys.Proofs.Walks

/-! Ways that stay open. A walk goes over directories and links and ends at what stands at its last
name. If files change so that all of this is still there, every walk that arrived arrives at the
same place again. -/

namespace HeaderKeys.FileSystem

/-- Directories and links are kept, and what stood somewhere else was at most replaced by something
that is no link. -/
structure KeepsWays (before after : FileSystem) : Prop where
  current : after.current = before.current
  directory : ∀ place, before.nodeAt place = some .directory → after.nodeAt place = some .directory
  link : ∀ place target, before.nodeAt place = some (.link target) → after.nodeAt place = some (.link target)
  other : ∀ place node, before.nodeAt place = some node → (∀ target, node ≠ .link target) →
    ∃ node', after.nodeAt place = some node' ∧ ∀ target, node' ≠ .link target

theorem node?_eq_some_iff {fs : FileSystem} {path : Path} {node : Node} :
    fs.node? path = some node ↔ ∃ place, fs.locate .existing path = .ok place ∧ fs.nodeAt place = some node := by
  unfold node?
  cases fs.locate .existing path <;> simp

theorem isDirectory_iff {fs : FileSystem} {path : Path} :
    fs.isDirectory path = true ↔ ∃ place, fs.locate .existing path = .ok place ∧ fs.nodeAt place = some .directory := by
  rw [isDirectory, beq_iff_eq, node?_eq_some_iff]

variable {before after : FileSystem} {aim aim' : Aim} {place : Location}

/-- A walk to a file that need not be there yet becomes a walk with either aim once something stands there. -/
theorem walkTo_kept (kept : KeepsWays before after) (weaker : aim' = .creation → aim = .creation)
    (arrives : aim = .creation → ∃ node, after.nodeAt place = some node ∧ ∀ target, node ≠ .link target)
    {follow follow' : Location → List Name → Except IoError Location}
    (followed : ∀ here steps, follow here steps = .ok place → follow' here steps = .ok place)
    {here : Location} {steps : List Name} (found : before.walkTo aim follow here steps = .ok place) :
    after.walkTo aim' follow' here steps = .ok place := by
  induction steps generalizing here with
  | nil => exact found
  | cons piece rest ih =>
    obtain ⟨inside, passed⟩ := walkTo_cons found
    have inside' := kept.directory _ inside
    have renamed (named : Named aim piece rest) : Named aim' piece rest :=
      ⟨named.real, named.down, fun slash => named.allowed ⟨weaker slash.1, slash.2⟩, named.short⟩
    cases passed with
    | blank blank later => rw [walkTo_blank inside' blank, ih later]
    | above later => rw [walkTo_above inside', ih later]
    | missing named missing creates last arrived =>
      obtain ⟨node, present, noLink⟩ := arrives creates
      subst last arrived
      rw [walkTo_node inside' (renamed named) present noLink]
      rfl
    | link named link later => rw [walkTo_link inside' (renamed named) (kept.link _ _ link), followed _ _ later]
    | node named present noLink later =>
      obtain ⟨node', present', noLink'⟩ := kept.other _ _ present noLink
      rw [walkTo_node inside' (renamed named) present' noLink', ih later]

variable (kept : KeepsWays before after) (weaker : aim' = .creation → aim = .creation)
  (arrives : aim = .creation → ∃ node, after.nodeAt place = some node ∧ ∀ target, node ≠ .link target)
include kept weaker arrives

theorem walk_kept {links : Nat} {here : Location} {steps : List Name}
    (found : before.walk aim links here steps = .ok place) : after.walk aim' links here steps = .ok place := by
  induction links generalizing here steps with
  | zero => exact walkTo_kept kept weaker arrives (fun _ _ failed => by cases failed) found
  | succ links ih => exact walkTo_kept kept weaker arrives (fun _ _ later => ih later) found

theorem locate_kept {path : Path} (found : before.locate aim path = .ok place) : after.locate aim' path = .ok place := by
  unfold locate at found ⊢
  split at found
  · cases found
  · rw [beginning, kept.current]
    exact walk_kept kept weaker arrives found

omit weaker arrives in
theorem KeepsWays.isDirectory {path : Path} (inside : before.isDirectory path = true) : after.isDirectory path = true := by
  obtain ⟨place, located, present⟩ := isDirectory_iff.mp inside
  exact isDirectory_iff.mpr ⟨place, locate_kept kept (by simp) (by simp) located, kept.directory place present⟩

end HeaderKeys.FileSystem
