import HeaderKeys.ClassSource
import Mathlib.Data.List.Perm.Subperm

/-! Complete tables. A table counts as complete by the number of its keys; as no key is there
twice, this is to have every key, and then the source file consists of the declarations
in the order of output. -/

namespace HeaderKeys.KeyTable

theorem nodup_names (table : KeyTable) : table.names.Nodup := by
  rw [names, List.Nodup, List.pairwise_map]
  apply table.ordered.imp
  intro a b less same
  rw [same] at less
  exact Nat.lt_irrefl _ less

theorem mem_names {table : KeyTable} {key : KeyName} : key ∈ table.names ↔ (table.get? key).isSome = true := by
  rw [get?, List.lookup_isSome_iff, names, List.mem_map]
  constructor
  · rintro ⟨entry, member, rfl⟩
    exact ⟨entry, member, by simp⟩
  · rintro ⟨entry, member, same⟩
    exact ⟨entry, member, (eq_of_beq same).symm⟩

theorem isComplete_iff {table : KeyTable} : table.isComplete = true ↔ ∀ key, (table.get? key).isSome = true := by
  have size : table.size = table.names.length := by rw [size, names, List.length_map]
  have known : List.Subperm table.names KeyName.all :=
    table.nodup_names.subperm fun key _ => KeyName.mem_all key
  rw [isComplete, beq_iff_eq, size, requiredKeys]
  constructor
  · intro full key
    have same := known.perm_of_length_le (Nat.le_of_eq full.symm)
    exact mem_names.mp (same.mem_iff.mpr (KeyName.mem_all key))
  · intro held
    have distinct : KeyName.all.Nodup := by decide
    have covered : List.Subperm KeyName.all table.names := distinct.subperm fun key _ => mem_names.mpr (held key)
    exact Nat.le_antisymm known.length_le covered.length_le

theorem render_of_get? {table : KeyTable} {constants : KeyName → Text}
    (held : ∀ key, table.get? key = some (constants key)) :
    table.render = .ok (ClassSource.layout (KeyName.all.map constants)) := by
  have complete : table.isComplete = true := by
    rw [isComplete_iff]
    intro key
    rw [held]
    rfl
  have found : table.orderedDeclarations = .ok (KeyName.all.map constants) := by
    simp only [orderedDeclarations, complete, if_true, held]
    rfl
  rw [render, found]
  rfl

theorem exists_constants {table : KeyTable} (complete : table.isComplete = true) :
    ∃ constants : KeyName → Text, ∀ key, table.get? key = some (constants key) :=
  ⟨fun key => (table.get? key).get (isComplete_iff.mp complete key), fun _ => (Option.some_get _).symm⟩

theorem isComplete_of_render {table : KeyTable} {text : Text} (rendered : table.render = .ok text) :
    table.isComplete = true := by
  rw [render, orderedDeclarations] at rendered
  split at rendered
  next complete => exact complete
  next incomplete => cases rendered

/-- A source file comes from a table with a constant for each key. -/
theorem constants_of_render {table : KeyTable} {text : Text} (rendered : table.render = .ok text) :
    ∃ constants : KeyName → Text,
      (∀ key, table.get? key = some (constants key)) ∧ text = ClassSource.layout (KeyName.all.map constants) := by
  obtain ⟨constants, held⟩ := exists_constants (isComplete_of_render rendered)
  rw [render_of_get? held] at rendered
  exact ⟨constants, held, (Except.ok.inj rendered).symm⟩

theorem render_eq_error_iff {table : KeyTable} {error : IncompleteKeys} :
    table.render = .error error ↔ table.isComplete = false ∧ error = ⟨table.names⟩ := by
  cases complete : table.isComplete with
  | true =>
    obtain ⟨constants, held⟩ := exists_constants complete
    simp [render_of_get? held]
  | false => simp [render, orderedDeclarations, complete, Except.map, eq_comm]

end HeaderKeys.KeyTable
