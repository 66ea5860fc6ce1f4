import HeaderKeys.Proofs.CompleteTable
import HeaderKeys.Session

/-! Tables as maps. The keys of a table stand in the order of output, none twice, so a table shows
nothing of the steps that filled it: neither the order of insertions nor what was written
over. And so the number of its keys alone tells whether any is missing. -/

namespace HeaderKeys

namespace KeyTable

theorem ordered_names (table : KeyTable) : table.names.Pairwise fun first second => first.rank < second.rank :=
  List.pairwise_map.mpr table.ordered

theorem names_eq_filter (table : KeyTable) : table.names = KeyName.all.filter fun key => (table.get? key).isSome := by
  have ordered : KeyName.all.Pairwise fun first second => first.rank < second.rank := by decide
  have distinct : KeyName.all.Nodup := by decide
  have same : table.names.Perm (KeyName.all.filter fun key => (table.get? key).isSome) := by
    refine (List.perm_ext_iff_of_nodup table.nodup_names (distinct.filter _)).mpr fun key => ?_
    rw [List.mem_filter, mem_names]
    exact ⟨fun present => ⟨key.mem_all, present⟩, And.right⟩
  refine same.eq_of_pairwise ?_ table.ordered_names (ordered.filter _)
  intro first second _ _ less more
  exact absurd less (Nat.lt_asymm more)

theorem size_eq_length_names (table : KeyTable) : table.size = table.names.length := by
  rw [size, names, List.length_map]

theorem size_le_requiredKeys (table : KeyTable) : table.size ≤ requiredKeys := by
  rw [size_eq_length_names, names_eq_filter]
  exact List.length_filter_le _ _

theorem names_eq_all_iff {table : KeyTable} : table.names = KeyName.all ↔ table.isComplete = true := by
  rw [isComplete_iff, names_eq_filter, List.filter_eq_self]
  exact ⟨fun held key => held key key.mem_all, fun held key _ => held key⟩

theorem ext_get?_iff {a b : KeyTable} : a = b ↔ ∀ key, a.get? key = b.get? key :=
  ⟨fun same key => congrArg (get? · key) same, ext_get?⟩

/-- The declarations in the order of output, with `missing` for a lookup that fails in spite of
the number of keys. -/
def orderedDeclarationsOr (missing : IncompleteKeys) (table : KeyTable) : Except IncompleteKeys (List Text) :=
  if table.isComplete then
    KeyName.all.mapM fun key => match table.get? key with
      | some declaration => .ok declaration
      | none => .error missing
  else .error ⟨table.names⟩

theorem orderedDeclarationsOr_eq (missing : IncompleteKeys) (table : KeyTable) :
    table.orderedDeclarationsOr missing = table.orderedDeclarations := by
  unfold orderedDeclarationsOr orderedDeclarations
  split
  next complete =>
    obtain ⟨constants, held⟩ := exists_constants complete
    simp only [held]
  next incomplete => rfl

end KeyTable

namespace Session

open KeyTable

theorem insert_step (session : Session) (slot : Slot) (key : KeyName) (declaration : Text) :
    let table := (session.table slot).insert key declaration
    session.step (.insert slot key.identifier declaration) =
      (session.setTable slot table, .inserted ((session.table slot).get? key) table.names) := by
  have parsed : KeyName.parse key.identifier = .ok key := by rw [KeyName.parse, KeyName.ofIdentifier?_identifier]
  simp only [Session.step, parsed]

/-- After any steps a table names its keys in the order of output, counts as complete just if it has
all of them, and is told from others by its lookups alone. It is written out if it is complete;
if not, the error carries the keys it has, and no lookup has failed on the way. -/
theorem reached_tables_are_maps (files : FileSystem) (steps : List Step) (slot : Slot) :
    let session := (start files).after steps
    let table := session.table slot
    table.names.Pairwise (fun first second => first.rank < second.rank) ∧
    table.names = KeyName.all.filter (fun key => (table.get? key).isSome) ∧
    table.size = table.names.length ∧ table.size ≤ 4 ∧
    (∀ key, (table.get? key).isSome = true ↔ key ∈ table.names) ∧
    (table.isComplete = true ↔ ∀ key, (table.get? key).isSome = true) ∧
    (∀ key declaration,
      let inserted := session.step (.insert slot key.identifier declaration)
      inserted.2 = .inserted (table.get? key) (inserted.1.table slot).names ∧
        ∀ other, (inserted.1.table slot).get? other = if other = key then some declaration else table.get? other) ∧
    (∀ files' steps' slot',
      let table' := ((start files').after steps').table slot'
      (table = table' ↔ ∀ key, table.get? key = table'.get? key) ∧
        ((∀ key, table.get? key = table'.get? key) → table.render = table'.render)) ∧
    ((∃ text, table.render = .ok text) ↔ table.isComplete = true) ∧
    (∀ error, table.render = .error error ↔ table.isComplete = false ∧ error = ⟨table.names⟩) ∧
    ∀ missing, table.orderedDeclarationsOr missing = table.orderedDeclarations := by
  intro session table
  refine ⟨table.ordered_names, table.names_eq_filter, table.size_eq_length_names, table.size_le_requiredKeys,
    fun key => mem_names.symm, isComplete_iff, fun key declaration => ?_, fun files' steps' slot' => ⟨ext_get?_iff, ?_⟩,
    ?_, fun error => render_eq_error_iff, fun missing => table.orderedDeclarationsOr_eq missing⟩
  · simp only [insert_step, table_setTable, if_true]
    exact ⟨rfl, fun other => get?_insert table key other declaration⟩
  · intro agree
    rw [ext_get? agree]
  · constructor
    · rintro ⟨text, rendered⟩
      exact isComplete_of_render rendered
    · intro complete
      obtain ⟨constants, held⟩ := exists_constants complete
      exact ⟨_, render_of_get? held⟩

/-- Two tables that were filled in opposite orders, one over an older entry and one over entries that
were cleared, and then copied. -/
theorem reached_tables_are_maps_in_either_order :
    let slot (n : Fin 3) : Slot := n
    let forth : List Step := [
      .insert (slot 0) "in_key_s".toList "old".toList, .insert (slot 0) "out_key_p".toList "p".toList,
      .insert (slot 0) "in_key_s".toList "s".toList]
    let back : List Step := [
      .scan (slot 1) "uint32_t out_key_s\n\x7d;".toList, .clear (slot 1), .insert (slot 1) "in_key_s".toList "s".toList,
      .insert (slot 1) "out_key_p".toList "p".toList, .copy (slot 2) (slot 1)]
    let first := ((start .fresh).after forth).table (slot 0)
    let second := ((start .fresh).after back).table (slot 2)
    first = second ∧ first.render = second.render ∧ first.names = [.outKeyP, .inKeyS] ∧
      first.render = .error ⟨first.names⟩ := by
  intro slot forth back first second
  obtain ⟨_, names, _, _, _, _, _, apart, _, errors, _⟩ := reached_tables_are_maps .fresh forth (slot 0)
  have alike : ∀ key ∈ KeyName.all, first.get? key = second.get? key := by decide +kernel
  have agree : ∀ key, first.get? key = second.get? key := fun key => alike key key.mem_all
  obtain ⟨same, written⟩ := apart .fresh back (slot 2)
  have held : KeyName.all.filter (fun key => (first.get? key).isSome) = [.outKeyP, .inKeyS] := by decide +kernel
  have lacking : first.isComplete = false := by decide +kernel
  exact ⟨same.mpr agree, written agree, names.trans held, (errors _).mpr ⟨lacking, rfl⟩⟩

end Session

end HeaderKeys
