import HeaderKeys.Entries
import HeaderKeys.KeyName

/-! Collected declarations, at most one for each key. The entries are kept in the order
of output, so a table is determined by its lookups (`KeyTable.ext_get?`), whatever
insertions it came from. -/

namespace HeaderKeys

def requiredKeys : Nat := KeyName.all.length

/-- Declarations by key, in the order of output. -/
structure KeyTable where
  entries : List (KeyName × Text)
  ordered : entries.Pairwise fun a b => a.1.rank < b.1.rank
deriving DecidableEq

namespace KeyTable

/-- Stores `value` in its place among ordered entries, in place of one with the same key. -/
def insertEntry (key : KeyName) (value : Text) : List (KeyName × Text) → List (KeyName × Text)
  | [] => [(key, value)]
  | entry :: later =>
    if key.rank < entry.1.rank then (key, value) :: entry :: later
    else if key = entry.1 then (key, value) :: later
    else entry :: insertEntry key value later

theorem mem_insertEntry {key : KeyName} {value : Text} {entry : KeyName × Text}
    {entries : List (KeyName × Text)} (member : entry ∈ insertEntry key value entries) :
    entry = (key, value) ∨ entry ∈ entries := by
  induction entries with
  | nil => simpa [insertEntry] using member
  | cons first later ih =>
    simp only [insertEntry] at member
    split at member
    · simpa using member
    · split at member
      · rcases List.mem_cons.mp member with same | member
        · exact .inl same
        · exact .inr (List.mem_cons_of_mem _ member)
      · rcases List.mem_cons.mp member with same | member
        · exact .inr (same ▸ List.mem_cons_self)
        · exact (ih member).imp id (List.mem_cons_of_mem _)

theorem ordered_insertEntry (key : KeyName) (value : Text) {entries : List (KeyName × Text)}
    (ordered : entries.Pairwise fun a b => a.1.rank < b.1.rank) :
    (insertEntry key value entries).Pairwise fun a b => a.1.rank < b.1.rank := by
  induction entries with
  | nil => simp [insertEntry]
  | cons first later ih =>
    obtain ⟨above, ordered'⟩ := List.pairwise_cons.mp ordered
    simp only [insertEntry]
    split
    next less =>
      refine List.pairwise_cons.mpr ⟨fun entry member => ?_, ordered⟩
      rcases List.mem_cons.mp member with rfl | member
      · exact less
      · exact Nat.lt_trans less (above entry member)
    next notLess =>
      split
      next same => exact List.pairwise_cons.mpr ⟨fun entry member => same ▸ above entry member, ordered'⟩
      next different =>
        refine List.pairwise_cons.mpr ⟨fun entry member => ?_, ih ordered'⟩
        rcases mem_insertEntry member with rfl | member
        · have : first.1.rank ≠ key.rank := fun equal => different (KeyName.rank_injective equal).symm
          simp only
          omega
        · exact above entry member

def empty : KeyTable := ⟨[], List.Pairwise.nil⟩

instance : Inhabited KeyTable := ⟨empty⟩

/-- Stores a declaration, in place of an earlier one of the same key. -/
def insert (table : KeyTable) (key : KeyName) (declaration : Text) : KeyTable :=
  ⟨insertEntry key declaration table.entries, ordered_insertEntry key declaration table.ordered⟩

def get? (table : KeyTable) (key : KeyName) : Option Text := table.entries.lookup key

def names (table : KeyTable) : List KeyName := table.entries.map (·.1)

def size (table : KeyTable) : Nat := table.entries.length

def isEmpty (table : KeyTable) : Bool := table.entries.isEmpty

/-- Whether the number of keys is the required one; `names` has no repetitions, so
then every key is present. -/
def isComplete (table : KeyTable) : Bool := table.size == requiredKeys

@[simp] theorem get?_empty (key : KeyName) : empty.get? key = none := rfl

private theorem lookup_insertEntry (key other : KeyName) (value : Text) (entries : List (KeyName × Text)) :
    (insertEntry key value entries).lookup other = if other = key then some value else entries.lookup other := by
  induction entries with
  | nil => simp [insertEntry, Entries.lookup_cons_eq]
  | cons first later ih =>
    simp only [insertEntry]
    split
    · simp [Entries.lookup_cons_eq]
    · split
      next same => subst same; by_cases h : other = first.1 <;> simp [Entries.lookup_cons_eq, h]
      next different =>
        rw [Entries.lookup_cons_eq, Entries.lookup_cons_eq, ih]
        by_cases h : other = first.1
        · have : other ≠ key := fun same => different (same.symm.trans h)
          simp [h]
          simp [← h, this]
        · simp [h]

@[simp] theorem get?_insert (table : KeyTable) (key other : KeyName) (declaration : Text) :
    (table.insert key declaration).get? other = if other = key then some declaration else table.get? other :=
  lookup_insertEntry key other declaration table.entries

private theorem lookup_eq_none_of_above {key : KeyName} {entries : List (KeyName × Text)}
    (above : ∀ entry ∈ entries, key.rank < entry.1.rank) : entries.lookup key = none := by
  refine List.lookup_eq_none_iff.mpr fun entry member => ?_
  have : key ≠ entry.1 := fun same => Nat.lt_irrefl _ (same ▸ above entry member)
  simpa using this

private theorem rank_le_of_lookup {key : KeyName} {first : KeyName × Text} {later : List (KeyName × Text)}
    (above : ∀ entry ∈ later, first.1.rank < entry.1.rank)
    (present : (first :: later).lookup key ≠ none) : first.1.rank ≤ key.rank := by
  apply Nat.le_of_not_lt
  intro less
  apply present
  apply lookup_eq_none_of_above
  intro entry member
  rcases List.mem_cons.mp member with rfl | member
  · exact less
  · exact Nat.lt_trans less (above entry member)

private theorem entries_eq_of_lookup_eq {a b : List (KeyName × Text)}
    (orderedA : a.Pairwise fun x y => x.1.rank < y.1.rank) (orderedB : b.Pairwise fun x y => x.1.rank < y.1.rank)
    (agree : ∀ key, a.lookup key = b.lookup key) : a = b := by
  induction a generalizing b with
  | nil =>
    cases b with
    | nil => rfl
    | cons entry later => simpa [Entries.lookup_cons_eq] using agree entry.1
  | cons first restA ih =>
    cases b with
    | nil => simpa [Entries.lookup_cons_eq] using agree first.1
    | cons second restB =>
      obtain ⟨aboveA, orderedA⟩ := List.pairwise_cons.mp orderedA
      obtain ⟨aboveB, orderedB⟩ := List.pairwise_cons.mp orderedB
      have sameKey : first.1 = second.1 := by
        apply KeyName.rank_injective
        apply Nat.le_antisymm
        · exact rank_le_of_lookup aboveA (by simp [agree, Entries.lookup_cons_eq])
        · exact rank_le_of_lookup aboveB (by simp [← agree, Entries.lookup_cons_eq])
      have sameValue : first.2 = second.2 := by
        have := agree first.1
        simpa [Entries.lookup_cons_eq, sameKey] using this
      have rest : restA = restB := by
        apply ih orderedA orderedB
        intro key
        by_cases h : key = first.1
        · rw [h, lookup_eq_none_of_above aboveA, sameKey, lookup_eq_none_of_above aboveB]
        · have := agree key
          rwa [Entries.lookup_cons_eq, Entries.lookup_cons_eq, if_neg h, if_neg (sameKey ▸ h)] at this
      rw [rest, Prod.ext sameKey sameValue]

/-- Tables with the same lookups are the same table. -/
theorem ext_get? {a b : KeyTable} (agree : ∀ key, a.get? key = b.get? key) : a = b := by
  obtain ⟨entriesA, orderedA⟩ := a
  obtain ⟨entriesB, orderedB⟩ := b
  have : entriesA = entriesB := entries_eq_of_lookup_eq orderedA orderedB agree
  subst this
  rfl

end KeyTable

end HeaderKeys
