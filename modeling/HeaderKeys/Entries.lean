/-! Lists of values under keys. Of several entries with one key the first counts, and
storing replaces it where it stands: every other lookup stays as it was, and storing
what is there already changes nothing. -/

namespace HeaderKeys.Entries

variable {κ β : Type} [DecidableEq κ] [BEq κ] [LawfulBEq κ]

theorem lookup_cons_eq (key : κ) (entry : κ × β) (later : List (κ × β)) :
    (entry :: later).lookup key = if key = entry.1 then some entry.2 else later.lookup key := by
  rw [List.lookup_cons]
  by_cases h : key = entry.1
  · simp [h]
  · simp [h, beq_eq_false_iff_ne.mpr h]

/-- Stores a value, behind all others if its key is new. -/
def put {κ β : Type} [DecidableEq κ] (key : κ) (value : β) : List (κ × β) → List (κ × β)
  | [] => [(key, value)]
  | entry :: later => if key = entry.1 then (key, value) :: later else entry :: put key value later

theorem lookup_put (key other : κ) (value : β) (entries : List (κ × β)) :
    (put key value entries).lookup other = if other = key then some value else entries.lookup other := by
  induction entries with
  | nil => simp [put, lookup_cons_eq]
  | cons entry later ih =>
    simp only [put]
    split
    next same => subst same; by_cases h : other = entry.1 <;> simp [lookup_cons_eq, h]
    next different =>
      rw [lookup_cons_eq, lookup_cons_eq, ih]
      by_cases h : other = entry.1
      · have : other ≠ key := fun same => different (same.symm.trans h)
        simp [h]
        simp [← h, this]
      · simp [h]

theorem put_of_lookup {key : κ} {value : β} {entries : List (κ × β)}
    (present : entries.lookup key = some value) : put key value entries = entries := by
  induction entries with
  | nil => simp at present
  | cons entry later ih =>
    rw [lookup_cons_eq] at present
    simp only [put]
    split
    next same =>
      rw [if_pos same] at present
      cases present
      rw [same]
    next different =>
      rw [if_neg different] at present
      rw [ih present]

end HeaderKeys.Entries
