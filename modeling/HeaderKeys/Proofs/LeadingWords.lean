import HeaderKeys.Declaration

/-! Which of several words comes first. A search that tries every word at each place, from
the left, misses none and prefers none: it finds a key exactly if the key's word stands in
the line and no word begins before it. No word may begin another one, else two of them
could begin at the same place. -/

namespace HeaderKeys

section Words

variable {α : Type}

/-- The word of `key` stands in the line, and no word stands anywhere before it. -/
def ComesFirst (word : KeyName → List α) (line : List α) (key : KeyName) : Prop :=
  ∃ before after, line = before ++ word key ++ after ∧
    ∀ other before' after', line = before' ++ word other ++ after' → before.length ≤ before'.length

/-- At one place there is at most one word. -/
structure Distinct (word : KeyName → List α) : Prop where
  nonempty : ∀ key, word key ≠ []
  apart : ∀ key other, word key <+: word other → key = other

variable {word : KeyName → List α}

theorem Distinct.eq_of_prefixes (distinct : Distinct word) {line : List α} {key other : KeyName}
    (first : word key <+: line) (second : word other <+: line) : key = other := by
  rcases List.prefix_or_prefix_of_prefix first second with inside | inside
  · exact distinct.apart key other inside
  · exact (distinct.apart other key inside).symm

theorem comesFirst_of_prefix {line : List α} {key : KeyName} (here : word key <+: line) : ComesFirst word line key := by
  obtain ⟨after, rfl⟩ := here
  exact ⟨[], after, by simp, fun _ _ _ _ => Nat.zero_le _⟩

theorem comesFirst_cons {c : α} {rest : List α} (nowhere : ∀ key, ¬ word key <+: c :: rest) (key : KeyName) :
    ComesFirst word (c :: rest) key ↔ ComesFirst word rest key := by
  have inside {other : KeyName} {before after : List α} (same : c :: rest = before ++ word other ++ after) :
      ∃ before', before = c :: before' ∧ rest = before' ++ word other ++ after := by
    cases before with
    | nil => exact absurd ⟨after, by simpa using same.symm⟩ (nowhere other)
    | cons d before =>
      obtain ⟨here, later⟩ := List.cons.inj same
      exact ⟨before, by rw [here], later⟩
  constructor
  · rintro ⟨before, after, same, first⟩
    obtain ⟨before, rfl, later⟩ := inside same
    refine ⟨before, after, later, fun other before' after' same' => ?_⟩
    have := first other (c :: before') after' (by simp [same'])
    simpa using this
  · rintro ⟨before, after, same, first⟩
    refine ⟨c :: before, after, by simp [same], fun other before' after' same' => ?_⟩
    obtain ⟨before', rfl, later'⟩ := inside same'
    have := first other before' after' later'
    simpa using this

variable [BEq α]

/-- The key whose word comes first, reading from the left. -/
def leading? (word : KeyName → List α) : List α → Option KeyName
  | [] => none
  | c :: rest => (KeyName.all.find? fun key => (word key).isPrefixOf (c :: rest)).or (leading? word rest)

variable [LawfulBEq α]

theorem leading?_eq_some_iff (distinct : Distinct word) {line : List α} {key : KeyName} :
    leading? word line = some key ↔ ComesFirst word line key := by
  induction line with
  | nil =>
    have empty : ¬ ComesFirst word [] key := by
      rintro ⟨before, after, same, _⟩
      exact distinct.nonempty key (by simp_all)
    simp [leading?, empty]
  | cons c rest ih =>
    rw [leading?]
    cases found : KeyName.all.find? fun key => (word key).isPrefixOf (c :: rest) with
    | some other =>
      have here : word other <+: c :: rest := by simpa using List.find?_some found
      rw [Option.some_or]
      constructor
      · rintro ⟨⟩
        exact comesFirst_of_prefix here
      · rintro ⟨before, after, same, first⟩
        -- The word of `other` stands at the very beginning, so that of `key` cannot stand behind it.
        obtain ⟨behind, begins⟩ := here
        have none : before = [] := List.length_eq_zero_iff.mp (Nat.le_zero.mp (first other [] behind (by simp [begins])))
        have too : word key <+: c :: rest := ⟨after, by simp [same, none]⟩
        rw [distinct.eq_of_prefixes ⟨behind, begins⟩ too]
    | none =>
      have nowhere (key : KeyName) : ¬ word key <+: c :: rest := by
        have refused := List.find?_eq_none.mp found key (KeyName.mem_all key)
        rwa [List.isPrefixOf_iff_prefix] at refused
      rw [Option.none_or, ih, comesFirst_cons nowhere]

theorem leading?_eq_none_iff (distinct : Distinct word) {line : List α} :
    leading? word line = none ↔ ∀ key, ¬ word key <:+: line := by
  induction line with
  | nil => simpa [leading?] using distinct.nonempty
  | cons c rest ih =>
    simp only [leading?, Option.or_eq_none_iff, ih, List.find?_eq_none, List.isPrefixOf_iff_prefix, List.infix_cons_iff]
    constructor
    · rintro ⟨here, later⟩ key (found | found)
      · exact here key (KeyName.mem_all key) found
      · exact later key found
    · intro nowhere
      exact ⟨fun key _ found => nowhere key (.inl found), fun key found => nowhere key (.inr found)⟩

/-- The search may stop at the first word that it has read to its end: a word that begins before that one
would hold it inside itself. -/
theorem leading?_append (distinct : Distinct word) (unnested : ∀ key other, occurs (word key) (word other).tail = false)
    {line : List α} {key : KeyName} (found : leading? word line = some key) (more : List α) :
    leading? word (line ++ more) = some key := by
  obtain ⟨before, after, rfl, first⟩ := (leading?_eq_some_iff distinct).mp found
  apply (leading?_eq_some_iff distinct).mpr
  refine ⟨before, after ++ more, by simp, ?_⟩
  intro other before' after' same
  apply Nat.le_of_not_lt
  intro earlier
  have front : before' <+: before := by
    have begins : before' <+: before ++ word key ++ after ++ more := by
      rw [same, List.append_assoc]
      exact List.prefix_append before' _
    apply List.prefix_of_prefix_length_le begins _ (Nat.le_of_lt earlier)
    rw [List.append_assoc, List.append_assoc]
    exact List.prefix_append before _
  obtain ⟨gap, rfl⟩ := front
  rw [List.length_append] at earlier
  obtain ⟨c, gap, rfl⟩ := List.exists_cons_of_length_pos (Nat.pos_of_lt_add_right earlier)
  have behind : word other ++ after' = c :: gap ++ word key ++ after ++ more := by
    simpa using same.symm
  rcases List.prefix_or_prefix_of_prefix ⟨after', behind⟩ (List.prefix_append _ more) with inside | longer
  · -- The other word stands in the line, where none begins before that of `key`.
    obtain ⟨rest, whole⟩ := inside
    have there : before' ++ c :: gap ++ word key ++ after = before' ++ word other ++ rest := by
      rw [List.append_assoc before' (word other), whole]
      simp
    have bound := first other before' rest there
    simp only [List.length_append, List.length_cons] at bound
    omega
  · obtain ⟨rest, whole⟩ := longer
    have nested : occurs (word key) (word other).tail = true := by
      apply occurs_iff.mpr
      exact ⟨gap, after ++ rest, by simp [← whole]⟩
    rw [unnested] at nested
    cases nested

end Words

theorem declaredKey?_eq_leading? (line : Text) : declaredKey? line = leading? KeyName.opening line := by
  induction line with
  | nil => rfl
  | cons c rest ih => rw [declaredKey?, ih, leading?, openingKey?]

theorem distinct_opening : Distinct KeyName.opening where
  nonempty key := by cases key <;> decide
  apart key other := by cases key <;> cases other <;> decide

/-- A line that declares goes on declaring the same, whatever is written behind it. -/
theorem declaredKey?_append {line : Text} {key : KeyName} (declared : declaredKey? line = some key) (more : Text) :
    declaredKey? (line ++ more) = some key := by
  have unnested (key other : KeyName) : occurs key.opening other.opening.tail = false := by
    cases key <;> cases other <;> decide
  rw [declaredKey?_eq_leading?] at declared ⊢
  exact leading?_append distinct_opening unnested declared more

end HeaderKeys
