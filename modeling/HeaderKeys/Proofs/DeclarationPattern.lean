import HeaderKeys.Proofs.LeadingWords

/-! The pattern of a declaration. It spells its names by a direction and a letter, and a search from the left captures
the first name behind the type. It spells just the four identifiers, so a captured name is always that of
a key. No opening shares a character with another one: a search that is thrown back in the middle of an opening
has passed over none, and what comes before an opening can only declare something itself. -/

namespace HeaderKeys

/-- A direction, `_key_`, and the letter of an array. -/
def PatternName (name : Text) : Prop :=
  ∃ direction ∈ ["in".toList, "out".toList], ∃ letter ∈ ['p', 's'], name = direction ++ "_key_".toList ++ [letter]

/-- The names in the order in which the pattern tries them. -/
def patternNames : List Text :=
  ["in".toList, "out".toList].flatMap fun direction => ['p', 's'].map fun letter => direction ++ "_key_".toList ++ [letter]

/-- Searches from the left, one place after the other, and captures the name of the first match. -/
def capturedName? : Text → Option Text
  | [] => none
  | c :: rest => (patternNames.find? fun name => (elementType ++ name).isPrefixOf (c :: rest)).or (capturedName? rest)

/-- The pattern matches with `name`, and it matches nowhere before that. -/
def FirstMatch (line name : Text) : Prop :=
  PatternName name ∧ ∃ before after, line = before ++ (elementType ++ name) ++ after ∧
    ∀ other before' after', PatternName other → line = before' ++ (elementType ++ other) ++ after' →
      before.length ≤ before'.length

section Names

theorem parse_eq_ok_iff {name : Text} {key : KeyName} : KeyName.parse name = .ok key ↔ key.identifier = name := by
  unfold KeyName.parse
  constructor
  · intro read
    split at read
    next found =>
      cases read
      exact KeyName.identifier_of_ofIdentifier? found
    next => cases read
  · rintro rfl
    rw [KeyName.ofIdentifier?_identifier]

theorem mem_patternNames_iff {name : Text} : name ∈ patternNames ↔ PatternName name := by
  simp only [patternNames, PatternName, List.mem_flatMap, List.mem_map, eq_comm]

/-- The pattern spells the identifiers and nothing else. -/
theorem patternName_iff {name : Text} : PatternName name ↔ ∃ key : KeyName, key.identifier = name := by
  rw [← mem_patternNames_iff]
  constructor
  · have known : ∀ name ∈ patternNames, ∃ key ∈ KeyName.all, key.identifier = name := by decide
    intro member
    obtain ⟨key, _, same⟩ := known name member
    exact ⟨key, same⟩
  · rintro ⟨key, rfl⟩
    cases key <;> decide

/-- At one place the pattern and the openings fit alike. -/
theorem find?_patternNames (text : Text) :
    (patternNames.find? fun name => (elementType ++ name).isPrefixOf text) = (openingKey? text).map KeyName.identifier := by
  cases opened : openingKey? text with
  | none =>
    rw [Option.map_none, List.find?_eq_none]
    intro name member
    obtain ⟨key, rfl⟩ := patternName_iff.mp (mem_patternNames_iff.mp member)
    exact List.find?_eq_none.mp opened key key.mem_all
  | some key =>
    have here := List.find?_some opened
    have member : key.identifier ∈ patternNames := mem_patternNames_iff.mpr (patternName_iff.mpr ⟨key, rfl⟩)
    cases found : patternNames.find? fun name => (elementType ++ name).isPrefixOf text with
    | none => exact absurd here (List.find?_eq_none.mp found _ member)
    | some name =>
      obtain ⟨other, rfl⟩ := patternName_iff.mp (mem_patternNames_iff.mp (List.mem_of_find?_eq_some found))
      have too := List.find?_some found
      simp only [List.isPrefixOf_iff_prefix] at here too
      have same : key = other := distinct_opening.eq_of_prefixes here too
      rw [same, Option.map_some]

theorem capturedName?_eq (line : Text) : capturedName? line = (declaredKey? line).map KeyName.identifier := by
  induction line with
  | nil => rfl
  | cons c rest ih => rw [capturedName?, declaredKey?, find?_patternNames, ih, Option.map_or]

end Names

section Search

theorem declaredKey?_eq_some_iff {line : Text} {key : KeyName} :
    declaredKey? line = some key ↔ ComesFirst KeyName.opening line key := by
  rw [declaredKey?_eq_leading?, leading?_eq_some_iff distinct_opening]

theorem declaredKey?_eq_none_iff {line : Text} : declaredKey? line = none ↔ ∀ key : KeyName, ¬ key.opening <:+: line := by
  rw [declaredKey?_eq_leading?, leading?_eq_none_iff distinct_opening]

theorem firstMatch_identifier_iff {line : Text} {key : KeyName} :
    FirstMatch line key.identifier ↔ ComesFirst KeyName.opening line key := by
  unfold FirstMatch ComesFirst
  constructor
  · rintro ⟨_, before, after, same, first⟩
    exact ⟨before, after, same, fun other before' after' same' =>
      first _ before' after' (patternName_iff.mpr ⟨other, rfl⟩) same'⟩
  · rintro ⟨before, after, same, first⟩
    refine ⟨patternName_iff.mpr ⟨key, rfl⟩, before, after, same, ?_⟩
    intro name before' after' spelled same'
    obtain ⟨other, rfl⟩ := patternName_iff.mp spelled
    exact first other before' after' same'

theorem capturedName?_eq_some_iff {line name : Text} : capturedName? line = some name ↔ FirstMatch line name := by
  rw [capturedName?_eq, Option.map_eq_some_iff]
  constructor
  · rintro ⟨key, declared, rfl⟩
    exact firstMatch_identifier_iff.mpr (declaredKey?_eq_some_iff.mp declared)
  · intro found
    obtain ⟨key, rfl⟩ := patternName_iff.mp found.1
    exact ⟨key, declaredKey?_eq_some_iff.mpr (firstMatch_identifier_iff.mp found), rfl⟩

/-- What ends an opening does not begin one. -/
theorem opening_apart (key other : KeyName) {gap rest : Text} (cut : other.opening = gap ++ rest) (some : gap ≠ [])
    (more : rest ≠ []) : ¬ rest <+: key.opening ∧ ¬ key.opening <+: rest := by
  have known : ∀ n < other.opening.length, 0 < n →
      (other.opening.drop n).isPrefixOf key.opening = false ∧ key.opening.isPrefixOf (other.opening.drop n) = false := by
    cases key <;> cases other <;> decide +kernel
  have least := List.length_pos_iff.mpr some
  have short : gap.length < other.opening.length := by
    have rest := List.length_pos_iff.mpr more
    rw [cut, List.length_append]
    omega
  have apart := known gap.length short least
  rw [cut, List.drop_left, ← Bool.not_eq_true, ← Bool.not_eq_true, List.isPrefixOf_iff_prefix,
    List.isPrefixOf_iff_prefix] at apart
  exact apart

/-- Where nothing is declared, an opening is the first of the line. -/
theorem comesFirst_behind {before : Text} (silent : declaredKey? before = none) (key : KeyName) (after : Text) :
    ComesFirst KeyName.opening (before ++ key.opening ++ after) key := by
  refine ⟨before, after, rfl, fun other before' after' same => Nat.le_of_not_lt fun earlier => ?_⟩
  have nowhere := declaredKey?_eq_none_iff.mp silent other
  rw [List.append_assoc, List.append_assoc] at same
  obtain ⟨gap, rfl⟩ : before' <+: before :=
    List.prefix_of_prefix_length_le ⟨_, same.symm⟩ (List.prefix_append _ _) (Nat.le_of_lt earlier)
  have nonempty : gap ≠ [] := by
    rintro rfl
    simp at earlier
  rw [List.append_assoc, List.append_cancel_left_eq] at same
  rcases List.append_eq_append_iff.mp same with ⟨rest, cut, behind⟩ | ⟨rest, cut, behind⟩
  · -- The other opening reaches into the one at hand.
    have more : rest ≠ [] := by
      rintro rfl
      rw [List.append_nil] at cut
      exact nowhere ⟨before', [], by simp [cut]⟩
    have apart := opening_apart key other cut nonempty more
    rcases List.prefix_or_prefix_of_prefix ⟨after', behind.symm⟩ (List.prefix_append key.opening after) with inside | longer
    · exact apart.1 inside
    · exact apart.2 longer
  · exact nowhere ⟨before', rest, by rw [cut, List.append_assoc]⟩

theorem declaredKey?_around (before : Text) (key : KeyName) (after : Text) :
    declaredKey? (before ++ key.opening ++ after) = (declaredKey? before).or (some key) := by
  cases declared : declaredKey? before with
  | none => exact declaredKey?_eq_some_iff.mpr (comesFirst_behind declared key after)
  | some other =>
    rw [List.append_assoc]
    exact declaredKey?_append declared _

end Search

/-- The opening that begins first in a line decides what the line declares, and only a line without any opening
declares nothing. Whatever stands before an opening hides it only by declaring a key itself, and what
stands behind it is of no account. The same comes out of the pattern: its search captures the name
of the first match, and every name that it captures is read as the key. -/
theorem first_opening_decides :
    (∀ line key, declaredKey? line = some key ↔ ComesFirst KeyName.opening line key) ∧
    (∀ line, declaredKey? line = none ↔ ∀ key : KeyName, ¬ key.opening <:+: line) ∧
    (∀ before key after, declaredKey? (before ++ KeyName.opening key ++ after) = (declaredKey? before).or (some key)) ∧
    (∀ line name, capturedName? line = some name ↔ FirstMatch line name) ∧
    (∀ name, PatternName name ↔ ∃ key, KeyName.parse name = .ok key) ∧
    ∀ line, (capturedName? line).map KeyName.parse = (declaredKey? line).map .ok := by
  refine ⟨fun _ _ => declaredKey?_eq_some_iff, fun _ => declaredKey?_eq_none_iff, declaredKey?_around,
    fun _ _ => capturedName?_eq_some_iff, ?_, ?_⟩
  · intro name
    simp only [patternName_iff, parse_eq_ok_iff]
  · intro line
    have read (key : KeyName) : KeyName.parse key.identifier = .ok key := parse_eq_ok_iff.mpr rfl
    rw [capturedName?_eq, Option.map_map]
    exact Option.map_congr fun key _ => read key

/-- Openings that break off, and one that begins inside such a one. -/
example :
    declaredKey? "uint32_t uint32_t in_key_p".toList = some .inKeyP ∧
      declaredKey? "uint32_t in_key_uint32_t out_key_s uint32_t in_key_p".toList = some .outKeyS ∧
      declaredKey? "uint32_t  in_key_p\nuint32_t in_key_".toList = none := by decide +kernel

end HeaderKeys
