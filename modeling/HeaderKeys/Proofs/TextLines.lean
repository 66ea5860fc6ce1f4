import HeaderKeys.Declaration

/-! Where a text is cut into lines, and what the cuts cannot hide. Cutting distributes over
a seam that stands behind a line break, and every line with another one behind it ends
with its break. A closing mark can reach across a seam only from a brace to a semicolon,
so lines that end with their breaks hold every mark of the text they make up. -/

namespace HeaderKeys

section Pieces

variable {α : Type} {stop : α}

/-- Nothing stands behind the last `stop`: the items are none, or the last is a `stop`. -/
def EndsIn (stop : α) (items : List α) : Prop := ∀ last ∈ items.getLast?, last = stop

instance [DecidableEq α] (stop : α) (items : List α) : Decidable (EndsIn stop items) := by
  unfold EndsIn
  infer_instance

theorem endsIn_nil : EndsIn stop [] := by simp [EndsIn]

theorem endsIn_concat (before : List α) : EndsIn stop (before ++ [stop]) := by simp [EndsIn]

theorem EndsIn.shape {items : List α} (ends : EndsIn stop items) : items = [] ∨ ∃ before, items = before ++ [stop] := by
  cases last : items.getLast? with
  | none => exact .inl (List.getLast?_eq_none_iff.mp last)
  | some c =>
    obtain ⟨before, rfl⟩ := List.getLast?_eq_some_iff.mp last
    obtain rfl : c = stop := ends c last
    exact .inr ⟨before, rfl⟩

theorem EndsIn.tail {first : α} {rest : List α} (ends : EndsIn stop (first :: rest)) : EndsIn stop rest := by
  cases rest with
  | nil => exact endsIn_nil
  | cons second rest => simpa [EndsIn] using ends

theorem EndsIn.append {a b : List α} (first : EndsIn stop a) (second : EndsIn stop b) : EndsIn stop (a ++ b) := by
  cases b with
  | nil => simpa using first
  | cons c rest =>
    intro last member
    apply second last
    simpa [List.getLast?_append] using member

theorem EndsIn.flatten {pieces : List (List α)} (ends : ∀ piece ∈ pieces, EndsIn stop piece) :
    EndsIn stop pieces.flatten := by
  induction pieces with
  | nil => exact endsIn_nil
  | cons piece pieces ih =>
    rw [List.flatten_cons]
    exact (ends piece (by simp)).append (ih fun other member => ends other (by simp [member]))

variable [BEq α] [LawfulBEq α]

/-- What comes before a seam behind a `stop` is cut as if nothing followed it. -/
theorem splitAfter_append {a : List α} (ends : EndsIn stop a) (b : List α) :
    splitAfter stop (a ++ b) = splitAfter stop a ++ splitAfter stop b := by
  induction a with
  | nil => rfl
  | cons c rest ih =>
    have later := ih ends.tail
    simp only [List.cons_append, splitAfter]
    split
    · rw [later, List.cons_append]
    next different =>
      rw [later]
      cases pieces : splitAfter stop rest with
      | cons piece pieces => rfl
      | nil =>
        -- Only an empty rest has no pieces, but then `c` would be the last item.
        have none : rest = [] := by simpa [pieces] using (flatten_splitAfter stop rest).symm
        subst none
        exact absurd (beq_iff_eq.mpr (ends c rfl)) different

theorem splitAfter_of_not_mem {items : List α} (some : items ≠ []) (absent : stop ∉ items) :
    splitAfter stop items = [items] := by
  induction items with
  | nil => exact absurd rfl some
  | cons c rest ih =>
    obtain ⟨here, later⟩ : stop ≠ c ∧ stop ∉ rest := by simpa using absent
    have different : ¬ (c == stop) = true := fun same => here (eq_of_beq same).symm
    simp only [splitAfter, if_neg different]
    cases rest with
    | nil => rfl
    | cons d rest => rw [ih (List.cons_ne_nil d rest) later]

/-- The first piece reaches up to the first `stop`. -/
theorem splitAfter_first {before : List α} (absent : stop ∉ before) (after : List α) :
    splitAfter stop (before ++ stop :: after) = (before ++ [stop]) :: splitAfter stop after := by
  induction before with
  | nil => simp [splitAfter]
  | cons c before ih =>
    obtain ⟨here, later⟩ : stop ≠ c ∧ stop ∉ before := by simpa using absent
    have different : ¬ (c == stop) = true := fun same => here (eq_of_beq same).symm
    rw [List.cons_append, splitAfter, if_neg different, ih later]
    rfl

/-- Every piece with another one behind it ends with the `stop` at which it was cut. -/
theorem getLast?_of_splitAfter {items : List α} {front : List (List α)} {piece next : List α} {back : List (List α)}
    (cut : splitAfter stop items = front ++ piece :: next :: back) : piece.getLast? = some stop := by
  induction items generalizing front piece with
  | nil => simp [splitAfter] at cut
  | cons c rest ih =>
    simp only [splitAfter] at cut
    split at cut
    next same =>
      cases front with
      | nil =>
        simp only [List.nil_append, List.cons.injEq] at cut
        simp [← cut.1, eq_of_beq same]
      | cons first front => exact ih (List.cons.inj cut).2
    · split at cut
      next none => cases front <;> simp at cut
      next head pieces some =>
        cases front with
        | nil =>
          simp only [List.nil_append, List.cons.injEq] at cut
          have behind : splitAfter stop rest = [] ++ head :: next :: back := by rw [some, cut.2]; rfl
          have ended : head.getLast? = Option.some stop := ih behind
          rw [← cut.1, List.getLast?_cons, ended]
          rfl
        | cons first front =>
          have behind : splitAfter stop rest = head :: front ++ piece :: next :: back := by
            rw [some, (List.cons.inj cut).2]
            rfl
          exact ih behind

/-- Only the last piece can lack its `stop`. -/
theorem endsIn_of_mem_dropLast (items : List α) : ∀ piece ∈ (splitAfter stop items).dropLast, EndsIn stop piece := by
  intro piece member
  rcases List.eq_nil_or_concat (splitAfter stop items) with none | ⟨front, last, cut⟩
  · simp [none] at member
  · rw [List.concat_eq_append] at cut
    rw [cut, List.dropLast_concat] at member
    obtain ⟨before, after, rfl⟩ := List.append_of_mem member
    have more : after ++ [last] ≠ [] := by simp
    obtain ⟨next, back, behind⟩ := List.exists_cons_of_ne_nil more
    have here : splitAfter stop items = before ++ piece :: next :: back := by
      rw [cut, ← behind]
      simp
    intro c found
    rw [getLast?_of_splitAfter here] at found
    exact (Option.some.inj found).symm

end Pieces

namespace Text

theorem lines_append {a : Text} (ends : EndsIn '\n' a) (b : Text) : lines (a ++ b) = lines a ++ lines b :=
  splitAfter_append ends b

/-- Only the last line of a text can lack its line break. -/
theorem getLast?_of_lines {text : Text} {front : List Text} {block : List Text} {next : Text} {back : List Text}
    (cut : text.lines = front ++ block ++ next :: back) : ∀ line ∈ block, line.getLast? = some '\n' := by
  intro line member
  obtain ⟨before, after, rfl⟩ := List.append_of_mem member
  cases after with
  | nil =>
    have here : splitAfter '\n' text = (front ++ before) ++ line :: next :: back := by simpa [lines] using cut
    exact getLast?_of_splitAfter here
  | cons second after =>
    have here : splitAfter '\n' text = (front ++ before) ++ line :: second :: (after ++ next :: back) := by
      simpa [lines] using cut
    exact getLast?_of_splitAfter here

end Text

theorem occurs_iff_contained {α : Type} [BEq α] [LawfulBEq α] {word text : List α} : occurs word text = true ↔ word <:+: text := by
  rw [occurs_iff]
  constructor
  · rintro ⟨before, after, same⟩
    exact ⟨before, after, same.symm⟩
  · rintro ⟨before, after, same⟩
    exact ⟨before, after, same.symm⟩

theorem closes_iff {line : Text} : closes line = true ↔ closingMark <:+: line := occurs_iff_contained

theorem closes_cons (c : Char) (rest : Text) :
    closes (c :: rest) = (c == '\x7d' && rest.head? == some ';' || closes rest) := by
  cases rest with
  | nil => simp [closes, occurs, closingMark, List.isPrefixOf]
  | cons d rest =>
    have first : closingMark.isPrefixOf (c :: d :: rest) = (c == '\x7d' && d == ';') := by
      simp [closingMark, List.isPrefixOf, Bool.beq_comm]
    simp only [closes, occurs, first, List.head?_cons, Option.some_beq_some]

/-- A mark of a joined text stands in one of the parts or across the seam. -/
theorem closes_append (a b : Text) :
    closes (a ++ b) = (closes a || closes b || a.getLast? == some '\x7d' && b.head? == some ';') := by
  induction a with
  | nil => simp [closes, occurs, closingMark]
  | cons c rest ih =>
    rw [List.cons_append, closes_cons, closes_cons, ih]
    cases rest with
    | nil => simp [closes, occurs, closingMark, Bool.or_comm]
    | cons d rest => simp [Bool.or_assoc]

/-- Lines that end with their breaks and hold no mark make up a text that holds none. -/
theorem closes_flatten {block : List Text} (ended : ∀ line ∈ block, line.getLast? = some '\n')
    (unclosed : ∀ line ∈ block, closes line = false) : closes block.flatten = false := by
  induction block with
  | nil => rfl
  | cons line block ih =>
    have later := ih (fun other member => ended other (by simp [member])) fun other member => unclosed other (by simp [member])
    rw [List.flatten_cons, closes_append, unclosed line (by simp), later, ended line (by simp)]
    simp

end HeaderKeys
