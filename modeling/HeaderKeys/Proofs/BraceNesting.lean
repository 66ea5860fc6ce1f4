import HeaderKeys.Declaration
import HeaderKeys.Literal

/-! How deep a constant is nested. Only braces count, so labels, line breaks and suffixes may be left out, and a
constant is its block with one or two pairs around it. It is one whole initializer exactly if the block closes what
it opens and never closes more than the template has left open for it: the last pair must not be closed early.
So rows may be parted inside the block of S-boxes, and nowhere else. -/

namespace HeaderKeys

open Literal

def isBrace (c : Char) : Bool := c == '\x7b' || c == '\x7d'

/-- The braces of a text and nothing else. -/
def braces (text : Text) : Text := text.filter isBrace

/-- How many braces are open behind a text. -/
def depth (text : Text) : Int := (text.count '\x7b' : Int) - text.count '\x7d'

/-- No beginning of a text is less deep than `floor`. -/
def StaysAbove (floor : Int) (text : Text) : Prop := ∀ front, front <+: text → floor ≤ depth front

instance (floor : Int) (text : Text) : Decidable (StaysAbove floor text) :=
  decidable_of_iff (∀ n ≤ text.length, floor ≤ depth (text.take n))
    ⟨fun all front begins => by
        have here := all front.length begins.length_le
        rwa [← List.prefix_iff_eq_take.mp begins] at here,
      fun above n _ => above _ (List.take_prefix n text)⟩

/-- Between the first and the last brace some brace is open throughout, and none is behind them. -/
structure Enclosed (text : Text) : Prop where
  inside : ∀ front back, text = front ++ back → '\x7b' ∈ front → '\x7d' ∈ back → 1 ≤ depth front
  closed : depth text = 0

/-- How many pairs of braces a constant has around its block. -/
def KeyName.pairs (key : KeyName) : Nat := if key.isPlural then 2 else 1

def rowSeparator : Text := "\x7d,\x7b".toList

section Depth

@[simp] theorem depth_append (a b : Text) : depth (a ++ b) = depth a + depth b := by
  simp only [depth, List.count_append]
  omega

theorem depth_opening (n : Nat) : depth (List.replicate n '\x7b') = n := by
  simp [depth, List.count_replicate]

theorem depth_closing (n : Nat) : depth (List.replicate n '\x7d') = -n := by
  simp [depth, List.count_replicate]

theorem staysAbove_append_iff {floor : Int} {a b : Text} :
    StaysAbove floor (a ++ b) ↔ StaysAbove floor a ∧ StaysAbove (floor - depth a) b := by
  constructor
  · intro above
    refine ⟨fun front begins => above front (begins.trans (List.prefix_append a b)), fun front begins => ?_⟩
    have further := above (a ++ front) ((List.prefix_append_right_inj a).mpr begins)
    rw [depth_append] at further
    omega
  · rintro ⟨first, second⟩ front begins
    rcases List.prefix_or_prefix_of_prefix begins (List.prefix_append a b) with inside | ⟨rest, rfl⟩
    · exact first front inside
    · have behind := second rest ((List.prefix_append_right_inj a).mp begins)
      rw [depth_append]
      omega

end Depth

section Braces

@[simp] theorem braces_append (a b : Text) : braces (a ++ b) = braces a ++ braces b := List.filter_append a b

@[simp] theorem depth_braces (text : Text) : depth (braces text) = depth text := by
  rw [depth, braces, List.count_filter (by decide), List.count_filter (by decide), depth]

theorem opening_mem_braces {text : Text} : '\x7b' ∈ braces text ↔ '\x7b' ∈ text := by
  simp [braces, isBrace]

theorem closing_mem_braces {text : Text} : '\x7d' ∈ braces text ↔ '\x7d' ∈ text := by
  simp [braces, isBrace]

theorem staysAbove_braces_iff {floor : Int} {text : Text} : StaysAbove floor (braces text) ↔ StaysAbove floor text := by
  constructor
  · intro above front begins
    have kept := above (braces front) (begins.filter isBrace)
    rwa [depth_braces] at kept
  · intro above front begins
    obtain ⟨whole, within, rfl⟩ := List.prefix_filter_iff.mp begins
    have kept := above whole within
    rwa [← depth_braces] at kept

theorem enclosed_braces_iff {text : Text} : Enclosed (braces text) ↔ Enclosed text := by
  constructor
  · rintro ⟨inside, closed⟩
    refine ⟨fun front back same opened closes => ?_, (depth_braces text).symm.trans closed⟩
    have cut : braces text = braces front ++ braces back := by rw [same, braces_append]
    have deep := inside _ _ cut (opening_mem_braces.mpr opened) (closing_mem_braces.mpr closes)
    rwa [depth_braces] at deep
  · rintro ⟨inside, closed⟩
    refine ⟨fun front back same opened closes => ?_, (depth_braces text).trans closed⟩
    obtain ⟨before, after, rfl, rfl, rfl⟩ := List.filter_eq_append_iff.mp same
    have deep := inside before after rfl (opening_mem_braces.mp opened) (closing_mem_braces.mp closes)
    rwa [← depth_braces] at deep

theorem braces_suffixFrom (progress : Progress) (text : Text) : braces (suffixFrom progress text) = braces text := by
  have free (progress : Progress) : braces progress.suffix = [] := by
    unfold Progress.suffix
    split <;> decide
  induction text generalizing progress with
  | nil => exact free progress
  | cons c rest ih =>
    have here (later : Text) : braces (c :: later) = braces [c] ++ braces later := braces_append [c] later
    simp only [suffixFrom]
    split
    · rw [here, ih, ← here rest]
    · rw [braces_append, free, List.nil_append, here, ih, ← here rest]

theorem braces_suffixLiterals (text : Text) : braces (suffixLiterals text) = braces text := braces_suffixFrom .start text

theorem braces_around {head tail : Text} {pairs : Nat} (opening : braces head = List.replicate pairs '\x7b')
    (closing : braces tail = List.replicate pairs '\x7d') (block : Text) :
    braces (head ++ block ++ tail) = List.replicate pairs '\x7b' ++ braces block ++ List.replicate pairs '\x7d' := by
  rw [braces_append, braces_append, opening, closing]

/-- The braces of a constant are pairs around those of its block. -/
theorem braces_declaration (key : KeyName) (block : Text) :
    braces (declaration key block) =
      List.replicate key.pairs '\x7b' ++ braces block ++ List.replicate key.pairs '\x7d' := by
  cases key with
  | outKeyP | outKeyS | inKeyP | inKeyS => exact braces_around (by decide) (by decide) block

end Braces

section Enclosure

/-- With pairs of braces around it a text is enclosed if it leaves one of them open until the end. -/
theorem enclosed_around_iff {pairs : Nat} (some : 0 < pairs) (text : Text) :
    Enclosed (List.replicate pairs '\x7b' ++ text ++ List.replicate pairs '\x7d') ↔
      depth text = 0 ∧ StaysAbove (1 - pairs) text := by
  have whole : depth (List.replicate pairs '\x7b' ++ text ++ List.replicate pairs '\x7d') = depth text := by
    rw [depth_append, depth_append, depth_opening, depth_closing]
    omega
  constructor
  · rintro ⟨inside, closed⟩
    refine ⟨whole.symm.trans closed, ?_⟩
    rintro front ⟨back, rfl⟩
    have deep := inside (List.replicate pairs '\x7b' ++ front) (back ++ List.replicate pairs '\x7d') (by simp)
      (by simp; omega) (by simp; omega)
    rw [depth_append, depth_opening] at deep
    omega
  · rintro ⟨flat, above⟩
    refine ⟨fun front back same opened closes => ?_, whole.trans flat⟩
    rw [List.append_assoc] at same
    rcases List.append_eq_append_iff.mp same with ⟨begun, rfl, behind⟩ | ⟨rest, head, rfl⟩
    · rw [depth_append, depth_opening]
      rcases List.append_eq_append_iff.mp behind with ⟨ended, rfl, tail⟩ | ⟨rest, rfl, rfl⟩
      · -- Among the last braces, not all of which are in front, for one is behind.
        obtain ⟨total, few, many⟩ := List.replicate_eq_append_iff.mp tail
        have open' := List.length_pos_of_mem closes
        rw [few, depth_append, flat, depth_closing]
        omega
      · have high := above begun (List.prefix_append begun rest)
        omega
    · -- Among the first braces, of which one is in front.
      obtain ⟨total, few, many⟩ := List.replicate_eq_append_iff.mp head
      have some' := List.length_pos_of_mem opened
      rw [few, depth_opening]
      omega

theorem enclosed_declaration_iff (key : KeyName) (block : Text) :
    Enclosed (declaration key block) ↔ depth block = 0 ∧ StaysAbove (if key.isPlural then -1 else 0) block := by
  have some : 0 < key.pairs := by
    unfold KeyName.pairs
    split <;> decide
  have floor : (1 - key.pairs : Int) = if key.isPlural then -1 else 0 := by
    unfold KeyName.pairs
    split <;> rfl
  rw [← enclosed_braces_iff, braces_declaration, enclosed_around_iff some, depth_braces, staysAbove_braces_iff, floor]

theorem enclosed_suffixed_iff (key : KeyName) (block : Text) :
    Enclosed (declaration key (suffixLiterals block)) ↔ Enclosed (declaration key block) := by
  rw [← enclosed_braces_iff, braces_declaration, braces_suffixLiterals, ← braces_declaration, enclosed_braces_iff]

end Enclosure

section Rows

variable {rows : List Text}

theorem depth_rows (flat : ∀ row ∈ rows, depth row = 0) : depth (joinWith rowSeparator rows) = 0 := by
  induction rows with
  | nil => rfl
  | cons row later ih =>
    obtain ⟨here, others⟩ := List.forall_mem_cons.mp flat
    cases later with
    | nil => exact here
    | cons next later =>
      have even : depth rowSeparator = 0 := by decide
      rw [joinWith, depth_append, depth_append, here, even, ih others]
      rfl

theorem staysAbove_rows (balanced : ∀ row ∈ rows, depth row = 0 ∧ StaysAbove 0 row) :
    StaysAbove (-1) (joinWith rowSeparator rows) := by
  have lower {text : Text} (above : StaysAbove 0 text) : StaysAbove (-1) text := fun front begins => by
    have high := above front begins
    omega
  induction rows with
  | nil => exact lower (by decide)
  | cons row later ih =>
    obtain ⟨⟨flat, above⟩, others⟩ := List.forall_mem_cons.mp balanced
    cases later with
    | nil => exact lower above
    | cons next later =>
      have even : depth rowSeparator = 0 := by decide
      have dip : StaysAbove (-1) rowSeparator := by decide
      rw [joinWith, staysAbove_append_iff, staysAbove_append_iff, depth_append, flat, even]
      exact ⟨⟨lower above, dip⟩, ih others⟩

/-- A separator closes a brace that its row has not opened. -/
theorem staysAbove_zero_rows_iff (balanced : ∀ row ∈ rows, depth row = 0 ∧ StaysAbove 0 row) :
    StaysAbove 0 (joinWith rowSeparator rows) ↔ rows.length ≤ 1 := by
  cases rows with
  | nil => exact iff_of_true (by decide) (by decide)
  | cons row later =>
    obtain ⟨⟨flat, above⟩, _⟩ := List.forall_mem_cons.mp balanced
    cases later with
    | nil => exact iff_of_true above (by simp)
    | cons next later =>
      have dip : ¬ StaysAbove 0 rowSeparator := by decide
      rw [joinWith, staysAbove_append_iff, staysAbove_append_iff, flat]
      refine iff_of_false (fun high => dip high.1.2) (by simp)

end Rows

/-- A constant is enclosed by its braces exactly if its block closes all that it opens and no beginning of the block
closes more than was open in it, one brace excepted for S-boxes. The rewrite leaves every brace in its place. So rows
with separators between them make up S-boxes, and only a single row makes up a P-array. -/
theorem constants_enclosed_iff :
    (∀ key block, Enclosed (declaration key (suffixLiterals block)) ↔
      depth block = 0 ∧ StaysAbove (if key.isPlural then -1 else 0) block) ∧
    (∀ block, braces (suffixLiterals block) = braces block) ∧
    (∀ key block, Enclosed (declaration key (suffixLiterals block)) ↔ Enclosed (declaration key block)) ∧
    ∀ rows : List Text, (∀ row ∈ rows, depth row = 0 ∧ StaysAbove 0 row) → ∀ key,
      (Enclosed (declaration key (suffixLiterals (joinWith rowSeparator rows))) ↔ key.isPlural = true ∨ rows.length ≤ 1) := by
  refine ⟨fun key block => ?_, braces_suffixLiterals, enclosed_suffixed_iff, fun rows balanced key => ?_⟩
  · rw [enclosed_suffixed_iff, enclosed_declaration_iff]
  · have flat := depth_rows fun row member => (balanced row member).1
    rw [enclosed_suffixed_iff, enclosed_declaration_iff, and_iff_right flat]
    cases plural : key.isPlural with
    | true => exact iff_of_true (staysAbove_rows balanced) (.inl rfl)
    | false =>
      rw [if_neg Bool.false_ne_true, staysAbove_zero_rows_iff balanced, or_iff_right Bool.false_ne_true]

/-- Two rows, the second with braces of its own. Two separators at once would close the last pair. -/
theorem constants_enclosed_iff_of_two_rows :
    let rows := ["\n\t0x6C0B6E8D,\n\t".toList, "\n\t\x7b0x1\x7d\n".toList]
    (∀ row ∈ rows, depth row = 0 ∧ StaysAbove 0 row) ∧
      Enclosed (declaration .outKeyS (suffixLiterals "\n\t0x6C0B6E8D,\n\t\x7d,\x7b\n\t\x7b0x1\x7d\n".toList)) ∧
      ¬ Enclosed (declaration .outKeyP (suffixLiterals "\n\t0x6C0B6E8D,\n\t\x7d,\x7b\n\t\x7b0x1\x7d\n".toList)) ∧
      ¬ Enclosed (declaration .inKeyS (suffixLiterals "\x7d\x7d\n\x7b\x7b\n".toList)) := by
  intro rows
  obtain ⟨single, _, _, joined⟩ := constants_enclosed_iff
  have balanced : ∀ row ∈ rows, depth row = 0 ∧ StaysAbove 0 row := by decide +kernel
  have whole : "\n\t0x6C0B6E8D,\n\t\x7d,\x7b\n\t\x7b0x1\x7d\n".toList = joinWith rowSeparator rows := by decide
  refine ⟨balanced, ?_, ?_, ?_⟩
  · rw [whole]
    exact (joined rows balanced .outKeyS).mpr (.inl (by decide))
  · rw [whole, joined rows balanced .outKeyP]
    decide
  · rw [single]
    decide

end HeaderKeys
