import HeaderKeys.Proofs.CompleteTable
import HeaderKeys.Proofs.ScannedTable

/-! Reading a generated file back. Behind the fixed opening, a constant reaches through the
first closing mark, so the four of them come apart again if each closes just once, at its end.
Those of a scanned table do, and then no two tables have the same file. -/

namespace HeaderKeys

namespace ClassSource

/-- One constant, and what stands behind its line. -/
def member? (text : Text) : Option (Text × Text) := do
  let (body, behind) ← (← text.dropPrefix? "\t".toList).dropInfix? closingMark
  return (body ++ closingMark, ← behind.dropPrefix? "\n".toList)

/-- Several constants with separators between them, and what stands behind the last. -/
def members? : Nat → Text → Option (List Text × Text)
  | 0, text => some ([], text)
  | 1, text => (member? text).map fun (last, behind) => ([last], behind)
  | count + 2, text => do
    let (first, behind) ← member? text
    let (later, behind) ← members? (count + 1) (← behind.dropPrefix? separator)
    return (first :: later, behind)

/-- The constants of a generated file, and what stands behind the last. -/
def declarations? (text : Text) : Option (List Text × Text) := do members? requiredKeys (← text.dropPrefix? opening)

/-- The closing mark stands at the end and does not come sooner, not even across the brace of the
last one. -/
def ClosesOnce (constant : Text) : Prop := ∃ body, constant = body ++ closingMark ∧ closes (body ++ ['\x7d']) = false

theorem dropPrefix?_append (front rest : Text) : (front ++ rest).dropPrefix? front = some rest :=
  List.dropPrefix?_append_of_beq rest (beq_self_eq_true front)

/-- The first mark is the one at the end of the constant. -/
theorem dropInfix?_closingMark {body : Text} (unclosed : closes (body ++ ['\x7d']) = false) (rest : Text) :
    (body ++ closingMark ++ rest).dropInfix? closingMark = some (body, rest) := by
  refine List.dropInfix?_eq_some_iff.mpr ⟨⟨closingMark, rfl, beq_self_eq_true _⟩, fun before mark after same marks => ?_⟩
  obtain rfl := eq_of_beq marks
  apply Nat.le_of_not_lt
  intro sooner
  have here : before ++ closingMark <+: body ++ closingMark ++ rest := ⟨after, same.symm⟩
  have there : body ++ ['\x7d'] <+: body ++ closingMark ++ rest := ⟨';' :: rest, by simp [closingMark]⟩
  have shorter : (before ++ closingMark).length ≤ (body ++ ['\x7d']).length := by
    simp only [List.length_append, closingMark]
    exact Nat.succ_le_succ sooner
  have within : closingMark <:+: body ++ ['\x7d'] :=
    (List.suffix_append before closingMark).isInfix.trans (List.prefix_of_prefix_length_le here there shorter).isInfix
  rw [closes_iff.mpr within] at unclosed
  cases unclosed

theorem member?_append {constant : Text} (once : ClosesOnce constant) (rest : Text) :
    member? (member constant ++ rest) = some (constant, rest) := by
  obtain ⟨body, rfl, unclosed⟩ := once
  have line : member (body ++ closingMark) ++ rest = "\t".toList ++ (body ++ closingMark ++ ("\n".toList ++ rest)) := by
    simp only [member, List.append_assoc]
  simp only [member?, line, dropPrefix?_append, dropInfix?_closingMark unclosed, Option.bind_eq_bind, Option.bind_some]
  rfl

theorem members?_append {constants : List Text} (once : ∀ constant ∈ constants, ClosesOnce constant) (rest : Text) :
    members? constants.length (joinWith separator (constants.map member) ++ rest) = some (constants, rest) := by
  induction constants with
  | nil => rfl
  | cons first constants ih =>
    have alone (behind : Text) := member?_append (once first List.mem_cons_self) behind
    cases constants with
    | nil => simp [members?, joinWith, alone]
    | cons second constants =>
      have later := ih fun constant member => once constant (List.mem_cons_of_mem _ member)
      simp only [List.length_cons, List.map_cons, joinWith, List.append_assoc] at later ⊢
      simp only [members?, alone, dropPrefix?_append, later, Option.bind_eq_bind, Option.bind_some]
      rfl

theorem declarations?_layout {constants : List Text} (full : constants.length = requiredKeys)
    (once : ∀ constant ∈ constants, ClosesOnce constant) : declarations? (layout constants) = some (constants, closing) := by
  simp only [declarations?, layout, List.append_assoc, dropPrefix?_append, ← full, Option.bind_eq_bind, Option.bind_some]
  exact members?_append once closing

end ClassSource

namespace KeyTable

theorem Scanned.closesOnce {table : KeyTable} (scanned : Scanned table) {key : KeyName} {constant : Text}
    (held : table.get? key = some constant) : ClassSource.ClosesOnce constant := by
  obtain ⟨before, after, around, _⟩ := List.lookup_eq_some_iff.mp held
  have member : (key, constant) ∈ table.entries := by simp [around]
  obtain ⟨block, _, unclosed, rfl⟩ : IsConstant key constant := scanned.constants _ member
  exact declaration_closes key ((closes_suffixLiterals block).trans unclosed)

theorem Scanned.recovered {table : KeyTable} (scanned : Scanned table) {constants : KeyName → Text}
    (held : ∀ key, table.get? key = some (constants key)) :
    ClassSource.declarations? (ClassSource.layout (KeyName.all.map constants)) =
      some (KeyName.all.map constants, ClassSource.closing) := by
  apply ClassSource.declarations?_layout (List.length_map _)
  intro constant member
  obtain ⟨key, _, rfl⟩ := List.mem_map.mp member
  exact scanned.closesOnce (held key)

/-- The generated file of a scanned table comes apart into the four constants in the order of
output and the end of the class, and no other scanned table has that file. -/
theorem generated_text_determines_table {table : KeyTable} (scanned : Scanned table) (complete : table.isComplete = true) :
    ∃ (text : Text) (constants : KeyName → Text), table.render = .ok text ∧
      (∀ key, table.get? key = some (constants key)) ∧
      ClassSource.declarations? text =
        some ([constants .outKeyP, constants .outKeyS, constants .inKeyP, constants .inKeyS], "\x7d\n\n".toList) ∧
      ∀ other : KeyTable, Scanned other → other.isComplete = true → (other.render = table.render ↔ other = table) := by
  obtain ⟨constants, held⟩ := exists_constants complete
  have rendered := render_of_get? held
  have recovered := scanned.recovered held
  refine ⟨_, constants, rendered, held, recovered, fun other scanned' complete' => ?_⟩
  constructor
  · intro same
    obtain ⟨constants', held'⟩ := exists_constants complete'
    rw [render_of_get? held', rendered] at same
    have again := scanned'.recovered held'
    rw [Except.ok.inj same, recovered] at again
    have agree := List.map_inj_left.mp (congrArg Prod.fst (Option.some.inj again))
    apply ext_get?
    intro key
    rw [held', held, agree key (KeyName.mem_all key)]
  · rintro rfl
    rfl

/-- Blocks may hold a tab on a line of its own, braces, the end of a class and another constant's
first line. -/
theorem generated_text_determines_table_of_deceptive_blocks :
    let first := "uint32_t out_key_p\n\t\n\t\x7d\n;\n\x7d\n\n\x7d;\nuint32_t out_key_s\n\x7d;\nuint32_t in_key_p\n".toList
    let second := "uint32_t in_key_p\npublic static final long[][] in_key_s = \x7b\x7b\n\x7d;\nuint32_t in_key_s\n0xdeadbeef\x7d\n\x7d;".toList
    let table := (scanText second (scanText first empty).2).2
    let pieces : List Text := [
      "public static final long[] out_key_p = \x7b\n\t\n\t\x7d\n;\n\x7d\n\n\t\x7d;".toList,
      "public static final long[][] out_key_s = \x7b\x7b\n\t\x7d\x7d;".toList,
      "public static final long[] in_key_p = \x7b\npublic static final long[][] in_key_s = \x7b\x7b\n\t\x7d;".toList,
      "public static final long[][] in_key_s = \x7b\x7b\n0xdeadbeefL\x7d\n\t\x7d\x7d;".toList]
    Scanned table ∧ table.isComplete = true ∧
      ∃ text, table.render = .ok text ∧ ClassSource.declarations? text = some (pieces, "\x7d\n\n".toList) ∧
        ∀ other : KeyTable, Scanned other → other.isComplete = true → (other.render = table.render ↔ other = table) := by
  intro first second table pieces
  have scanned : Scanned table := (Scanned.empty.text first).text second
  have complete : table.isComplete = true := by decide +kernel
  obtain ⟨text, constants, rendered, held, recovered, alone⟩ := generated_text_determines_table scanned complete
  refine ⟨scanned, complete, text, rendered, ?_, alone⟩
  have known : KeyName.all.map table.get? = pieces.map some := by decide +kernel
  have same : KeyName.all.map constants = pieces := by
    apply (List.map_inj_right fun _ _ => Option.some.inj).mp
    rw [← known, List.map_map]
    exact List.map_congr_left fun key _ => (held key).symm
  rw [← same]
  exact recovered

end KeyTable

end HeaderKeys
