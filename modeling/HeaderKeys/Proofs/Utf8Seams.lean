import HeaderKeys.Proofs.TextLines
import HeaderKeys.Text.Utf8

/-! A byte below 0x80 is a character by itself, whatever stands before it: no sequence under
way admits it, and nothing of the sequence is left behind it. So damaged text may be cut
behind every such byte, above all behind a line break, without being read differently. -/

namespace HeaderKeys.Utf8

/-- Every byte still to come is at least 0x80. -/
def Pending.High (p : Pending) : Prop := ∀ bounds ∈ p.next :: p.later, 0x80 ≤ bounds.1

/-- The bounds of a second byte depend on the first one, those of the others do not. -/
private theorem high_chosen {first second : Prop} [Decidable first] [Decidable second] {least most most' : UInt8}
    (above : 0x80 ≤ least) {later : List (UInt8 × UInt8)} (rest : ∀ bounds ∈ later, 0x80 ≤ bounds.1) :
    ∀ bounds ∈ (if first then (least, most) else if second then (0x80, most') else tail) :: later, 0x80 ≤ bounds.1 := by
  intro bounds member
  rcases List.mem_cons.mp member with rfl | member
  · split
    · exact above
    · split
      · exact UInt8.le_refl _
      · exact UInt8.le_refl _
  · exact rest bounds member

theorem lead_high {b : UInt8} {p : Pending} (opened : (lead b).split.2 = some p) : p.High := by
  have high : ∀ bounds ∈ [tail, tail], (0x80 : UInt8) ≤ bounds.1 := by simp [tail]
  unfold lead at opened
  split at opened
  · cases opened
  · split at opened
    · cases opened
    · split at opened
      · cases opened
        exact fun bounds member => high bounds (List.mem_cons_of_mem _ member)
      · split at opened
        · cases opened
          exact high_chosen (by decide) fun bounds member => high bounds (List.mem_cons_of_mem _ member)
        · split at opened
          · cases opened
            exact high_chosen (by decide) high
          · cases opened

theorem push_high {p q : Pending} (high : p.High) {b : UInt8} (pushed : (p.push b).split.2 = some q) : q.High := by
  unfold Pending.push at pushed
  split at pushed
  · cases pushed
  next next later rest =>
    cases pushed
    exact fun bounds member => high bounds (by rw [rest]; exact List.mem_cons_of_mem _ member)

/-- The invariant of the reader. -/
theorem advance_high {state : Option Pending} (high : ∀ p ∈ state, p.High) (b : UInt8) :
    ∀ p ∈ (advance state b).2, p.High := by
  intro q opened
  cases state with
  | none => exact lead_high opened
  | some p =>
    simp only [advance] at opened
    split at opened
    · exact push_high (high p rfl) opened
    · exact lead_high opened

/-- A byte below 0x80 ends what is under way as the end of the input would, and is read by itself. -/
theorem advance_ascii {state : Option Pending} (high : ∀ p ∈ state, p.High) {b : UInt8} (ascii : b < 0x80) :
    advance state b = (decodeFrom state [] ++ [Char.ofNat b.toNat], none) := by
  have alone : (lead b).split = ([Char.ofNat b.toNat], none) := advance_none ascii
  cases state with
  | none => exact alone
  | some p =>
    have refused : p.admits b = false := by
      have least := high p rfl p.next List.mem_cons_self
      have below : ¬ p.next.1 ≤ b := fun reached => absurd (UInt8.le_trans least reached) (UInt8.not_le.mpr ascii)
      simp [Pending.admits, below]
    simp [advance, refused, alone, decodeFrom]

theorem decodeFrom_ascii {state : Option Pending} (high : ∀ p ∈ state, p.High) (before : Bytes) {b : UInt8}
    (ascii : b < 0x80) (after : Bytes) :
    decodeFrom state (before ++ b :: after) = decodeFrom state before ++ Char.ofNat b.toNat :: decode after := by
  induction before generalizing state with
  | nil =>
    rw [List.nil_append, decodeFrom, advance_ascii high ascii]
    simp [decode]
  | cons first before ih =>
    rw [List.cons_append, decodeFrom, ih (advance_high high first), decodeFrom, List.append_assoc]

theorem decode_ascii (before : Bytes) {b : UInt8} (ascii : b < 0x80) (after : Bytes) :
    decode (before ++ b :: after) = decode before ++ Char.ofNat b.toNat :: decode after :=
  decodeFrom_ascii (by simp) before ascii after

private theorem decode_break (before after : Bytes) :
    decode (before ++ 0x0A :: after) = decode before ++ '\n' :: decode after := decode_ascii before (by decide) after

/-- Behind a line break the reading starts afresh. -/
theorem decode_append {a : Bytes} (ends : EndsIn 0x0A a) (b : Bytes) : decode (a ++ b) = decode a ++ decode b := by
  rcases ends.shape with rfl | ⟨before, rfl⟩
  · rfl
  · have alone := decode_break before []
    rw [decode_nil] at alone
    rw [List.append_assoc, List.singleton_append, decode_break, alone]
    simp

theorem endsIn_decode {a : Bytes} (ends : EndsIn 0x0A a) : EndsIn '\n' (decode a) := by
  rcases ends.shape with rfl | ⟨before, rfl⟩
  · exact endsIn_nil
  · rw [decode_break, decode_nil]
    exact endsIn_concat _

end HeaderKeys.Utf8
