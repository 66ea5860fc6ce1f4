import HeaderKeys.Proofs.Utf8Seams

/-! ASCII in damaged text. Whatever carries a sequence of several bytes to its end makes a
character above 0x7F, and so is what stands in for damage. So each ASCII character of the
text is read from its own byte, words of ASCII stand in the text where they stand in the
bytes, and the lines of the text are what the lines of the bytes are read as. -/

namespace HeaderKeys.Utf8

/-- Whatever bytes carry the sequence to its end, they make a character that is not one of ASCII. -/
def Completes (bits : Nat) : List (UInt8 × UInt8) → Prop
  | [] => bits.isValidChar ∧ 0x80 ≤ bits
  | bounds :: later => ∀ b, bounds.1 ≤ b → b ≤ bounds.2 → Completes (bits * 64 + b.toNat % 64) later

def Pending.Wide (p : Pending) : Prop := Completes p.bits (p.next :: p.later)

section Leads

variable {bits : Nat}

/-- The last byte. The gap is that of the surrogates. -/
theorem completes_last (least : 2 ≤ bits) (gap : bits < 0x360 ∨ 0x37F < bits) (most : bits < 0x4400) : Completes bits [tail] := by
  intro b _ _
  have : (bits * 64 + b.toNat % 64).isValidChar := by
    unfold Nat.isValidChar
    omega
  exact ⟨this, by omega⟩

theorem completes_last_two (least : 0x10 ≤ bits) (most : bits < 0x110) : Completes bits [tail, tail] := by
  intro b _ _
  exact completes_last (by omega) (by omega) (by omega)

end Leads

/-- The bounds on a second byte are just those that keep the value a character of its length. -/
theorem lead_wide {b : UInt8} {p : Pending} (opened : (lead b).split.2 = some p) : p.Wide := by
  unfold lead at opened
  simp only [UInt8.lt_iff_toNat_lt, ← UInt8.toNat_inj, UInt8.reduceToNat] at opened
  split at opened
  · cases opened
  split at opened
  · cases opened
  split at opened
  · cases opened
    -- Two bytes.
    simp only [Pending.Wide]
    exact completes_last (by omega) (by omega) (by omega)
  split at opened
  · cases opened
    -- Three bytes: 0xE0 leaves out what two bytes can spell, and 0xED the surrogates.
    simp only [Pending.Wide]
    split
    · intro second least most
      simp only [UInt8.le_iff_toNat_le, UInt8.reduceToNat] at least most
      exact completes_last (by omega) (by omega) (by omega)
    split
    · intro second least most
      simp only [UInt8.le_iff_toNat_le, UInt8.reduceToNat] at least most
      exact completes_last (by omega) (by omega) (by omega)
    · intro second _ _
      exact completes_last (by omega) (by omega) (by omega)
  split at opened
  · cases opened
    -- Four bytes: 0xF0 leaves out what three bytes can spell, and 0xF4 what is above all characters.
    simp only [Pending.Wide]
    split
    · intro second least most
      simp only [UInt8.le_iff_toNat_le, UInt8.reduceToNat] at least most
      exact completes_last_two (by omega) (by omega)
    split
    · intro second least most
      simp only [UInt8.le_iff_toNat_le, UInt8.reduceToNat] at least most
      exact completes_last_two (by omega) (by omega)
    · intro second _ _
      exact completes_last_two (by omega) (by omega)
  · cases opened

theorem toNat_ofNat {n : Nat} (valid : n.isValidChar) : (Char.ofNat n).toNat = n := by
  rw [Char.ofNat, dif_pos valid]
  rfl

theorem toNat_ofNat_ascii {b : UInt8} (ascii : b < 0x80) : (Char.ofNat b.toNat).toNat = b.toNat := by
  simp only [UInt8.lt_iff_toNat_lt, UInt8.reduceToNat] at ascii
  exact toNat_ofNat (.inl (by omega))

theorem lead_of_high {b : UInt8} (high : ¬ b < 0x80) : lead b = .char replacement ∨ ∃ p, lead b = .opens p := by
  unfold lead
  rw [if_neg high]
  split
  · exact .inl rfl
  split
  · exact .inr ⟨_, rfl⟩
  split
  · exact .inr ⟨_, rfl⟩
  split
  · exact .inr ⟨_, rfl⟩
  · exact .inl rfl

def NoAscii (text : Text) : Prop := ∀ c ∈ text, 0x80 ≤ c.toNat

theorem noAscii_replacement : NoAscii [replacement] := by
  intro c member
  rw [List.mem_singleton.mp member]
  decide

theorem noAscii_lead {b : UInt8} (high : ¬ b < 0x80) : NoAscii (lead b).split.1 := by
  rcases lead_of_high high with damaged | ⟨p, opens⟩
  · rw [damaged]
    exact noAscii_replacement
  · rw [opens]
    simp [Lead.split, NoAscii]

theorem push_wide {p : Pending} (wide : p.Wide) {b : UInt8} (admitted : p.admits b = true) :
    NoAscii (p.push b).split.1 ∧ ∀ q ∈ (p.push b).split.2, q.Wide := by
  obtain ⟨least, most⟩ : p.next.1 ≤ b ∧ b ≤ p.next.2 := by simpa [Pending.admits] using admitted
  have behind : Completes (p.bits * 64 + b.toNat % 64) p.later := wide b least most
  unfold Pending.push
  split
  next last =>
    rw [last] at behind
    refine ⟨fun c member => ?_, by simp [Lead.split]⟩
    rw [List.mem_singleton.mp member, toNat_ofNat behind.1]
    exact behind.2
  next next later rest =>
    rw [rest] at behind
    refine ⟨by simp [Lead.split, NoAscii], fun q opened => ?_⟩
    cases opened
    exact behind

/-- A byte that is not ASCII adds no character of ASCII, and leaves a sequence behind that will not either. -/
theorem advance_wide {state : Option Pending} (wide : ∀ p ∈ state, p.Wide) {b : UInt8} (high : ¬ b < 0x80) :
    NoAscii (advance state b).1 ∧ ∀ p ∈ (advance state b).2, p.Wide := by
  cases state with
  | none => exact ⟨noAscii_lead high, fun p opened => lead_wide opened⟩
  | some p =>
    simp only [advance]
    split
    next admitted => exact push_wide (wide p rfl) admitted
    next refused =>
      refine ⟨fun c member => ?_, fun q opened => lead_wide opened⟩
      rcases List.mem_cons.mp member with rfl | later
      · exact noAscii_replacement _ List.mem_cons_self
      · exact noAscii_lead high c later

theorem noAscii_decodeFrom_nil (state : Option Pending) : NoAscii (decodeFrom state []) := by
  cases state with
  | none => simp [decodeFrom, NoAscii]
  | some p => exact noAscii_replacement

theorem split_behind {front text before after : Text} {c : Char} (apart : NoAscii front) (ascii : c.toNat < 0x80)
    (same : front ++ text = before ++ c :: after) : ∃ middle, before = front ++ middle ∧ text = middle ++ c :: after := by
  rcases List.append_eq_append_iff.mp same with ⟨middle, longer, rest⟩ | ⟨middle, shorter, rest⟩
  · exact ⟨middle, longer, rest⟩
  · cases middle with
    | nil => exact ⟨[], by simpa using shorter.symm, by simpa using rest.symm⟩
    | cons d middle =>
      obtain rfl : c = d := (List.cons.inj rest).1
      have wide := apart c (by simp [shorter])
      omega

/-- A character of ASCII is read from its own byte, and the reading parts there. -/
theorem decodeFrom_eq_append_cons {state : Option Pending} (high : ∀ p ∈ state, p.High) (wide : ∀ p ∈ state, p.Wide)
    {bytes : Bytes} {before after : Text} {c : Char} (ascii : c.toNat < 0x80)
    (same : decodeFrom state bytes = before ++ c :: after) :
    ∃ front b back, bytes = front ++ b :: back ∧ b < 0x80 ∧ Char.ofNat b.toNat = c ∧
      decodeFrom state front = before ∧ decode back = after := by
  induction bytes generalizing state before with
  | nil =>
    have inside := noAscii_decodeFrom_nil state c (by simp [same])
    omega
  | cons b rest ih =>
    by_cases low : b < 0x80
    · rw [decodeFrom, advance_ascii high low, List.append_assoc] at same
      obtain ⟨middle, rfl, behind⟩ := split_behind (noAscii_decodeFrom_nil state) ascii same
      cases middle with
      | nil =>
        obtain ⟨here, later⟩ := List.cons.inj behind
        exact ⟨[], b, rest, rfl, low, here, by simp, later⟩
      | cons first middle =>
        obtain ⟨here, later⟩ := List.cons.inj behind
        have fresh : ∀ p ∈ (none : Option Pending), p.High := by simp
        have fresh' : ∀ p ∈ (none : Option Pending), p.Wide := by simp
        obtain ⟨front, d, back, rfl, low', read, first', last⟩ := ih fresh fresh' later
        refine ⟨b :: front, d, back, rfl, low', read, ?_, last⟩
        rw [decodeFrom, advance_ascii high low, ← first', ← here, List.append_assoc]
        rfl
    · obtain ⟨text, carried⟩ := advance_wide wide low
      rw [decodeFrom] at same
      obtain ⟨middle, rfl, behind⟩ := split_behind text ascii same
      obtain ⟨front, d, back, rfl, low', read, first', last⟩ := ih (advance_high high b) carried behind
      refine ⟨b :: front, d, back, rfl, low', read, ?_, last⟩
      rw [decodeFrom, first']

theorem decodeFrom_eq_nil {state : Option Pending} {bytes : Bytes} (none : decodeFrom state bytes = []) : bytes = [] := by
  have carried (first : Lead) (empty : first.split.1 = []) : ∃ p, first.split.2 = some p := by
    cases first with
    | char c => cases empty
    | opens p => exact ⟨p, rfl⟩
  induction bytes generalizing state with
  | nil => rfl
  | cons b rest ih =>
    rw [decodeFrom, List.append_eq_nil_iff] at none
    obtain rfl := ih none.2
    obtain ⟨p, opened⟩ : ∃ p, (advance state b).2 = some p := by
      cases state with
      | none => exact carried _ none.1
      | some p =>
        simp only [advance] at none ⊢
        split at none
        next admitted => simpa [admitted] using carried _ none.1
        · cases none.1
    rw [opened] at none
    cases none.2

theorem decode_eq_nil {bytes : Bytes} : decode bytes = [] ↔ bytes = [] := by
  constructor
  · exact decodeFrom_eq_nil
  · rintro rfl
    rfl

theorem decode_eq_append_cons {bytes : Bytes} {before after : Text} {b : UInt8} (ascii : b < 0x80)
    (same : decode bytes = before ++ Char.ofNat b.toNat :: after) :
    ∃ front back, bytes = front ++ b :: back ∧ decode front = before ∧ decode back = after := by
  have low : (Char.ofNat b.toNat).toNat < 0x80 := by
    rw [toNat_ofNat_ascii ascii]
    exact UInt8.lt_iff_toNat_lt.mp ascii
  obtain ⟨front, d, back, rfl, ascii', read, first, last⟩ := decodeFrom_eq_append_cons (by simp) (by simp) low same
  have equal : d = b := by
    rw [← UInt8.toNat_inj, ← toNat_ofNat_ascii ascii', read, toNat_ofNat_ascii ascii]
  exact ⟨front, back, by rw [equal], first, last⟩

theorem decode_cons {b : UInt8} (ascii : b < 0x80) (after : Bytes) : decode (b :: after) = Char.ofNat b.toNat :: decode after :=
  decode_ascii [] ascii after

section Words

variable {word : Bytes} (ascii : ∀ b ∈ word, b < 0x80)
include ascii

theorem decode_word_append (after : Bytes) : decode (word ++ after) = decode word ++ decode after := by
  induction word with
  | nil => rfl
  | cons b word ih =>
    have here := ascii b (by simp)
    have later := ih fun d member => ascii d (by simp [member])
    rw [List.cons_append, decode_cons here, decode_cons here, later, List.cons_append]

variable (some : word ≠ [])
include some

/-- A word of ASCII is read by itself, whatever stands around it. -/
theorem decode_around (before after : Bytes) :
    decode (before ++ word ++ after) = decode before ++ decode word ++ decode after := by
  obtain ⟨b, rest, rfl⟩ := List.exists_cons_of_ne_nil some
  have here := ascii b (by simp)
  rw [List.append_assoc, List.cons_append, decode_ascii before here,
    decode_word_append (fun d member => ascii d (by simp [member])), decode_cons here]
  simp

/-- A word of ASCII that stands in the text stands in the bytes, and the reading parts around it. -/
theorem exists_of_decode_eq {bytes : Bytes} {before after : Text} (same : decode bytes = before ++ decode word ++ after) :
    ∃ front back, bytes = front ++ word ++ back ∧ decode front = before ∧ decode back = after := by
  induction word generalizing bytes before with
  | nil => exact absurd rfl some
  | cons b word ih =>
    have here := ascii b (by simp)
    rw [decode_cons here, List.append_assoc, List.cons_append] at same
    obtain ⟨front, back, rfl, first, later⟩ := decode_eq_append_cons here same
    by_cases last : word = []
    · subst last
      exact ⟨front, back, by simp, first, later⟩
    · have follows : decode back = [] ++ decode word ++ after := later
      obtain ⟨none, back, rfl, nothing, rest⟩ := ih (fun d member => ascii d (by simp [member])) last follows
      obtain rfl := decode_eq_nil.mp nothing
      exact ⟨front, back, by simp, first, rest⟩

theorem infix_decode_iff {bytes : Bytes} : decode word <:+: decode bytes ↔ word <:+: bytes := by
  constructor
  · rintro ⟨before, after, same⟩
    obtain ⟨front, back, rfl, _⟩ := exists_of_decode_eq ascii some same.symm
    exact ⟨front, back, rfl⟩
  · rintro ⟨front, back, rfl⟩
    exact ⟨decode front, decode back, (decode_around ascii some front back).symm⟩

/-- The text before a word grows with the bytes before it. -/
theorem length_decode_lt {front back front' rest : Bytes} (same : front ++ word ++ back = front' ++ rest)
    (shorter : front.length < front'.length) : (decode front).length < (decode front').length := by
  obtain ⟨b, later, rfl⟩ := List.exists_cons_of_ne_nil some
  rw [List.append_assoc] at same
  rcases List.append_eq_append_iff.mp same with ⟨middle, rfl, behind⟩ | ⟨middle, rfl, _⟩
  · cases middle with
    | nil =>
      rw [List.append_nil] at shorter
      exact absurd shorter (Nat.lt_irrefl _)
    | cons d middle =>
      obtain rfl : b = d := (List.cons.inj behind).1
      rw [decode_ascii front (ascii b (by simp)) middle]
      simp
  · rw [List.length_append] at shorter
    omega

end Words

theorem break_mem_decode {bytes : Bytes} : '\n' ∈ decode bytes ↔ 0x0A ∈ bytes := by
  constructor
  · intro found
    obtain ⟨before, after, same⟩ := List.append_of_mem found
    obtain ⟨front, back, rfl, _⟩ := decode_eq_append_cons (b := 0x0A) (by decide) same
    simp
  · intro found
    obtain ⟨front, back, rfl⟩ := List.append_of_mem found
    rw [decode_ascii front (by decide) back]
    simp

/-- Reading the lines of a file is cutting its text into lines. -/
theorem lines_decode (content : Bytes) : (decode content).lines = (splitAfter 0x0A content).map decode := by
  by_cases broken : 0x0A ∈ content
  · obtain ⟨before, after, rfl, absent⟩ := List.eq_append_cons_of_mem broken
    have absent' : '\n' ∉ decode before := fun found => absent (break_mem_decode.mp found)
    have line : decode (before ++ [0x0A]) = decode before ++ ['\n'] := decode_ascii before (by decide) []
    have joined : decode (before ++ 0x0A :: after) = decode before ++ '\n' :: decode after :=
      decode_ascii before (by decide) after
    rw [joined, splitAfter_first absent, List.map_cons, line, ← lines_decode after]
    exact splitAfter_first absent' (decode after)
  · by_cases none : content = []
    · rw [none]
      rfl
    · rw [splitAfter_of_not_mem none broken]
      exact splitAfter_of_not_mem (mt decode_eq_nil.mp none) (mt break_mem_decode.mp broken)
termination_by content.length

end HeaderKeys.Utf8
