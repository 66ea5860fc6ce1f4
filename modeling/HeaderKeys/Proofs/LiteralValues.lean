import HeaderKeys.Proofs.WholeWords
import Mathlib.Data.Nat.Digits.Lemmas

/-! What literals are worth in a header and in the class. A header means an unsigned number of
32 bits. The class reads a literal without the suffix as a signed number of 32 bits, so half
of all literals of eight digits would change their value there; with the suffix it reads 64
bits, and none does. Fewer digits never reach the sign. -/

namespace HeaderKeys

open Literal

namespace Literal

def digitValue (c : Char) : Nat :=
  if c ≤ '9' then c.toNat - '0'.toNat else if c ≤ 'F' then c.toNat - 'A'.toNat + 10 else c.toNat - 'a'.toNat + 10

/-- The number that hexadecimal digits stand for, the highest one first. -/
def hexValue (digits : Text) : Nat := Nat.ofDigits 16 (digits.reverse.map digitValue)

/-- The digits of a literal: all that is behind `0x`, and at least one. -/
def digitsOf? : Text → Option Text
  | '0' :: 'x' :: digits => if digits.isEmpty || !digits.all isHexDigit then none else some digits
  | _ => none

/-- The bits of a literal. One that needs more than `width` of them is refused. -/
def bits? (width : Nat) (word : Text) : Option (BitVec width) :=
  (digitsOf? word).bind fun digits =>
    if hexValue digits < 2 ^ width then some (BitVec.ofNat width (hexValue digits)) else none

def headerValue? (word : Text) : Option Nat := (bits? 32 word).map BitVec.toNat

/-- The bits that a literal of the class has as a `long`. Without the suffix it has half of them,
and the others repeat its sign. -/
def longBits? (word : Text) : Option (BitVec 64) :=
  if word.getLast? = longSuffix.getLast? then bits? 64 word.dropLast else (bits? 32 word).map (BitVec.signExtend 64)

def longValue? (word : Text) : Option Int := (longBits? word).map BitVec.toInt

theorem digitValue_lt {c : Char} (digit : isHexDigit c = true) : digitValue c < 16 := by
  obtain ⟨n, rfl⟩ := isHexDigit_ascii digit
  have known : ∀ n : Fin 128, isHexDigit (Char.ofNat n) = true → digitValue (Char.ofNat n) < 16 := by decide
  exact known n digit

theorem hexValue_lt {digits : Text} (hex : ∀ d ∈ digits, isHexDigit d = true) {count : Nat} (short : digits.length ≤ count) :
    hexValue digits < 16 ^ count := by
  have digitBound : ∀ d ∈ digits.reverse.map digitValue, d < 16 := by
    intro d member
    obtain ⟨c, inside, rfl⟩ := List.mem_map.mp member
    exact digitValue_lt (hex c (List.mem_reverse.mp inside))
  have bound := Nat.ofDigits_lt_base_pow_length (by decide) digitBound
  rw [List.length_map, List.length_reverse] at bound
  exact Nat.lt_of_lt_of_le bound (Nat.pow_le_pow_right (by decide) short)

theorem toInt_ofNat_of_lt {width n : Nat} (small : 2 * n < 2 ^ width) : (BitVec.ofNat width n).toInt = n := by
  have below : n % 2 ^ width = n := Nat.mod_eq_of_lt (by omega)
  rw [BitVec.toInt_eq_toNat_of_lt (by rwa [BitVec.toNat_ofNat, below]), BitVec.toNat_ofNat, below]

section Digits
variable {digits : Text} (hex : ∀ d ∈ digits, isHexDigit d = true) (nonempty : digits ≠ [])
include hex nonempty

theorem bits?_eq {width : Nat} (room : hexValue digits < 2 ^ width) :
    bits? width ("0x".toList ++ digits) = some (BitVec.ofNat width (hexValue digits)) := by
  have read : digitsOf? ("0x".toList ++ digits) = some digits := by
    have none : (digits.isEmpty || !digits.all isHexDigit) = false := by simp [nonempty, List.all_eq_true.mpr hex]
    simp only [String.reduceToList, List.cons_append, List.nil_append, digitsOf?, none]
    rfl
  rw [bits?, read, Option.bind_some, if_pos room]

theorem headerValue?_eq (short : digits.length ≤ 8) : headerValue? ("0x".toList ++ digits) = some (hexValue digits) := by
  have room : hexValue digits < 2 ^ 32 := hexValue_lt hex short
  rw [headerValue?, bits?_eq hex nonempty room, Option.map_some, BitVec.toNat_ofNat, Nat.mod_eq_of_lt room]

/-- Seven digits do not reach the sign. -/
theorem longValue?_unsuffixed (short : digits.length < 8) :
    longValue? ("0x".toList ++ digits) = some (hexValue digits : Int) := by
  have unsuffixed : ("0x".toList ++ digits).getLast? ≠ longSuffix.getLast? := by
    rw [List.getLast?_append_of_ne_nil _ nonempty]
    intro last
    have member : 'L' ∈ digits := List.mem_of_getLast? last
    exact absurd (hex 'L' member) (by decide)
  have below : hexValue digits < 2 ^ 28 := hexValue_lt hex (Nat.le_of_lt_succ short)
  have positive : (BitVec.ofNat 32 (hexValue digits)).toInt = hexValue digits := toInt_ofNat_of_lt (by omega)
  rw [longValue?, longBits?, if_neg unsuffixed, bits?_eq hex nonempty (by omega), Option.map_some, Option.map_some,
    BitVec.toInt_signExtend_of_le (by decide), positive]

/-- The suffix makes room for the sign. -/
theorem longValue?_suffixed (short : digits.length ≤ 8) :
    longValue? ("0x".toList ++ digits ++ longSuffix) = some (hexValue digits : Int) := by
  have suffixed : ("0x".toList ++ digits ++ longSuffix).getLast? = longSuffix.getLast? :=
    List.getLast?_append_of_ne_nil _ (by decide)
  have word : ("0x".toList ++ digits ++ longSuffix).dropLast = "0x".toList ++ digits := List.dropLast_concat
  have below : hexValue digits < 2 ^ 32 := hexValue_lt hex short
  have positive : (BitVec.ofNat 64 (hexValue digits)).toInt = hexValue digits := toInt_ofNat_of_lt (by omega)
  rw [longValue?, longBits?, if_pos suffixed, word, bits?_eq hex nonempty (by omega), Option.map_some, positive]

end Digits

example : longValue? "0xFFFFFFFF".toList = some (-1) ∧ longValue? "0xFFFFFFFFL".toList = some 4294967295 := by decide +kernel

end Literal

/-- A literal of one to eight digits that stands as a word by itself is worth as a `long` of the
class, once rewritten, what it is worth in the header. -/
theorem suffixLiterals_keeps_value {before digits after : Text} (whole : WholeWord before ("0x".toList ++ digits) after)
    (hex : ∀ d ∈ digits, isHexDigit d = true) (least : 1 ≤ digits.length) (short : digits.length ≤ 8) :
    ∃ literal, suffixLiterals (before ++ ("0x".toList ++ digits) ++ after) =
        suffixLiterals before ++ literal ++ suffixLiterals after ∧
      WholeWord (suffixLiterals before) literal (suffixLiterals after) ∧
      headerValue? ("0x".toList ++ digits) = some (hexValue digits) ∧ longValue? literal = some (hexValue digits : Int) := by
  have nonempty : digits ≠ [] := List.ne_nil_of_length_pos least
  refine ⟨_, suffixLiterals_between whole.toDelimited _, whole.suffixed, headerValue?_eq hex nonempty short, ?_⟩
  by_cases eight : digits.length = 8
  · rw [suffixLiterals_bare ⟨digits, rfl, eight, hex⟩]
    exact longValue?_suffixed hex nonempty short
  · have other : ¬ IsBare ("0x".toList ++ digits) := by
      rintro ⟨digits', same, eight', _⟩
      rw [← List.append_cancel_left same] at eight'
      exact eight eight'
    rw [suffixLiterals_other whole.inside other]
    exact longValue?_unsuffixed hex nonempty (Nat.lt_of_le_of_ne short eight)

/-- The largest literal, between characters beyond ASCII. The same digits before it belong to
a longer word, and so the suffix behind it is the first one in the text. -/
theorem suffixLiterals_keeps_value_of_largest :
    let before := "é0xFFFFFFFF×".toList
    let digits := "fFFFffFf".toList
    let after := "…0x80000000".toList
    WholeWord before ("0x".toList ++ digits) after ∧ (∀ d ∈ digits, isHexDigit d = true) ∧
    ∃ literal, suffixLiterals "é0xFFFFFFFF×0xfFFFffFf…0x80000000".toList =
        "é0xFFFFFFFF×".toList ++ literal ++ "…0x80000000L".toList ∧
      headerValue? "0xfFFFffFf".toList = some 4294967295 ∧ longValue? literal = some 4294967295 := by
  intro before digits after
  have whole : WholeWord before ("0x".toList ++ digits) after :=
    ⟨⟨by decide +kernel, by decide +kernel⟩, by decide +kernel, List.all_eq_true.mp (by decide +kernel)⟩
  have hex : ∀ d ∈ digits, isHexDigit d = true := List.all_eq_true.mp (by decide +kernel)
  obtain ⟨literal, rewritten, _, meant, read⟩ := suffixLiterals_keeps_value whole hex (by decide) (by decide)
  have sides : suffixLiterals before = "é0xFFFFFFFF×".toList ∧ suffixLiterals after = "…0x80000000L".toList := by
    decide +kernel
  have value : hexValue digits = 4294967295 := by decide +kernel
  have joined : before ++ ("0x".toList ++ digits) ++ after = "é0xFFFFFFFF×0xfFFFffFf…0x80000000".toList := by
    decide +kernel
  rw [joined, sides.1, sides.2] at rewritten
  rw [value] at meant read
  exact ⟨whole, hex, literal, rewritten, meant, read⟩

end HeaderKeys
