import HeaderKeys.Text.WordChar

/-! Numeric literals of a header and how they become `long` literals. A literal is bare
if a whole word consists of `0x` and eight hexadecimal digits; words are unbroken runs
of word characters. Each bare literal gets the suffix `L` and nothing else changes, so
values above 0x7FFFFFFF keep their sign. -/

namespace HeaderKeys

def longSuffix : Text := "L".toList

def isHexDigit (c : Char) : Bool :=
  ('0' ≤ c && c ≤ '9') || ('a' ≤ c && c ≤ 'f') || ('A' ≤ c && c ≤ 'F')

namespace Literal

def bareLength : Nat := 10

/-- Whether `c` may stand in a bare literal behind `position` others. -/
def fits : Nat → Char → Bool
  | 0, c => c == '0'
  | 1, c => c == 'x'
  | position, c => position < bareLength && isHexDigit c

/-- What is known of the word under way: it agrees with a bare literal in all of its
characters so far, or it is another word. -/
inductive Progress
  | agrees (length : Nat)
  | differs
deriving DecidableEq, Repr

namespace Progress

def start : Progress := agrees 0

def extend : Progress → Char → Progress
  | agrees length, c => if fits length c then agrees (length + 1) else differs
  | differs, _ => differs

/-- Whether the word, if it ends here, is a bare literal. -/
def isBare (progress : Progress) : Bool := progress == agrees bareLength

def suffix (progress : Progress) : Text := if progress.isBare then longSuffix else []

end Progress

/-- Appends the suffixes in a text that carries on the word described by `progress`. -/
def suffixFrom (progress : Progress) : Text → Text
  | [] => progress.suffix
  | c :: rest =>
    if isWordChar c then c :: suffixFrom (progress.extend c) rest
    else progress.suffix ++ c :: suffixFrom .start rest

/-- Whether a bare literal ends in a text that carries on the word described by `progress`. -/
def bareFrom (progress : Progress) : Text → Bool
  | [] => progress.isBare
  | c :: rest =>
    if isWordChar c then bareFrom (progress.extend c) rest
    else progress.isBare || bareFrom .start rest

/-- Whether a text has a bare literal. It stands for how the rewrite answers: without one
it lends out the text it was given, and otherwise it makes a new one. -/
def hasBare (text : Text) : Bool := bareFrom .start text

end Literal

/-- Appends `L` to every bare 32-bit literal. -/
def suffixLiterals (text : Text) : Text := Literal.suffixFrom .start text

end HeaderKeys
