import HeaderKeys.Text

/-! UTF-8 for text that may be damaged. Reading never fails: each longest beginning of
a character that is not carried through becomes one replacement character, and so
does every byte that can begin none. The reader keeps only the sequence under way,
so what it does behind a byte below 0x80 depends on nothing before it. -/

namespace HeaderKeys.Utf8

/-- Stands in for bytes that are no character. -/
def replacement : Char := '\uFFFD'

/-- A character under way: the bits read so far, and for each byte still to come the
least and greatest value it may have. -/
structure Pending where
  bits : Nat
  next : UInt8 × UInt8
  later : List (UInt8 × UInt8)
deriving DecidableEq, Repr

/-- What one byte, read where a character may begin, amounts to. -/
inductive Lead
  | char (c : Char)
  | opens (pending : Pending)
deriving DecidableEq, Repr

def tail : UInt8 × UInt8 := (0x80, 0xBF)

/-- The bounds on a second byte leave out overlong forms, surrogates and values
above U+10FFFF, so every completed sequence is a character. -/
def lead (b : UInt8) : Lead :=
  if b < 0x80 then .char (Char.ofNat b.toNat)
  else if b < 0xC2 then .char replacement
  else if b < 0xE0 then .opens ⟨b.toNat % 32, tail, []⟩
  else if b < 0xF0 then
    .opens ⟨b.toNat % 16, if b = 0xE0 then (0xA0, 0xBF) else if b = 0xED then (0x80, 0x9F) else tail, [tail]⟩
  else if b < 0xF5 then
    .opens ⟨b.toNat % 8, if b = 0xF0 then (0x90, 0xBF) else if b = 0xF4 then (0x80, 0x8F) else tail, [tail, tail]⟩
  else .char replacement

def Pending.admits (p : Pending) (b : UInt8) : Bool := p.next.1 ≤ b && b ≤ p.next.2

def Pending.push (p : Pending) (b : UInt8) : Lead :=
  let bits := p.bits * 64 + b.toNat % 64
  match p.later with
  | [] => .char (Char.ofNat bits)
  | next :: later => .opens ⟨bits, next, later⟩

/-- Text read from one byte, and the sequence left open behind it. -/
def Lead.split : Lead → Text × Option Pending
  | .char c => ([c], none)
  | .opens pending => ([], some pending)

/-- One byte. A byte that does not carry the open sequence on closes it as damaged
and is read afresh. -/
def advance : Option Pending → UInt8 → Text × Option Pending
  | none, b => (lead b).split
  | some p, b =>
    if p.admits b then (p.push b).split
    else (replacement :: (lead b).split.1, (lead b).split.2)

def decodeFrom : Option Pending → Bytes → Text
  | none, [] => []
  | some _, [] => [replacement]
  | state, b :: rest => (advance state b).1 ++ decodeFrom (advance state b).2 rest

def decode (bytes : Bytes) : Text := decodeFrom none bytes

def encode (text : Text) : Bytes := text.flatMap String.utf8EncodeChar

/-- Whether nothing has to be replaced: damage is read as other bytes than it was. -/
def valid (bytes : Bytes) : Bool := encode (decode bytes) == bytes

@[simp] theorem decode_nil : decode [] = [] := rfl

theorem advance_none {b : UInt8} (h : b < 0x80) :
    advance none b = ([Char.ofNat b.toNat], none) := by
  simp [advance, lead, h, Lead.split]

end HeaderKeys.Utf8
