import HeaderKeys.Text

/-! Text on its way to a terminal. A control character steers the terminal instead of
being shown, and so does the sequence that an escape character begins. `plain` leaves
out both (`isShown_of_mem_plain`); `spelled` writes harmful characters by their numbers
(`not_isHarmful_of_mem_spelled`). Neither changes a text without control characters. -/

namespace HeaderKeys.Terminal

/-- The character that begins a sequence, also in the middle of another one. -/
def escape : Char := '\x1b'

/-- The characters that end every sequence at once. -/
def isCancel (c : Char) : Bool := c == '\x18' || c == '\x1a'

/-- The characters that end a text which a sequence carries: those with the string
terminator among their bytes. -/
def isTerminator (c : Char) : Bool := (String.utf8EncodeChar c).contains 0x9C

def isLayout (c : Char) : Bool := c == '\t' || c == '\n' || c == '\x0c' || c == '\r'

def isControl (c : Char) : Bool := c < ' ' || c == '\x7f'

/-- Whether a character outside any sequence is shown. -/
def isShown (c : Char) : Bool := !isControl c || isLayout c

/-- A sequence under way, by what may still come. -/
inductive Sequence
  /-- Nothing but the escape character was read. -/
  | opened
  /-- One more character that is no punctuation. -/
  | designation
  /-- Parameters, and a letter behind them. -/
  | function
  /-- A text for a device, behind parameters, punctuation and a letter in this order.
  Where the order is broken the text begins, too. -/
  | device
  | deviceParameters
  | devicePunctuation
  /-- A text up to its terminator. -/
  | string
  /-- A text up to a bell. -/
  | command
deriving DecidableEq, Repr

namespace Sequence

/-- Whether characters that lay out text are shown although they stand in the sequence. -/
def yieldsLayout : Sequence → Bool
  | opened => true
  | designation => true
  | function => true
  | device => false
  | deviceParameters => false
  | devicePunctuation => false
  | string => false
  | command => false

/-- The sequence behind an escape character and `c`, unless `c` ends it. A character
that may not stand there is passed over. -/
def ofSecond? (c : Char) : Option Sequence :=
  if c < ' ' || '~' < c then some opened
  else if c < '0' then some designation
  else if c = '[' then some function
  else if c = 'P' then some device
  else if c = 'X' || c = '^' || c = '_' then some string
  else if c = ']' then some command
  else none

/-- What is under way behind one more character that neither begins nor cancels
sequences; `none` if the character was the last. -/
def next? (sequence : Sequence) (c : Char) : Option Sequence :=
  match sequence with
  | opened => ofSecond? c
  | designation => if '0' ≤ c ∧ c ≤ '~' then none else some designation
  | function => if '@' ≤ c ∧ c ≤ '~' then none else some function
  | device =>
    if c < ' ' || '~' < c then some device
    else if c < '0' then some devicePunctuation
    else if c < '@' then some deviceParameters
    else some string
  | deviceParameters =>
    if c < ' ' || '~' < c then some deviceParameters
    else if c < '0' then some devicePunctuation
    else if c < '<' then some deviceParameters
    else some string
  | devicePunctuation => if '0' ≤ c ∧ c ≤ '~' then some string else some devicePunctuation
  | string => if isTerminator c then none else some string
  | command => if c = '\x07' then none else some command

end Sequence

/-- Where a character stands. -/
inductive Place
  | outside
  | inside (sequence : Sequence)
  /-- A character that lays out text came into the sequence. Text is shown until a
  control character that is not shown leads back. -/
  | suspended (sequence : Sequence)
deriving DecidableEq, Repr

namespace Place

/-- Whether `c` is shown at `place`, and the place behind it. -/
def step (place : Place) (c : Char) : Bool × Place :=
  if c = escape then (false, inside .opened)
  else if isCancel c then (false, outside)
  else match place with
    | outside => (isShown c, outside)
    | inside sequence =>
      if sequence.yieldsLayout && isLayout c then (true, suspended sequence)
      else (false, ((sequence.next? c).map inside).getD outside)
    | suspended sequence =>
      if isShown c then (true, if c < '\x80' then suspended sequence else outside)
      else (false, inside sequence)

theorem isShown_of_step {place : Place} {c : Char} (shown : (place.step c).1 = true) : isShown c = true := by
  unfold step at shown
  split at shown
  · cases shown
  · split at shown
    · cases shown
    · split at shown
      · exact shown
      · split at shown
        next layout => simp_all [isShown]
        · cases shown
      · split at shown
        next kept => exact kept
        · cases shown

theorem step_outside {c : Char} (shown : isShown c = true) : outside.step c = (true, outside) := by
  have first : c ≠ escape := by rintro rfl; exact absurd shown (by decide)
  have second : isCancel c = false := by
    cases cancel : isCancel c with
    | false => rfl
    | true =>
      simp only [isCancel, Bool.or_eq_true, beq_iff_eq] at cancel
      rcases cancel with rfl | rfl <;> exact absurd shown (by decide)
  simp [step, first, second, shown]

end Place

def plainFrom (place : Place) : Text → Text
  | [] => []
  | c :: rest => if (place.step c).1 then c :: plainFrom (place.step c).2 rest else plainFrom (place.step c).2 rest

/-- What a terminal shows of `text`. -/
def plain (text : Text) : Text := plainFrom .outside text

theorem isShown_of_mem_plainFrom {place : Place} {text : Text} {c : Char} (member : c ∈ plainFrom place text) :
    isShown c = true := by
  induction text generalizing place with
  | nil => simp [plainFrom] at member
  | cons d rest ih =>
    simp only [plainFrom] at member
    split at member
    next shown =>
      rcases List.mem_cons.1 member with rfl | later
      · exact Place.isShown_of_step shown
      · exact ih later
    · exact ih member

theorem plain_eq_self {text : Text} (shown : ∀ c ∈ text, isShown c = true) : plain text = text := by
  induction text with
  | nil => rfl
  | cons c rest ih =>
    have here := Place.step_outside (shown c (by simp))
    have later := ih fun d member => shown d (by simp [member])
    unfold plain at later ⊢
    simp [plainFrom, here, later]

theorem isShown_of_mem_plain {text : Text} {c : Char} (member : c ∈ plain text) : isShown c = true :=
  isShown_of_mem_plainFrom member

theorem plain_plain (text : Text) : plain (plain text) = plain text :=
  plain_eq_self fun _ member => isShown_of_mem_plain member

/-- Characters of ASCII that sound, move back, clear, delete or begin a sequence, and
the control characters behind ASCII, each of which is a sequence by itself. -/
def isHarmful (c : Char) : Bool :=
  c == '\x07' || c == '\x08' || c == '\x0c' || c == escape || c == '\x7f' || ('\x80' ≤ c && c ≤ '\x9f')

def hexPair (n : Nat) : Text := [Nat.digitChar (n / 16 % 16), Nat.digitChar (n % 16)]

def spelledChar (c : Char) : Text :=
  if !isHarmful c then [c]
  else if c < '\x80' then "\\x".toList ++ hexPair c.toNat
  else "\\u\x7b".toList ++ hexPair c.toNat ++ "\x7d".toList

/-- The text with its harmful characters spelled. Line breaks, tabs and the other control
characters stay. -/
def spelled (text : Text) : Text := text.flatMap spelledChar

theorem spelled_eq_self {text : Text} (harmless : ∀ c ∈ text, isHarmful c = false) : spelled text = text := by
  induction text with
  | nil => rfl
  | cons c rest ih =>
    have here := harmless c (by simp)
    have later := ih fun d member => harmless d (by simp [member])
    unfold spelled at later ⊢
    simp [spelledChar, here, later]

private theorem isHarmful_of_mem_hexPair {n : Nat} {c : Char} (member : c ∈ hexPair n) : isHarmful c = false := by
  have digits : ∀ m < 16, isHarmful (Nat.digitChar m) = false := by decide
  simp only [hexPair, List.mem_cons, List.not_mem_nil, or_false] at member
  rcases member with rfl | rfl
  · exact digits _ (Nat.mod_lt _ (by decide))
  · exact digits _ (Nat.mod_lt _ (by decide))

theorem not_isHarmful_of_mem_spelled {text : Text} {c : Char} (member : c ∈ spelled text) : isHarmful c = false := by
  have marks : ("\\x".toList ++ "\\u\x7b\x7d".toList).any isHarmful = false := by decide
  have opening : ∀ c ∈ "\\x".toList ++ "\\u\x7b\x7d".toList, isHarmful c = false := fun c member =>
    Bool.eq_false_iff.mpr (List.any_eq_false.mp marks c member)
  obtain ⟨d, _, spelling⟩ := List.mem_flatMap.1 member
  unfold spelledChar at spelling
  split at spelling
  next harmless => simp_all
  · split at spelling
    · rcases List.mem_append.1 spelling with mark | digit
      · exact opening c (by simp at mark ⊢; grind)
      · exact isHarmful_of_mem_hexPair digit
    · rcases List.mem_append.1 spelling with front | mark
      · rcases List.mem_append.1 front with mark | digit
        · exact opening c (by simp at mark ⊢; grind)
        · exact isHarmful_of_mem_hexPair digit
      · exact opening c (by simp at mark ⊢; grind)

end HeaderKeys.Terminal
