import HeaderKeys.Text

/-! The four key arrays: for each direction a P-array of one dimension and the S-boxes
of two. Their order here is the order in which they are written out. -/

namespace HeaderKeys

inductive KeyName
  | outKeyP
  | outKeyS
  | inKeyP
  | inKeyS
deriving DecidableEq, Repr

namespace KeyName

/-- Every key, in the order of output. -/
def all : List KeyName := [outKeyP, outKeyS, inKeyP, inKeyS]

def rank : KeyName → Nat
  | outKeyP => 0
  | outKeyS => 1
  | inKeyP => 2
  | inKeyS => 3

/-- The identifier, the same in a header and in the generated class. -/
def identifier : KeyName → Text
  | outKeyP => "out_key_p".toList
  | outKeyS => "out_key_s".toList
  | inKeyP => "in_key_p".toList
  | inKeyS => "in_key_s".toList

/-- The name as a constant of its own, which the log writes in lists. -/
def label : KeyName → Text
  | outKeyP => "OutKeyP".toList
  | outKeyS => "OutKeyS".toList
  | inKeyP => "InKeyP".toList
  | inKeyS => "InKeyS".toList

/-- The S-boxes, whose identifier ends in the plural `s`, have two dimensions. -/
def isPlural (key : KeyName) : Bool := key.identifier.getLast? == some 's'

def ofIdentifier? (name : Text) : Option KeyName := all.find? (·.identifier == name)

/-- `names` in the order of output, repetitions kept. -/
def sorted (names : List KeyName) : List KeyName := all.flatMap fun key => names.filter (· == key)

theorem mem_all (key : KeyName) : key ∈ all := by cases key <;> decide

theorem rank_injective {a b : KeyName} (same : a.rank = b.rank) : a = b := by
  cases a <;> cases b <;> first | rfl | cases same

theorem ofIdentifier?_identifier (key : KeyName) : ofIdentifier? key.identifier = some key := by
  cases key <;> decide

theorem identifier_of_ofIdentifier? {name : Text} {key : KeyName}
    (found : ofIdentifier? name = some key) : key.identifier = name := by
  simpa using List.find?_some found

end KeyName

structure UnknownKeyName where
  name : Text
deriving DecidableEq, Repr

def UnknownKeyName.message (e : UnknownKeyName) : Text :=
  "unknown key name: ".toList ++ e.name.quoted

/-- Reads an identifier and keeps what cannot be read. -/
def KeyName.parse (name : Text) : Except UnknownKeyName KeyName :=
  match ofIdentifier? name with
  | some key => .ok key
  | none => .error ⟨name⟩

def KeyName.parseAll (names : List Text) : Except UnknownKeyName (List KeyName) :=
  names.mapM KeyName.parse

end HeaderKeys
