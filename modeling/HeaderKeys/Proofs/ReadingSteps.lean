import HeaderKeys.CommandLine.Options

/-! Reading a list of arguments, step by step. Whatever can be said of single steps, and of one step after another,
can be said of reading the list. It may depend on how often the list asks for more output,
which the arguments tell by themselves. -/

namespace HeaderKeys.CommandLine

def letterV : UInt8 := 'v'.toUInt8

/-- How often an argument asks for more output: by name, or by the letters at the head of a group. Further
letters can only belong to a value. -/
def requestsIn (argument : Bytes) : Nat :=
  if argument = Path.ofText "--verbose".toList then 1
  else match argument with
    | dash :: group => (group.takeWhile (· = letterV)).length
    | _ => 0

/-- How often a list of arguments asks for more output. Behind `--` it asks for nothing. -/
def requests : List Bytes → Nat
  | [] => 0
  | first :: later => if first = [dash, dash] then 0 else requestsIn first + requests later

def Parameter.requests (parameter : Parameter) : Nat := if parameter = .verbose then 1 else 0

section Requests

theorem requestsIn_group {group : Bytes} (unlike : dash :: group ≠ Path.ofText "--verbose".toList) :
    requestsIn (dash :: group) = (group.takeWhile (· = letterV)).length :=
  if_neg unlike

theorem requestsIn_letters {group : Bytes} (single : group.head? ≠ some dash) :
    requestsIn (dash :: group) = (group.takeWhile (· = letterV)).length := by
  refine requestsIn_group fun same => ?_
  obtain rfl := (List.cons.inj same).2
  exact single rfl

theorem requestsIn_long (body : Bytes) :
    requestsIn (dash :: dash :: body) = if body = Path.ofText "verbose".toList then 1 else 0 := by
  by_cases named : body = Path.ofText "verbose".toList
  · subst named
    rfl
  · rw [requestsIn_group fun same => named (List.cons.inj (List.cons.inj same).2).2, if_neg named,
      List.takeWhile_cons_of_neg (by decide), List.length_nil]

theorem requestsIn_operand {name : Bytes} (plainly : name.head? ≠ some dash) : requestsIn name = 0 := by
  have unlike : name ≠ Path.ofText "--verbose".toList := fun same => plainly (same ▸ rfl)
  unfold requestsIn
  rw [if_neg unlike]
  split
  · exact absurd rfl plainly
  · rfl

end Requests

namespace Parameter

theorem ofLetter?_cases {letter : UInt8} {parameter : Parameter} (known : ofLetter? letter = some parameter) :
    (letter = letterV ∧ parameter = .verbose) ∨
      (letter ≠ letterV ∧ (parameter = .output ∨ parameter = .help ∨ parameter = .version)) := by
  obtain ⟨entry, found, rfl⟩ := Option.map_eq_some_iff.mp known
  have spelled : entry.1.toUInt8 = letter := by simpa using List.find?_some found
  have member := List.mem_of_find?_eq_some found
  simp only [shortNames, List.mem_cons, List.not_mem_nil, or_false] at member
  subst spelled
  rcases member with rfl | rfl | rfl | rfl <;> decide

theorem ofName?_verbose_iff {name : Bytes} {parameter : Parameter} (known : ofName? name = some parameter) :
    parameter = .verbose ↔ name = Path.ofText "verbose".toList := by
  obtain ⟨entry, found, rfl⟩ := Option.map_eq_some_iff.mp known
  have spelled : Path.ofText entry.1.toList = name := by simpa using List.find?_some found
  have member := List.mem_of_find?_eq_some found
  simp only [longNames, List.mem_cons, List.not_mem_nil, or_false] at member
  subst spelled
  rcases member with rfl | rfl | rfl | rfl | rfl <;> decide

end Parameter

namespace Reading

theorem argument_operand {reading : Reading} {name : Bytes} (plainly : name.head? ≠ some dash ∨ name = [dash]) :
    reading.argument name = reading.plain name := by
  unfold argument
  split
  · exact absurd plainly (by simp [dash])
  · exact absurd plainly (by simp [dash])
  · rfl

theorem argument_group {reading : Reading} {group : Bytes} (nonempty : group ≠ []) (single : group.head? ≠ some dash) :
    reading.argument (dash :: group) = reading.letters group := by
  obtain ⟨letter, rest, rfl⟩ := List.exists_cons_of_ne_nil nonempty
  unfold argument
  split
  next same =>
    obtain ⟨rfl, rfl⟩ := List.cons.inj (List.cons.inj same).2
    exact absurd rfl single
  next same =>
    obtain ⟨rfl, rfl⟩ := List.cons.inj (List.cons.inj same).2
    rfl
  next other => exact absurd rfl (other letter rest)

/-- Nothing is read behind a request for help or for the version. -/
theorem flag_bind {parameter : Parameter} (stops : parameter = .help ∨ parameter = .version) (reading : Reading)
    (further : Reading → Except Stop Reading) : reading.flag parameter >>= further = reading.flag parameter := by
  cases closed : reading.settle with
  | error stop => simp only [flag, closed]; rfl
  | ok settled =>
    simp only [flag, closed]
    rcases stops with rfl | rfl <;> rfl

/-- A property of steps that ask for more output so many times. -/
structure Stepwise (P : Nat → (Reading → Except Stop Reading) → Prop) : Prop where
  ok : P 0 .ok
  error (count : Nat) (stop : Stop) : P count fun _ => .error stop
  bind {one two : Nat} {first second : Reading → Except Stop Reading} (begun : P one first) (further : P two second) :
    P (one + two) fun reading => first reading >>= second
  settle : P 0 settle
  setOutput (value : Path) : P 0 (setOutput · value)
  flag (parameter : Parameter) : P parameter.requests (flag · parameter)
  operand (name : Path) : P 0 (operand · name)
  plain (argument : Bytes) : P 0 (plain · argument)

namespace Stepwise

variable {P : Nat → (Reading → Except Stop Reading) → Prop}

theorem congr {count : Nat} {operation operation' : Reading → Except Stop Reading} (holds : P count operation)
    (same : ∀ reading, operation reading = operation' reading) : P count operation' := by
  obtain rfl : operation = operation' := funext same
  exact holds

variable (stepwise : Stepwise P)
include stepwise

theorem attached (value : Path) : P 0 (attached · value) := stepwise.bind stepwise.settle (stepwise.setOutput value)

theorem long (body : Bytes) : P (if body = Path.ofText "verbose".toList then 1 else 0) (long · body) := by
  have whole : body.takeWhile (· ≠ equalsSign) ++ body.dropWhile (· ≠ equalsSign) = body := List.takeWhile_append_dropWhile
  generalize counted : (if body = Path.ofText "verbose".toList then 1 else 0) = count
  unfold Reading.long
  dsimp only
  split
  · exact stepwise.error _ _
  next parameter known ended =>
    rw [ended, List.append_nil] at whole
    rw [whole] at known
    obtain rfl : parameter.requests = count := by
      rw [← counted, Parameter.requests]
      simp only [Parameter.ofName?_verbose_iff known]
    exact stepwise.flag parameter
  next value _ behind =>
    have unlike : body ≠ Path.ofText "verbose".toList := fun same => by
      subst same
      cases behind
    obtain rfl : 0 = count := by rw [← counted, if_neg unlike]
    exact stepwise.attached _
  · exact stepwise.error _ _

theorem letters (group : Bytes) : P (group.takeWhile (· = letterV)).length (letters · group) := by
  induction group with
  | nil => exact stepwise.ok
  | cons letter rest ih =>
    unfold Reading.letters
    split
    · exact stepwise.error _ _
    next known =>
      rcases Parameter.ofLetter?_cases known with ⟨_, same⟩ | ⟨unlike, _⟩
      · cases same
      rw [List.takeWhile_cons_of_neg (by simpa using unlike)]
      split
      · exact stepwise.flag .output
      · exact stepwise.attached _
    next parameter other known =>
      have stepped : P (List.takeWhile (· = letterV) (letter :: rest)).length
          fun reading => reading.flag parameter >>= (Reading.letters · rest) := by
        rcases Parameter.ofLetter?_cases known with ⟨rfl, rfl⟩ | ⟨unlike, others⟩
        · rw [List.takeWhile_cons_of_pos (by simp), List.length_cons, Nat.add_comm]
          exact stepwise.bind (stepwise.flag .verbose) ih
        · -- Reading ends here, so the letters behind do not count either.
          have stops := others.resolve_left other
          have silent : parameter.requests = 0 := by rcases stops with rfl | rfl <;> rfl
          rw [List.takeWhile_cons_of_neg (by simpa using unlike), List.length_nil, ← silent]
          exact congr (stepwise.flag parameter) fun reading => (flag_bind stops reading _).symm
      refine congr stepped fun reading => ?_
      cases reading.flag parameter <;> rfl

theorem argument (argument : Bytes) : P (requestsIn argument) (Reading.argument · argument) := by
  by_cases option : argument.head? = some dash
  · obtain ⟨group, rfl⟩ := List.head?_eq_some_iff.mp option
    by_cases double : group.head? = some dash
    · obtain ⟨body, rfl⟩ := List.head?_eq_some_iff.mp double
      rw [requestsIn_long]
      exact stepwise.long body
    · rw [requestsIn_letters double]
      by_cases alone : group = []
      · subst alone
        exact stepwise.plain [dash]
      · exact congr (stepwise.letters group) fun reading => (argument_group alone double).symm
  · rw [requestsIn_operand option]
    exact congr (stepwise.plain argument) fun reading => (argument_operand (.inl option)).symm

theorem operands (names : List Bytes) : P 0 (operands · names) := by
  induction names with
  | nil => exact stepwise.ok
  | cons name names ih =>
    refine congr (stepwise.bind (stepwise.operand name) ih) fun reading => ?_
    simp only [Reading.operands]
    cases reading.operand name <;> rfl

/-- What can be said of the steps can be said of reading the whole list. -/
theorem arguments (list : List Bytes) : P (requests list) (Reading.arguments · list) := by
  induction list with
  | nil => exact stepwise.ok
  | cons first later ih =>
    unfold Reading.arguments requests
    split
    · exact stepwise.operands later
    · refine congr (stepwise.bind (stepwise.argument first) ih) fun reading => ?_
      cases reading.argument first <;> rfl

end Stepwise

end Reading

end HeaderKeys.CommandLine
