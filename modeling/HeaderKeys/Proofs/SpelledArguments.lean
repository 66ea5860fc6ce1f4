import HeaderKeys.Proofs.ReadingSteps

/-! Arguments by what they ask for. A command line is put together from items in any order, each
spelled in one of several ways, and may end in names behind `--`. Reading it gives back what
the items ask for: an item ends where it should, and its spelling leaves no trace. -/

namespace HeaderKeys.CommandLine

/-- The ways to ask for an output. The letter may stand behind others in a group. -/
inductive Spelling
  | letters (louder : Nat)
  | lettersEquals (louder : Nat)
  | nameEquals
  | lettersApart (louder : Nat)
  | nameApart
deriving DecidableEq, Repr

inductive Item
  | file (name : Path)
  /-- A group of one letter and so many more. -/
  | verbose (more : Nat)
  | verboseName
  | dryRun
  | output (spelling : Spelling) (value : Path)
deriving DecidableEq, Repr

def letterO : UInt8 := 'o'.toUInt8

namespace Spelling

def spelled (value : Path) : Spelling → List Bytes
  | letters louder => [dash :: (List.replicate louder letterV ++ letterO :: value)]
  | lettersEquals louder => [dash :: (List.replicate louder letterV ++ letterO :: equalsSign :: value)]
  | nameEquals => [Path.ofText "--output=".toList ++ value]
  | lettersApart louder => [dash :: (List.replicate louder letterV ++ [letterO]), value]
  | nameApart => [Path.ofText "--output".toList, value]

/-- How often the spelling asks for more output besides. -/
def louder : Spelling → Nat
  | letters louder => louder
  | lettersEquals louder => louder
  | lettersApart louder => louder
  | nameEquals => 0
  | nameApart => 0

/-- Directly behind the letter an equals sign would not belong to the value, and an argument of
its own must not look like an option. -/
def Admits (value : Path) : Spelling → Prop
  | letters _ => value.head? ≠ some equalsSign
  | lettersApart _ => value.head? ≠ some dash
  | nameApart => value.head? ≠ some dash
  | lettersEquals _ => True
  | nameEquals => True

instance (value : Path) : DecidablePred (Admits value)
  | letters _ => inferInstanceAs (Decidable (_ ≠ _))
  | lettersApart _ => inferInstanceAs (Decidable (_ ≠ _))
  | nameApart => inferInstanceAs (Decidable (_ ≠ _))
  | lettersEquals _ => isTrue trivial
  | nameEquals => isTrue trivial

end Spelling

namespace Item

def spelled : Item → List Bytes
  | file name => [name]
  | verbose more => [dash :: List.replicate (more + 1) letterV]
  | verboseName => [Path.ofText "--verbose".toList]
  | dryRun => [Path.ofText "--dry-run".toList]
  | output spelling value => spelling.spelled value

def file? : Item → Option Path
  | file name => some name
  | _ => none

def output? : Item → Option Path
  | output _ value => some value
  | _ => none

def louder : Item → Nat
  | verbose more => more + 1
  | verboseName => 1
  | output spelling _ => spelling.louder
  | _ => 0

/-- How often all of these ask for more output. -/
def asked : List Item → Nat
  | [] => 0
  | item :: later => item.louder + asked later

theorem asked_append (items later : List Item) : asked (items ++ later) = asked items + asked later := by
  induction items with
  | nil => exact (Nat.zero_add _).symm
  | cons item items ih => rw [List.cons_append, asked, ih, asked, Nat.add_assoc]

theorem asked_perm {items items' : List Item} (moved : items.Perm items') : asked items = asked items' := by
  induction moved with
  | nil => rfl
  | cons item _ ih => rw [asked, ih, asked]
  | swap item item' later => exact Nat.add_left_comm _ _ _
  | trans _ _ first second => exact first.trans second

/-- Names and values are not empty, and none is taken for something else. -/
def Sound : Item → Prop
  | file name => name ≠ [] ∧ (name.head? ≠ some dash ∨ name = [dash])
  | output spelling value => value ≠ [] ∧ spelling.Admits value
  | _ => True

instance : DecidablePred Sound
  | file _ => inferInstanceAs (Decidable (_ ∧ _))
  | output _ _ => inferInstanceAs (Decidable (_ ∧ _))
  | verbose _ => isTrue trivial
  | verboseName => isTrue trivial
  | dryRun => isTrue trivial

end Item

/-- Every item is sound, and what may be asked for once is. -/
structure Orderly (items : List Item) : Prop where
  sound : ∀ item ∈ items, item.Sound
  output : (items.filterMap Item.output?).length ≤ 1
  dryRun : items.count .dryRun ≤ 1

theorem Orderly.of_append {items later : List Item} (orderly : Orderly (items ++ later)) : Orderly items where
  sound item member := orderly.sound item (List.mem_append_left _ member)
  output := by
    have whole := orderly.output
    rw [List.filterMap_append, List.length_append] at whole
    omega
  dryRun := by
    have whole := orderly.dryRun
    rw [List.count_append] at whole
    omega

/-- The same is asked for. -/
structure Alike (items items' : List Item) : Prop where
  files : items.filterMap Item.file? = items'.filterMap Item.file?
  output : items.filterMap Item.output? = items'.filterMap Item.output?
  louder : Item.asked items = Item.asked items'
  dryRun : items.count .dryRun = items'.count .dryRun

section Alike

variable {items items' : List Item}

theorem Orderly.of_alike (orderly : Orderly items) (alike : Alike items' items) (sound : ∀ item ∈ items', item.Sound) :
    Orderly items' where
  sound := sound
  output := alike.output ▸ orderly.output
  dryRun := alike.dryRun ▸ orderly.dryRun

theorem alike_of_perm (orderly : Orderly items) (moved : items'.Perm items)
    (kept : items'.filterMap Item.file? = items.filterMap Item.file?) : Alike items' items where
  files := kept
  output := by
    have outputs := moved.filterMap Item.output?
    match known : items.filterMap Item.output?, orderly.output with
    | [], _ => exact List.perm_nil.mp (known ▸ outputs)
    | [value], _ => exact List.perm_singleton.mp (known ▸ outputs)
  louder := Item.asked_perm moved
  dryRun := moved.count_eq .dryRun

end Alike

namespace Reading

/-- What has been read when all of these items have. -/
def ofItems (items : List Item) : Reading where
  files := items.filterMap Item.file?
  output := (items.filterMap Item.output?).head?
  verbosity := min verbosityLimit (Item.asked items)
  dryRun := items.contains .dryRun

theorem ofItems_concat (items : List Item) (item : Item) :
    ofItems (items ++ [item]) =
      { files := (ofItems items).files ++ item.file?.toList
        output := (ofItems items).output.or item.output?
        verbosity := min verbosityLimit (Item.asked items + item.louder)
        dryRun := (ofItems items).dryRun || item == .dryRun } := by
  simp only [ofItems, List.filterMap_append, List.head?_append, Item.asked_append, Reading.mk.injEq]
  refine ⟨?_, ?_, ?_, ?_, trivial⟩
  · cases item <;> rfl
  · cases item <;> rfl
  · rfl
  · simp only [List.contains_append]
    cases item <;> simp

theorem dryRun_ofItems {items : List Item} (orderly : Orderly (items ++ [.dryRun])) : (ofItems items).dryRun = false := by
  have whole := orderly.dryRun
  rw [List.count_append, List.count_singleton_self] at whole
  simp only [ofItems, List.contains_eq_mem, decide_eq_false_iff_not]
  exact List.count_eq_zero.mp (by omega)

theorem output_ofItems {items : List Item} {spelling : Spelling} {value : Path}
    (orderly : Orderly (items ++ [.output spelling value])) : (ofItems items).output = none := by
  have whole := orderly.output
  simp only [List.filterMap_append, List.filterMap_cons, Item.output?, List.filterMap_nil, List.length_append,
    List.length_singleton] at whole
  simp only [ofItems, List.head?_eq_none_iff]
  exact List.eq_nil_of_length_eq_zero (by omega)

section Settled

variable {reading settled : Reading}

theorem settle_of_nothing (idle : reading.pending = .nothing) : reading.settle = .ok reading := by
  simp only [settle, idle]

theorem pending_of_settle (closed : reading.settle = .ok settled) : settled.pending = .nothing := by
  unfold settle at closed
  split at closed
  next idle =>
    cases closed
    exact idle
  · cases closed
  · unfold setOutput at closed
    split at closed
    · cases closed
    · split at closed <;> cases closed
      rfl
  · split at closed <;> cases closed
    rfl

variable (closed : reading.settle = .ok settled)
include closed

theorem flag_verbose :
    reading.flag .verbose = .ok { settled with verbosity := min verbosityLimit (settled.verbosity + 1) } := by
  simp only [flag, closed]
  rfl

theorem flag_dryRun (real : settled.dryRun = false) : reading.flag .dryRun = .ok { settled with dryRun := true } := by
  simp [flag, closed, bind, Except.bind, real]

theorem flag_output : reading.flag .output = .ok { settled with pending := .output none } := by
  simp only [flag, closed]
  rfl

theorem attached_eq (unset : settled.output = none) {value : Path} (given : value ≠ []) :
    reading.attached value = .ok { settled with output := some value } := by
  simp [attached, closed, bind, Except.bind, setOutput, unset, given, pending_of_settle closed]

theorem operand_eq {name : Path} (named : name ≠ []) :
    ∃ next, reading.operand name = .ok next ∧ next.settle = .ok { settled with files := settled.files ++ [name] } := by
  have idle := pending_of_settle closed
  unfold operand
  split
  next names pending =>
    refine ⟨_, rfl, ?_⟩
    unfold settle at closed ⊢
    rw [pending] at closed
    simp only at closed ⊢
    split at closed
    · cases closed
    next given =>
      cases closed
      have given' : ¬ (names ++ [name]).contains [] = true := by simpa [named.symm] using given
      rw [if_neg given', List.append_assoc]
  · refine ⟨{ settled with pending := .files [name] }, by simp only [closed]; rfl, ?_⟩
    simp [settle, named.symm, idle]

theorem plain_eq (argument : Bytes) : reading.plain argument = reading.operand argument := by
  unfold plain
  split
  next waiting =>
    simp only [settle, waiting] at closed
    cases closed
  · rfl

end Settled

theorem operands_eq {reading settled : Reading} (closed : reading.settle = .ok settled) {names : List Path}
    (named : ∀ name ∈ names, name ≠ []) :
    ∃ next, reading.operands names = .ok next ∧ next.settle = .ok { settled with files := settled.files ++ names } := by
  induction names generalizing reading settled with
  | nil => exact ⟨reading, rfl, by rw [closed, List.append_nil]⟩
  | cons name names ih =>
    obtain ⟨first, later⟩ := List.forall_mem_cons.mp named
    obtain ⟨middle, read, closed'⟩ := operand_eq closed first
    obtain ⟨next, read', closed''⟩ := ih closed' later
    refine ⟨next, ?_, ?_⟩
    · simp only [operands, read]
      exact read'
    · rw [closed'', List.append_assoc, List.singleton_append]

section Letters

variable {reading : Reading} {base : Reading}

theorem letters_louder {asked : Nat} (more : Nat) (idle : base.pending = .nothing)
    (closed : reading.settle = .ok { base with verbosity := min verbosityLimit asked }) :
    ∃ next : Reading, (∀ rest, reading.letters (List.replicate more letterV ++ rest) = next.letters rest) ∧
      next.settle = .ok { base with verbosity := min verbosityLimit (asked + more) } := by
  induction more generalizing reading asked with
  | zero => exact ⟨reading, fun _ => rfl, closed⟩
  | succ more ih =>
    have counted : min verbosityLimit (min verbosityLimit asked + 1) = min verbosityLimit (asked + 1) := by omega
    have flagged := flag_verbose closed
    simp only [counted] at flagged
    have stepped : ({ base with verbosity := min verbosityLimit (asked + 1) } : Reading).settle = _ := settle_of_nothing idle
    obtain ⟨next, goes, closed'⟩ := ih stepped
    refine ⟨next, fun rest => ?_, ?_⟩
    · have known : Parameter.ofLetter? letterV = some .verbose := by decide
      simp only [List.replicate_succ, List.cons_append, letters, known, flagged]
      exact goes rest
    · rw [closed', Nat.add_assoc, Nat.add_comm 1]

end Letters

section Arguments

variable {reading : Reading}

theorem arguments_cons {first : Bytes} {next : Reading} (option : first ≠ [dash, dash]) (read : reading.argument first = .ok next)
    (later : List Bytes) : reading.arguments (first :: later) = next.arguments later := by
  rw [arguments, if_neg option]
  simp only [read]

/-- A group is read letter by letter. -/
theorem arguments_group {group : Bytes} {next : Reading} (nonempty : group ≠ []) (single : group.head? ≠ some dash)
    (read : reading.letters group = .ok next) (later : List Bytes) :
    reading.arguments ((dash :: group) :: later) = next.arguments later := by
  refine arguments_cons (fun same => ?_) ((argument_group nonempty single).trans read) later
  obtain rfl := (List.cons.inj same).2
  exact single rfl

end Arguments

section Outputs

variable {reading : Reading} {value : Path}

theorem letters_value (given : value ≠ []) (behind : value.head? ≠ some equalsSign) :
    reading.letters (letterO :: value) = reading.attached value := by
  have known : Parameter.ofLetter? letterO = some .output := by decide
  obtain ⟨first, rest, rfl⟩ := List.exists_cons_of_ne_nil given
  have other : first ≠ equalsSign := by simpa using behind
  simp only [letters, known, if_neg other]

theorem letters_equals_value : reading.letters (letterO :: equalsSign :: value) = reading.attached value := by
  have known : Parameter.ofLetter? letterO = some .output := by decide
  simp only [letters, known, if_true]

theorem letters_waiting : reading.letters [letterO] = reading.flag .output := by
  have known : Parameter.ofLetter? letterO = some .output := by decide
  simp only [letters, known]

theorem long_value : reading.long (Path.ofText "output".toList ++ equalsSign :: value) = reading.attached value := by
  have unbroken : (Path.ofText "output".toList).all (· ≠ equalsSign) = true := by decide
  have inside := List.all_eq_true.mp unbroken
  have known : Parameter.ofName? (Path.ofText "output".toList) = some .output := by decide
  unfold long
  simp only [List.takeWhile_append_of_pos inside, List.dropWhile_append_of_pos inside, List.takeWhile_cons,
    List.dropWhile_cons, ne_eq, not_true_eq_false, decide_false, Bool.false_eq_true, if_false, List.append_nil, known]

/-- A value that the option waits for. It is checked later, but it will do. -/
theorem arguments_value (settled : Reading) (unset : settled.output = none) (given : value ≠ [])
    (plainly : value.head? ≠ some dash) : ∃ next : Reading,
      (∀ later, ({ settled with pending := .output none } : Reading).arguments (value :: later) = next.arguments later) ∧
      next.settle = .ok { settled with output := some value, pending := .nothing } := by
  refine ⟨{ settled with pending := .output (some value) }, fun later => ?_, ?_⟩
  · refine arguments_cons (fun same => ?_) ((argument_operand (.inl plainly)).trans rfl) later
    rw [same] at plainly
    exact plainly rfl
  · simp [settle, setOutput, unset, given]

end Outputs

section Items

variable {reading base : Reading} {asked : Nat}

theorem group_single (louder : Nat) (rest : Bytes) :
    List.replicate louder letterV ++ letterO :: rest ≠ [] ∧
      (List.replicate louder letterV ++ letterO :: rest).head? ≠ some dash := by
  cases louder with
  | zero => exact ⟨by simp, by simp only [List.replicate_zero, List.nil_append, List.head?_cons]; decide⟩
  | succ louder => exact ⟨by simp, by simp only [List.replicate_succ, List.cons_append, List.head?_cons]; decide⟩

theorem arguments_output (idle : base.pending = .nothing)
    (closed : reading.settle = .ok { base with verbosity := min verbosityLimit asked }) (unset : base.output = none)
    {spelling : Spelling} {value : Path} (given : value ≠ []) (admits : spelling.Admits value) :
    ∃ next : Reading, (∀ later, reading.arguments (spelling.spelled value ++ later) = next.arguments later) ∧
      next.settle = .ok { base with output := some value, verbosity := min verbosityLimit (asked + spelling.louder) } := by
  cases spelling with
  | letters louder =>
    obtain ⟨next, goes, closed'⟩ := letters_louder louder idle closed
    obtain ⟨nonempty, single⟩ := group_single louder value
    have read := (goes (letterO :: value)).trans ((letters_value given admits).trans (attached_eq closed' unset given))
    exact ⟨_, arguments_group nonempty single read, settle_of_nothing idle⟩
  | lettersEquals louder =>
    obtain ⟨next, goes, closed'⟩ := letters_louder louder idle closed
    obtain ⟨nonempty, single⟩ := group_single louder (equalsSign :: value)
    have read := (goes (letterO :: equalsSign :: value)).trans (letters_equals_value.trans (attached_eq closed' unset given))
    exact ⟨_, arguments_group nonempty single read, settle_of_nothing idle⟩
  | nameEquals =>
    have read : reading.argument (Path.ofText "--output=".toList ++ value) = _ := long_value.trans (attached_eq closed unset given)
    have option : Path.ofText "--output=".toList ++ value ≠ [dash, dash] := fun same => by
      cases congrArg (List.take 3) same
    exact ⟨_, arguments_cons option read, settle_of_nothing idle⟩
  | lettersApart louder =>
    obtain ⟨middle, goes, closed'⟩ := letters_louder louder idle closed
    obtain ⟨nonempty, single⟩ := group_single louder []
    have read := (goes [letterO]).trans (letters_waiting.trans (flag_output closed'))
    obtain ⟨next, goes', closed''⟩ :=
      arguments_value { base with verbosity := min verbosityLimit (asked + louder) } unset given admits
    refine ⟨next, fun later => (arguments_group nonempty single read _).trans (goes' later), ?_⟩
    rw [closed'', ← idle]
    rfl
  | nameApart =>
    have read : reading.argument (Path.ofText "--output".toList) = _ := flag_output closed
    obtain ⟨next, goes, closed'⟩ :=
      arguments_value { base with verbosity := min verbosityLimit asked } unset given admits
    refine ⟨next, fun later => (arguments_cons (by decide) read _).trans (goes later), ?_⟩
    rw [closed', ← idle]
    rfl

theorem arguments_item {items : List Item} {item : Item} (closed : reading.settle = .ok (ofItems items))
    (orderly : Orderly (items ++ [item])) :
    ∃ next : Reading, (∀ later, reading.arguments (item.spelled ++ later) = next.arguments later) ∧
      next.settle = .ok (ofItems (items ++ [item])) := by
  have sound : item.Sound := orderly.sound item (by simp)
  -- The requests so far are told apart from the rest, since an item may add to them before it does anything else.
  have closed : reading.settle = .ok { ofItems items with verbosity := min verbosityLimit (Item.asked items) } := closed
  rw [ofItems_concat]
  cases item with
  | file name =>
    obtain ⟨nonempty, plainly⟩ := sound
    obtain ⟨next, read, closed'⟩ := operand_eq closed nonempty
    have option : name ≠ [dash, dash] := fun same => by
      subst same
      exact absurd plainly (by decide)
    refine ⟨next, arguments_cons option ((argument_operand plainly).trans ((plain_eq closed name).trans read)), ?_⟩
    rw [closed']
    simp [ofItems, Item.file?, Item.output?, Item.louder]
  | verbose more =>
    obtain ⟨next, goes, closed'⟩ := letters_louder (more + 1) rfl closed
    have read := goes []
    rw [List.append_nil] at read
    refine ⟨next, arguments_group (by simp) (by simp only [List.replicate_succ, List.head?_cons]; decide) read, ?_⟩
    rw [closed']
    simp [ofItems, Item.file?, Item.output?, Item.louder]
  | verboseName =>
    have read : reading.argument (Path.ofText "--verbose".toList) = _ := flag_verbose closed
    refine ⟨_, arguments_cons (by decide) read, ?_⟩
    simp [ofItems, Item.file?, Item.output?, Item.louder, settle]
    omega
  | dryRun =>
    have real := dryRun_ofItems orderly
    have read : reading.argument (Path.ofText "--dry-run".toList) = _ := flag_dryRun closed real
    refine ⟨_, arguments_cons (by decide) read, ?_⟩
    simp [ofItems, Item.file?, Item.output?, Item.louder, settle]
  | output spelling value =>
    have unset := output_ofItems orderly
    obtain ⟨next, goes, closed'⟩ := arguments_output rfl closed unset sound.1 sound.2
    refine ⟨next, goes, ?_⟩
    rw [closed', unset]
    simp [ofItems, Item.file?, Item.output?, Item.louder]

/-- Each item ends where it is spelled to, whatever follows. -/
theorem arguments_items {items later : List Item} (closed : reading.settle = .ok (ofItems items))
    (orderly : Orderly (items ++ later)) :
    ∃ next : Reading, (∀ rest, reading.arguments (later.flatMap Item.spelled ++ rest) = next.arguments rest) ∧
      next.settle = .ok (ofItems (items ++ later)) := by
  induction later generalizing reading items with
  | nil => exact ⟨reading, fun _ => rfl, by rw [closed, List.append_nil]⟩
  | cons item later ih =>
    rw [List.append_cons] at orderly ⊢
    obtain ⟨middle, goes, closed'⟩ := arguments_item closed orderly.of_append
    obtain ⟨next, goes', closed''⟩ := ih closed' orderly
    refine ⟨next, fun rest => ?_, closed''⟩
    rw [List.flatMap_cons, List.append_assoc, goes, goes']

end Items

end Reading

/-- A list of arguments as it is put together. -/
structure Wording where
  items : List Item
  /-- What stands behind `--`, if that is there. -/
  names : Option (List Path)

namespace Wording

def arguments (wording : Wording) : List Bytes :=
  wording.items.flatMap Item.spelled ++
    match wording.names with
    | none => []
    | some names => [dash, dash] :: names

def files (wording : Wording) : List Path := wording.items.filterMap Item.file? ++ wording.names.getD []

def options (wording : Wording) : Options where
  files := wording.files
  output := (wording.items.filterMap Item.output?).head?.getD (Path.ofText defaultOutput)
  verbosity := min 255 (Item.asked wording.items)
  dryRun := wording.items.contains .dryRun

structure Proper (wording : Wording) : Prop where
  orderly : Orderly wording.items
  named : ∀ name ∈ wording.names.getD [], name ≠ []
  files : wording.files ≠ []

theorem parse_arguments {wording : Wording} (proper : wording.Proper) : parse wording.arguments = .ok wording.options := by
  have nothing : ({} : Reading).settle = .ok (Reading.ofItems []) := rfl
  obtain ⟨reading, goes, closed⟩ := Reading.arguments_items nothing proper.orderly
  obtain ⟨last, read, closed'⟩ : ∃ last : Reading, ({} : Reading).arguments wording.arguments = .ok last ∧
      last.settle = .ok { Reading.ofItems wording.items with files := wording.files } := by
    unfold arguments files
    cases given : wording.names with
    | none =>
      refine ⟨reading, goes [], ?_⟩
      rw [closed, Option.getD_none, List.append_nil]
      rfl
    | some names =>
      have named : ∀ name ∈ names, name ≠ [] := by simpa [given] using proper.named
      obtain ⟨last, read, closed'⟩ := Reading.operands_eq closed named
      exact ⟨last, (goes _).trans read, closed'⟩
  simp only [parse, read, bind, Except.bind, Reading.options, closed', if_neg proper.files]
  rfl

theorem options_alike {wording : Wording} {items : List Item} (alike : Alike items wording.items) :
    options { wording with items } = wording.options := by
  have dry : items.contains .dryRun = wording.items.contains .dryRun := by
    simp only [List.contains_eq_mem, ← List.count_pos_iff, alike.dryRun]
  simp only [options, files, alike.files, alike.output, alike.louder, dry]

theorem Proper.alike {wording : Wording} (proper : wording.Proper) {items : List Item} (sound : ∀ item ∈ items, item.Sound)
    (alike : Alike items wording.items) : Proper { wording with items } where
  orderly := proper.orderly.of_alike alike sound
  named := proper.named
  files := by
    have same : Wording.files { wording with items } = wording.files := by simp only [Wording.files, alike.files]
    rw [same]
    exact proper.files

end Wording

/-- A proper wording parses to what its items ask for. So items may change places while the files
keep theirs, and may give way to others that ask for the same. -/
theorem parse_wording {wording : Wording} (proper : wording.Proper) :
    parse wording.arguments = .ok wording.options ∧
    (∀ items : List Item, items.Perm wording.items → items.filterMap Item.file? = wording.items.filterMap Item.file? →
      parse (Wording.arguments { wording with items }) = .ok wording.options) ∧
    (∀ items : List Item, (∀ item ∈ items, item.Sound) → Alike items wording.items →
      parse (Wording.arguments { wording with items }) = .ok wording.options) := by
  have respelled : ∀ items : List Item, (∀ item ∈ items, item.Sound) → Alike items wording.items →
      parse (Wording.arguments { wording with items }) = .ok wording.options := by
    intro items sound alike
    rw [Wording.parse_arguments (proper.alike sound alike), Wording.options_alike alike]
  refine ⟨Wording.parse_arguments proper, fun items moved kept => ?_, respelled⟩
  exact respelled items (fun item member => proper.orderly.sound item (moved.mem_iff.mp member))
    (alike_of_perm proper.orderly moved kept)

/-- Names behind `--` that look like options, a value that begins with an equals sign, and the same asked
for in other words and in another order. -/
theorem parse_wording_of_odd_names :
    let name (text : String) : Path := Path.ofText text.toList
    let items : List Item :=
      [.verbose 1, .file (name "-"), .output (.lettersApart 3) (name "=a"), .file (name "a.h"), .dryRun, .verboseName]
    let others : List Item :=
      [.dryRun, .output .nameEquals (name "=a"), .file (name "-"), .verboseName, .verbose 4, .file (name "a.h")]
    let wording : Wording := ⟨items, some [name "--", name "-v", name "--output=b"]⟩
    let other : Wording := ⟨others, wording.names⟩
    wording.arguments = ["-vv", "-", "-vvvo", "=a", "a.h", "--dry-run", "--verbose", "--", "--", "-v", "--output=b"].map name ∧
    other.arguments = ["--dry-run", "--output==a", "-", "--verbose", "-vvvvv", "a.h", "--", "--", "-v", "--output=b"].map name ∧
    parse wording.arguments = .ok wording.options ∧
    parse other.arguments = .ok wording.options ∧
    wording.options = ⟨["-", "a.h", "--", "-v", "--output=b"].map name, name "=a", 6, true⟩ := by
  intro name items others wording other
  have proper : wording.Proper := ⟨⟨by decide, by decide, by decide⟩, by decide, by decide⟩
  have sound : ∀ item ∈ others, item.Sound := by decide
  obtain ⟨read, _, respelled⟩ := parse_wording proper
  exact ⟨rfl, rfl, read, respelled others sound ⟨rfl, rfl, rfl, rfl⟩, rfl⟩

end HeaderKeys.CommandLine
