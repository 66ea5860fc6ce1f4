import HeaderKeys.FileSystem.Layout
import HeaderKeys.Proofs.CompleteTable
import HeaderKeys.Proofs.HeaderFiles
import HeaderKeys.Proofs.RunDecisions
import HeaderKeys.Proofs.Utf8Seams

/-! Keys may be spread over several headers as if these were one. A seam changes nothing if
the text before it ends with its line break and leaves no array open: the break keeps
characters and lines apart, and the scanner is idle there. -/

namespace HeaderKeys

open CommandLine

/-- Behind a seam the scanner stands as at the start, but for the keys it has found. -/
theorem scan_append {a : Text} (ends : EndsIn '\n' a) (closed : (report a).discarded = none) (b : Text) :
    report (a ++ b) = ⟨(report a).found ++ (report b).found, (report b).discarded⟩ ∧
      findings (a ++ b) = findings a ++ findings b := by
  have lines := Text.lines_append ends b
  have idle := Scanner.idle_of_finish closed
  obtain ⟨⟨state, found⟩, first⟩ : ∃ scanner, (({} : Scanner).feedAll a.lines).1 = scanner := ⟨_, rfl⟩
  obtain rfl : state = .idle := by rw [first] at idle; exact idle
  have again := Scanner.feedAll_found .idle found [] b.lines
  rw [List.append_nil] at again
  constructor
  · simp only [report, lines, Scanner.feedAll_append, first, again]
    rw [Scanner.finish_found, Scanner.finish_found _ (Scanner.found _)]
    rfl
  · simp only [findings, lines, Scanner.feedAll_append, first, again]

/-- Contents with clean seams between them, scanned as one. -/
theorem scan_joined {front : List Bytes}
    (seams : ∀ content ∈ front, EndsIn 0x0A content ∧ (report (Utf8.decode content)).discarded = none) (last : Bytes) :
    report (Utf8.decode (front.flatten ++ last)) =
        ⟨(front ++ [last]).flatMap fun content => (report (Utf8.decode content)).found,
          (report (Utf8.decode last)).discarded⟩ ∧
      findings (Utf8.decode (front.flatten ++ last)) =
        (front ++ [last]).flatMap fun content => findings (Utf8.decode content) := by
  induction front with
  | nil => simp
  | cons content front ih =>
    obtain ⟨ends, closed⟩ := seams content (by simp)
    obtain ⟨reported, brought⟩ := ih fun other member => seams other (by simp [member])
    have joined := scan_append (Utf8.endsIn_decode ends) closed (Utf8.decode (front.flatten ++ last))
    rw [← Utf8.decode_append ends, reported, brought] at joined
    simpa using joined

/-- Scanning headers one after the other and scanning what they hold as one header fill any
table alike, and the second report is made of the first ones. So both runs decide the same. -/
theorem split_inputs_scan_as_one (front : List Bytes) (last : Bytes)
    (seams : ∀ content ∈ front, EndsIn 0x0A content ∧ (report (Utf8.decode content)).discarded = none)
    {first second : Invocation} {options : Options} {whole : Path} {fs fs' : FileSystem}
    (program : second.program = first.program) (parsed : parse first.arguments = .ok options)
    (parsed' : parse second.arguments = .ok { options with files := [whole] })
    (held : options.files.map fs.node? = (front ++ [last]).map fun content => some (.file content))
    (held' : fs'.node? whole = some (.file (front.flatten ++ last))) :
    (∀ table, ∃ filled, (collect table (inputsOf fs options.files)).result = .ok filled ∧
      fs'.scanFile whole table =
        .ok (⟨(front ++ [last]).flatMap fun content => (report (Utf8.decode content)).found,
          (report (Utf8.decode last)).discarded⟩, filled)) ∧
    let split := decision first.program.display options (inputsOf fs options.files)
    let joined := decision second.program.display { options with files := [whole] } (inputsOf fs' [whole])
    run first fs = split.outcome options.verbosity fs ∧ run second fs' = joined.outcome options.verbosity fs' ∧
      split.plan = joined.plan ∧ ∀ text, Event.warning text ∈ split.events ↔ Event.warning text ∈ joined.events := by
  obtain ⟨reported, brought⟩ := scan_joined seams last
  have filled : ∀ table : KeyTable, (collect table (inputsOf fs options.files)).result =
      .ok (scanText (Utf8.decode (front.flatten ++ last)) table).2 := by
    intro table
    rw [collect_result (content_inputsOf held), KeyTable.scanContents_eq, ← brought]
    rfl
  have single : [whole].map fs'.node? = [front.flatten ++ last].map fun content => some (.file content) := by
    rw [List.map_singleton, held', List.map_singleton]
  have filled' : (collect .empty (inputsOf fs' [whole])).result =
      .ok (scanText (Utf8.decode (front.flatten ++ last)) .empty).2 := collect_result (content_inputsOf single) .empty
  refine ⟨fun table => ⟨_, filled table, ?_⟩, run_of_parse parsed fs, run_of_parse parsed' fs', ?_⟩
  · refine FileSystem.scanFile_eq_ok_iff.mpr ⟨_, FileSystem.readHeader_eq_ok_iff.mpr held', ?_⟩
    rw [scanText, reported]
  · rw [program]
    exact decision_congr _ (filled .empty) filled' rfl rfl

/-- The first header ends its array with a character that breaks off before the line break; the second
one replaces the array and leaves another one open. With a header between them that has the other keys
none is missing, and a dry run over either form prints the same file. -/
theorem split_inputs_scan_as_one_damaged :
    let header : Bytes := Utf8.encode "uint32_t out_key_p\n0xDEADBEEF".toList ++ [0xE2, 0x82, 0x0A] ++ Utf8.encode "\x7d;\n".toList
    let others : Bytes := Utf8.encode
        "uint32_t out_key_s\n\t\x7d,\x7b\n\x7d;\nuint32_t in_key_s\n\x7d;\nuint32_t in_key_p\n0xDEADBEEF".toList
      ++ [0xE2, 0x82, 0x0A] ++ Utf8.encode "\x7d;\n".toList
    let footer : Bytes := Utf8.encode "uint32_t out_key_p\n\x7d; uint32_t in_key_p\nuint32_t in_key_s".toList ++ [0xF0]
    let name (text : String) : Path := Path.ofText text.toList
    let fs := FileSystem.fresh.layOut [.file (name "a.h") header, .file (name "b.h") footer, .file (name "o.h") others]
    let fs' := FileSystem.fresh.layOut
      [.file (name "c.h") (header ++ footer), .file (name "d.h") (header ++ others ++ footer)]
    let output := name "src/com/aregner/pandora/PandoraKeys.java"
    let first : Invocation := ⟨name "./tools/update", [name "a.h", name "b.h"]⟩
    let second : Invocation := ⟨name "./tools/update", [name "c.h"]⟩
    let options : Options := ⟨[name "a.h", name "b.h"], output, 0, false⟩
    let first' : Invocation := ⟨name "./tools/update", ["--dry-run", "a.h", "o.h", "b.h"].map name⟩
    let second' : Invocation := ⟨name "./tools/update", ["--dry-run", "d.h"].map name⟩
    let block : KeyName → Text := fun
      | .outKeyP => []
      | .outKeyS => "\t\x7d,\x7b\n".toList
      | .inKeyP => "0xDEADBEEFL\uFFFD\n".toList
      | .inKeyS => []
    let source := ClassSource.layout (KeyName.all.map fun key => declaration key (block key))
    (∀ table, ∃ filled, (collect table (inputsOf fs options.files)).result = .ok filled ∧
      fs'.scanFile (name "c.h") table = .ok (⟨[.outKeyP, .outKeyP], some .inKeyS⟩, filled)) ∧
    (decision first.program.display options (inputsOf fs options.files)).plan =
      (decision second.program.display { options with files := [name "c.h"] } (inputsOf fs' [name "c.h"])).plan ∧
    (run first' fs).ending.stdout = source ∧ (run second' fs').ending.stdout = source := by
  intro header others footer name fs fs' output first second options first' second' block source
  have program : second.program = first.program := rfl
  have program' : second'.program = first'.program := rfl
  have seams : ∀ content ∈ [header, others], EndsIn 0x0A content ∧ (report (Utf8.decode content)).discarded = none := by
    decide +kernel
  have seam : ∀ content ∈ [header], EndsIn 0x0A content ∧ (report (Utf8.decode content)).discarded = none :=
    fun content member => seams content (List.mem_append_left [others] member)
  have parsed : parse first.arguments = .ok options := rfl
  have parsed' : parse second.arguments = .ok { options with files := [name "c.h"] } := rfl
  have held : options.files.map fs.node? = ([header] ++ [footer]).map fun content => some (.file content) := by
    decide +kernel
  have held' : fs'.node? (name "c.h") = some (.file ([header].flatten ++ footer)) := by decide +kernel
  have joined := split_inputs_scan_as_one [header] footer seam program parsed parsed' held held'
  refine ⟨fun table => ?_, joined.2.2.2.1, ?_⟩
  · have reports : [header, footer].flatMap (fun content => (report (Utf8.decode content)).found) = [.outKeyP, .outKeyP] ∧
        (report (Utf8.decode footer)).discarded = some .inKeyS := by decide +kernel
    obtain ⟨filled, collected, scanned⟩ := joined.1 table
    refine ⟨filled, collected, ?_⟩
    simp only [List.singleton_append, reports.1, reports.2] at scanned
    exact scanned
  · let whole : Options := ⟨["a.h", "o.h", "b.h"].map name, output, 0, true⟩
    have parsed : parse first'.arguments = .ok whole := rfl
    have parsed' : parse second'.arguments = .ok { whole with files := [name "d.h"] } := rfl
    have held : whole.files.map fs.node? = ([header, others] ++ [footer]).map fun content => some (.file content) := by
      decide +kernel
    have held' : fs'.node? (name "d.h") = some (.file ([header, others].flatten ++ footer)) := by decide +kernel
    have invoked : occurs toolsDirectory first'.program.display = true := by decide +kernel
    have known : ∀ key ∈ KeyName.all,
        (KeyTable.empty.scanContents [header, others, footer]).get? key = some (declaration key (block key)) := by decide +kernel
    have rendered := KeyTable.render_of_get? fun key => known key (KeyName.mem_all key)
    obtain ⟨_, ran, ran', same, _⟩ :=
      split_inputs_scan_as_one [header, others] footer seams program' parsed parsed' held held'
    have printed : (decision first'.program.display whole (inputsOf fs whole.files)).plan = .print source := by
      rw [decision_complete invoked (collect_result (content_inputsOf held) .empty) rendered]
      rfl
    rw [ran, ran']
    exact ⟨stdout_of_print printed .., stdout_of_print (same.symm.trans printed) ..⟩

end HeaderKeys
