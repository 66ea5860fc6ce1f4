import HeaderKeys.FileSystem.Layout
import HeaderKeys.Proofs.CompleteTable
import HeaderKeys.Proofs.FileWriting
import HeaderKeys.Proofs.OutlineScan
import HeaderKeys.Proofs.RunDecisions

/-! What stands in the generated file, from the bytes of the headers on. For each key the last
header that closes it counts, and in that header the last array. The headers are read
before the file is written, so one of them may be the file itself. -/

namespace HeaderKeys

/-- The closed array of `key` that counts in a text. -/
def Outline.lastArray? (outline : Outline) (key : KeyName) : Option ClosedArray :=
  outline.arrays.reverse.find? fun array => array.key = key

/-- The closed array of `key` that counts in several headers. -/
def lastArray? (contents : List Bytes) (key : KeyName) : Option ClosedArray :=
  contents.reverse.findSome? fun content => (Utf8.decode content).outline.lastArray? key

theorem isSome_lastArray? {contents : List Bytes} {key : KeyName} : (lastArray? contents key).isSome = true ↔
    ∃ content ∈ contents, ∃ array ∈ (Utf8.decode content).outline.arrays, array.key = key := by
  simp only [lastArray?, Outline.lastArray?, List.findSome?_isSome_iff, List.find?_isSome, List.mem_reverse,
    decide_eq_true_iff]

theorem key_of_lastArray? {contents : List Bytes} {key : KeyName} {array : ClosedArray}
    (last : lastArray? contents key = some array) : array.key = key := by
  obtain ⟨content, _, found⟩ := List.exists_of_findSome?_eq_some last
  rw [Outline.lastArray?] at found
  simpa using List.find?_some found

namespace KeyTable

theorem get?_scanContents (table : KeyTable) (contents : List Bytes) (key : KeyName) :
    (table.scanContents contents).get? key =
      ((lastArray? contents key).map ClosedArray.constant).or (table.get? key) := by
  -- Each header is scanned into the table of those before it, so the table is left general.
  induction contents generalizing table with
  | nil => rfl
  | cons content contents ih =>
    have later := ih (scanText (Utf8.decode content) table).2
    have first : (scanText (Utf8.decode content) table).2.get? key =
        (((Utf8.decode content).outline.lastArray? key).map ClosedArray.constant).or (table.get? key) := by
      rw [scanText_eq]
      exact get?_insertArrays table _ key
    rw [first] at later
    have chosen : lastArray? (content :: contents) key =
        (lastArray? contents key).or ((Utf8.decode content).outline.lastArray? key) := by
      simp [lastArray?, List.findSome?_append]
    rw [chosen, Option.map_or, Option.or_assoc]
    exact later

end KeyTable

namespace ClassSource

theorem opening_eq : opening = licenseHeader ++ "\n".toList ++ attribution ++ "\n".toList
    ++ "package com.aregner.pandora;\n".toList ++ "\n".toList ++ "public final class PandoraKeys \x7b\n".toList := by
  have package : "package ".toList ++ packageName ++ ";\n\n".toList =
      "package com.aregner.pandora;\n".toList ++ "\n".toList := by decide
  have heading : "public final class ".toList ++ className ++ " \x7b\n".toList =
      "public final class PandoraKeys \x7b\n".toList := by decide
  simp only [opening, ← package, ← heading, List.append_assoc]

theorem layout_all (constants : KeyName → Text) :
    let piece (key : KeyName) := "\t".toList ++ constants key ++ "\n".toList
    layout (KeyName.all.map constants) = licenseHeader ++ "\n".toList ++ attribution ++ "\n".toList
      ++ "package com.aregner.pandora;\n".toList ++ "\n".toList ++ "public final class PandoraKeys \x7b\n".toList
      ++ piece .outKeyP ++ "\t\n".toList ++ piece .outKeyS ++ "\t\n".toList ++ piece .inKeyP ++ "\t\n".toList
      ++ piece .inKeyS ++ "\x7d\n\n".toList := by
  intro piece
  have members : joinWith separator ((KeyName.all.map constants).map member) =
      piece .outKeyP ++ separator ++ (piece .outKeyS ++ separator ++ (piece .inKeyP ++ separator ++ piece .inKeyS)) := rfl
  rw [layout, members, opening_eq]
  simp only [separator, closing, List.append_assoc]

end ClassSource

namespace CommandLine

theorem decision_of_collected {invokedAs : Text} (invoked : occurs toolsDirectory invokedAs = true) {options : Options}
    (real : options.dryRun = false) {inputs : List Input} {table : KeyTable}
    (collected : (collect .empty inputs).result = .ok table) {text : Text} (rendered : table.render = .ok text) :
    (decision invokedAs options inputs).plan = .write options.output text := by
  rw [decision_complete invoked collected rendered, real]
  rfl

theorem written_of_exitCode {decided : Decision} {path : Path} {text : Text} (plan : decided.plan = .write path text)
    {verbosity : Nat} {fs : FileSystem} (succeeded : (decided.outcome verbosity fs).ending.exitCode = 0) :
    (decided.outcome verbosity fs).ending.stdout = "Wrote ".toList ++ path.display ++ "\n".toList ∧
      fs.store path (Utf8.encode text) = ((decided.outcome verbosity fs).files, .ok ()) := by
  obtain ⟨⟨files, written⟩, stored⟩ : ∃ result, fs.store path (Utf8.encode text) = result := ⟨_, rfl⟩
  have outcome : decided.outcome verbosity fs = ⟨decided.ending verbosity written, files⟩ := by
    simp only [Decision.outcome, plan, Plan.perform, stored]
  rw [outcome] at succeeded ⊢
  cases written with
  | error failure =>
    simp only [Decision.ending, plan, Ending.failure] at succeeded
    cases succeeded
  | ok =>
    refine ⟨?_, stored⟩
    simp only [Decision.ending, plan, Ending.success]

/-- A run that writes its output leaves exactly this text there. -/
theorem generated_file {invocation : Invocation} {options : Options} {fs : FileSystem} {contents : List Bytes}
    (invoked : occurs toolsDirectory invocation.program.display = true)
    (parsed : parse invocation.arguments = .ok options) (real : options.dryRun = false)
    (held : options.files.map fs.node? = contents.map fun content => some (.file content))
    (closed : ∀ key, ∃ content ∈ contents, ∃ array ∈ (Utf8.decode content).outline.arrays, array.key = key)
    (succeeded : (run invocation fs).ending.exitCode = 0)
    (regular : (run invocation fs).files.isRegularFile options.output = true) :
    (run invocation fs).ending.stdout = "Wrote ".toList ++ options.output.display ++ "\n".toList ∧
    ∃ arrays : KeyName → ClosedArray, (∀ key, lastArray? contents key = some (arrays key)) ∧
      let piece (key : KeyName) := "\t".toList ++ declaration key (suffixLiterals (arrays key).block.flatten) ++ "\n".toList
      (run invocation fs).files.node? options.output = some (.file (Utf8.encode (
        ClassSource.licenseHeader ++ "\n".toList ++ ClassSource.attribution ++ "\n".toList
          ++ "package com.aregner.pandora;\n".toList ++ "\n".toList ++ "public final class PandoraKeys \x7b\n".toList
          ++ piece .outKeyP ++ "\t\n".toList ++ piece .outKeyS ++ "\t\n".toList ++ piece .inKeyP ++ "\t\n".toList
          ++ piece .inKeyS ++ "\x7d\n\n".toList))) := by
  obtain ⟨arrays, last⟩ : ∃ arrays : KeyName → ClosedArray, ∀ key, lastArray? contents key = some (arrays key) :=
    ⟨fun key => (lastArray? contents key).get (isSome_lastArray?.mpr (closed key)), fun key => (Option.some_get _).symm⟩
  have collected := collect_result (content_inputsOf held) .empty
  have entries : ∀ key, (KeyTable.empty.scanContents contents).get? key =
      some (declaration key (suffixLiterals (arrays key).block.flatten)) := by
    intro key
    have same := key_of_lastArray? (last key)
    rw [KeyTable.get?_scanContents, last, Option.map_some, ClosedArray.constant, same]
    rfl
  have plan := decision_of_collected invoked real collected (KeyTable.render_of_get? entries)
  rw [run_of_parse parsed] at succeeded regular ⊢
  obtain ⟨told, stored⟩ := written_of_exitCode plan succeeded
  refine ⟨told, arrays, last, ?_⟩
  have text := ClassSource.layout_all fun key => declaration key (suffixLiterals (arrays key).block.flatten)
  rw [FileSystem.node?_store stored regular]
  exact congrArg (fun text => some (Node.file (Utf8.encode text))) text

/-- The output is a link to the second header. That repeats a key of the first one twice, and
leaves another one open whose array in the first one counts. -/
theorem generated_file_through_link :
    let name (text : String) : Path := Path.ofText text.toList
    let first : Bytes := Utf8.encode
      "uint32_t out_key_p\n1\n\x7d;\nuint32_t out_key_s \x7d;\n\t\x7d\n\x7d;\nuint32_t in_key_p\n0xDEADBEEF\n\x7d;\n".toList
    let second : Bytes := Utf8.encode
      "uint32_t in_key_s\n\x7d;\nuint32_t out_key_p\n2\n\x7d;\nuint32_t out_key_p\n3\n\x7d;\nuint32_t in_key_p\n4\n".toList
    let fs := FileSystem.fresh.layOut
      [.file (name "a.h") first, .file (name "b.h") second, .link (name "keys") (name "b.h")]
    let invocation : Invocation := ⟨name "./tools/update", [name "a.h", name "b.h", name "-okeys"]⟩
    let block : KeyName → Text := fun
      | .outKeyP => "3\n".toList
      | .outKeyS => "\t\x7d\n".toList
      | .inKeyP => "0xDEADBEEF\n".toList
      | .inKeyS => []
    let piece (key : KeyName) := "\t".toList ++ declaration key (suffixLiterals (block key)) ++ "\n".toList
    (run invocation fs).ending.stdout = "Wrote keys\n".toList ∧
    (run invocation fs).files.node? (name "keys") = some (.file (Utf8.encode (
      ClassSource.licenseHeader ++ "\n".toList ++ ClassSource.attribution ++ "\n".toList
        ++ "package com.aregner.pandora;\n".toList ++ "\n".toList ++ "public final class PandoraKeys \x7b\n".toList
        ++ piece .outKeyP ++ "\t\n".toList ++ piece .outKeyS ++ "\t\n".toList ++ piece .inKeyP ++ "\t\n".toList
        ++ piece .inKeyS ++ "\x7d\n\n".toList))) := by
  intro name first second fs invocation block piece
  have invoked : occurs toolsDirectory invocation.program.display = true := by decide +kernel
  have parsed : parse invocation.arguments = .ok ⟨[name "a.h", name "b.h"], name "keys", 0, false⟩ := rfl
  have held : [name "a.h", name "b.h"].map fs.node? = [first, second].map fun content => some (.file content) := by
    decide +kernel
  have found : ∀ key ∈ KeyName.all,
      (lastArray? [first, second] key).map (fun array => array.block.flatten) = some (block key) := by decide +kernel
  have closed : ∀ key, ∃ content ∈ [first, second], ∃ array ∈ (Utf8.decode content).outline.arrays, array.key = key := by
    intro key
    have some : (lastArray? [first, second] key).isSome = true := by rw [← Option.isSome_map, found key (KeyName.mem_all key)]; rfl
    exact isSome_lastArray?.mp some
  obtain ⟨succeeded, regular⟩ : (run invocation fs).ending.exitCode = 0 ∧
      (run invocation fs).files.isRegularFile (name "keys") = true := by decide +kernel
  obtain ⟨told, arrays, last, file⟩ := generated_file invoked parsed rfl held closed succeeded regular
  refine ⟨told, ?_⟩
  have blocks : ∀ key, (arrays key).block.flatten = block key := by
    intro key
    have same := found key (KeyName.mem_all key)
    rw [last] at same
    exact Option.some.inj same
  simp only [blocks] at file
  exact file

end CommandLine

end HeaderKeys
