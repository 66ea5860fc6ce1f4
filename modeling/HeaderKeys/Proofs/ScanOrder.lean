import HeaderKeys.ClassSource
import HeaderKeys.Proofs.OutlineScan

/-! Scanning writes over a table and never reads it. What a text brings about can be had from
the empty table alone, and is laid over whatever table there is. So texts that find no key in
common may be scanned in any order. -/

namespace HeaderKeys

namespace KeyTable

def scanTexts (table : KeyTable) (texts : List Text) : KeyTable :=
  texts.foldl (fun current text => (scanText text current).2) table

/-- An entry that a text stores covers the one before. -/
theorem get?_scanText (text : Text) (table : KeyTable) (key : KeyName) :
    (scanText text table).2.get? key = ((scanText text empty).2.get? key).or (table.get? key) := by
  rw [scanText_eq, scanText_eq, get?_insertArrays, get?_insertArrays, get?_empty, Option.or_none]

theorem mem_found_iff {text : Text} {key : KeyName} :
    key ∈ (report text).found ↔ ((scanText text empty).2.get? key).isSome = true := by
  rw [report_eq, scanText_eq, get?_insertArrays, get?_empty, Option.or_none, Option.isSome_map, List.find?_isSome]
  simp [Outline.keys]

theorem get?_of_not_found {text : Text} {key : KeyName} (absent : key ∉ (report text).found) :
    (scanText text empty).2.get? key = none := by
  rwa [mem_found_iff, Bool.not_eq_true, Option.isSome_eq_false_iff, Option.isNone_iff_eq_none] at absent

/-- Of two texts without a common key either may come first. -/
theorem scanText_comm {a b : Text} (apart : ∀ key ∈ (report a).found, key ∉ (report b).found) (table : KeyTable) :
    (scanText b (scanText a table).2).2 = (scanText a (scanText b table).2).2 := by
  apply ext_get?
  intro key
  rw [get?_scanText b, get?_scanText a, get?_scanText a (scanText b table).2, get?_scanText b table]
  by_cases found : key ∈ (report a).found
  · rw [get?_of_not_found (apart key found), Option.none_or, Option.none_or]
  · rw [get?_of_not_found found, Option.none_or, Option.none_or]

theorem scanTexts_perm {texts texts' : List Text} (order : texts.Perm texts')
    (apart : ∀ a ∈ texts, ∀ b ∈ texts, a ≠ b → ∀ key ∈ (report a).found, key ∉ (report b).found) (table : KeyTable) :
    table.scanTexts texts = table.scanTexts texts' := by
  apply order.foldl_eq'
  intro a first b second current
  by_cases same : a = b
  · rw [same]
  · exact scanText_comm (apart a first b second same) current

/-- Scanning reports the same over any table as over the empty one, and changes just the entries
of the keys found, to what they become over the empty one. So the order of texts is of no
account, for the table as for the file, if different ones find different keys. -/
theorem scan_overrides :
    (∀ (text : Text) (table : KeyTable), (scanText text table).1 = (scanText text empty).1 ∧
      ∀ key, (scanText text table).2.get? key =
        if key ∈ (scanText text table).1.found then (scanText text empty).2.get? key else table.get? key) ∧
    ∀ texts texts' : List Text, texts.Perm texts' →
      (∀ a ∈ texts, ∀ b ∈ texts, a ≠ b → ∀ key ∈ (report a).found, key ∉ (report b).found) →
      ∀ table : KeyTable, table.scanTexts texts = table.scanTexts texts' ∧
        (table.scanTexts texts).render = (table.scanTexts texts').render := by
  constructor
  · intro text table
    refine ⟨rfl, fun key => ?_⟩
    rw [get?_scanText]
    split
    next found =>
      obtain ⟨constant, held⟩ := Option.isSome_iff_exists.mp (mem_found_iff.mp found)
      rw [held, Option.some_or]
    next absent => rw [get?_of_not_found absent, Option.none_or]
  · intro texts texts' order apart table
    have same := scanTexts_perm order apart table
    exact ⟨same, congrArg render same⟩

/-- The one text finds a key twice and leaves the other one's key open, and the other does so
the other way round; one of them comes twice. -/
theorem scan_overrides_in_both_orders :
    let a := "uint32_t out_key_p\n1\n\x7d;\nuint32_t out_key_p\n2\n\x7d;\nuint32_t in_key_s\n3\n".toList
    let b := "uint32_t in_key_s\n4\n\x7d;\nuint32_t out_key_p\n5".toList
    let table := (empty.insert .outKeyP "old".toList).insert .inKeyP "kept".toList
    [a, b, a].Perm [b, a, a] ∧
      (∀ first ∈ [a, b, a], ∀ second ∈ [a, b, a], first ≠ second →
        ∀ key ∈ (report first).found, key ∉ (report second).found) ∧
      table.scanTexts [a, b, a] = table.scanTexts [b, a, a] ∧
      (table.scanTexts [b, a, a]).names = [.outKeyP, .inKeyP, .inKeyS] ∧
      (table.scanTexts [b, a, a]).get? .outKeyP = some "public static final long[] out_key_p = \x7b\n2\n\t\x7d;".toList := by
  intro a b table
  have order : [a, b, a].Perm [b, a, a] := .swap b a [a]
  have apart : ∀ first ∈ [a, b, a], ∀ second ∈ [a, b, a], first ≠ second →
      ∀ key ∈ (report first).found, key ∉ (report second).found := by decide +kernel
  refine ⟨order, apart, (scan_overrides.2 _ _ order apart table).1, by decide +kernel, by decide +kernel⟩

end KeyTable

end HeaderKeys
