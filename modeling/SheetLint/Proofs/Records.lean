import SheetLint.Report
import SheetLint.Proofs.JsonReading
import SheetLint.Proofs.Registration

/-!
# Records of diagnostics

A report for programs has one line for each diagnostic, and the diagnostic can be read from its line
(`Report.jsonLines_faithful`). So a report tells which diagnostics it was made of.
-/

namespace SheetLint

/-- The natural number that a number without sign, fraction and exponent stands for. -/
def Document.asNat? : Document → Option Nat
  | number literal =>
    if literal.toList.all Char.isDigit then some (Json.digitsValue literal.toList) else none
  | _ => none

@[simp]
theorem Document.asNat?_toString (n : Nat) : asNat? (.number (toString n)) = some n := by
  have digits : (Nat.toDigits 10 n).all Char.isDigit = true := by
    rw [List.all_eq_true]
    intro c member
    exact Nat.isDigit_of_mem_toDigits (by decide) (by decide) member
  rw [asNat?, Nat.toString_eq_ofList_toDigits, String.toList_ofList, if_pos digits,
    Json.digitsValue_toDigits]

@[simp]
theorem RuleName.ofString?_text (name : RuleName) : ofString? name.text = some name :=
  ofString?_eq_some.mpr rfl

namespace Report

/-- Reads a diagnostic from the entries of its record. The file may be absent. -/
def ofEntries? (entries : List (String × Document)) : Option Diagnostic := do
  let file ← (entries.lookup "file").mapM Document.asString?
  let line ← entries.lookup "line" >>= Document.asNat?
  let column ← entries.lookup "column" >>= Document.asNat?
  let rule ← entries.lookup "rule" >>= Document.asString? >>= RuleName.ofString?
  let severity ← entries.lookup "severity" >>= Document.asString? >>= Severity.ofName?
  let message ← entries.lookup "message" >>= Document.asString?
  return { rule, severity, position := ⟨line, column⟩, message, file := file.map Path.ofString }

/-- Reads a diagnostic from its record, in which no key may stand twice. -/
def ofDocument? : Document → Option Diagnostic
  | .table entries => if (entries.map (·.1)).Nodup then ofEntries? entries else none
  | _ => none

/-- Reads a diagnostic from its line. -/
def ofLine? (line : String) : Option Diagnostic :=
  Json.parse? line >>= ofDocument?

/-- The path of the file is a text, if the file is known. -/
def Textual (d : Diagnostic) : Prop :=
  ∀ path, d.file = some path → ∃ text, path.text? = some text

/-- Line and column are numbers that a double can hold, and the path of the file is a text. -/
structure Fits (d : Diagnostic) : Prop where
  line : d.position.line < Json.overflowBound
  column : d.position.column < Json.overflowBound
  textual : Textual d

variable {d : Diagnostic} {ds : List Diagnostic} {document : Document}

/-- A diagnostic has a record exactly if the path of its file is a text. -/
theorem isSome_toDocument?_iff : (toDocument? d).isSome = true ↔ Textual d := by
  rw [toDocument?, Option.isSome_map, fileMember?, Textual]
  cases d.file with
  | none => simp
  | some path => simp [Option.isSome_iff_exists]

/-- A record names no file, or it names one whose path is a text. -/
theorem fileMember?_cases {entries : List (String × Document)}
    (made : fileMember? d = some entries) :
    (d.file = none ∧ entries = []) ∨
      ∃ text, d.file = some (Path.ofString text) ∧ entries = [("file", .string text)] := by
  unfold fileMember? at made
  cases file : d.file with
  | none =>
    rw [file] at made
    cases made
    exact .inl ⟨rfl, rfl⟩
  | some path =>
    rw [file] at made
    obtain ⟨text, isText, rfl⟩ := Option.map_eq_some_iff.mp made
    exact .inr ⟨text, by rw [Path.ofString_of_text? isText], rfl⟩

theorem ofDocument?_toDocument? (made : toDocument? d = some document) :
    ofDocument? document = some d := by
  obtain ⟨entries, known, rfl⟩ := Option.map_eq_some_iff.mp made
  have cases := fileMember?_cases known
  obtain ⟨rule, severity, ⟨line, column⟩, message, file⟩ := d
  -- `toString` is kept, for the lemma about reading a number again
  rcases cases with ⟨rfl, rfl⟩ | ⟨text, rfl, rfl⟩ <;>
    simp [ofDocument?, ofEntries?, List.lookup_cons, Document.asString?, -Nat.toString_eq_repr]

/-- A diagnostic that fits is written to something that can be read. -/
theorem readable_toDocument? (fits : Fits d) (made : toDocument? d = some document) :
    Json.Readable 0 document := by
  obtain ⟨entries, known, rfl⟩ := Option.map_eq_some_iff.mp made
  refine .table (by decide) ?_
  rw [List.forall_mem_append]
  constructor
  · rcases fileMember?_cases known with ⟨-, rfl⟩ | ⟨text, -, rfl⟩
    · simp
    · simpa using .string
  · simp only [List.forall_mem_cons]
    exact ⟨.number (Json.isNumber_toString fits.line), .number (Json.isNumber_toString fits.column),
      .string, .string, .string, by simp⟩

/-- The line of a diagnostic holds no line feed but the one at its end, and the diagnostic can be
    read from it. -/
theorem exists_jsonLine? (fits : Fits d) :
    ∃ line, jsonLine? d = some (line ++ "\n") ∧ '\n' ∉ line.toList ∧ ofLine? line = some d := by
  obtain ⟨document, made⟩ := Option.isSome_iff_exists.mp (isSome_toDocument?_iff.mpr fits.textual)
  have readable := readable_toDocument? fits made
  refine ⟨Json.print document, by rw [jsonLine?, made]; rfl, ?_, ?_⟩
  · rw [Json.print, String.toList_ofList]
    intro member
    have printable := List.all_eq_true.mp readable.printable '\n' member
    cases printable
  · rw [ofLine?, Json.parse?_print readable]
    exact ofDocument?_toDocument? made

theorem jsonLines_cons {line : String} (made : jsonLine? d = some line)
    (ds : List Diagnostic) :
    jsonLines (d :: ds) = ⟨line ++ (jsonLines ds).text, (jsonLines ds).complete⟩ := by
  simp [jsonLines, made, String.join_cons]

/-- Diagnostics that fit are written one to a line, and each line is read as its diagnostic. -/
theorem exists_lines (fits : ∀ d ∈ ds, Fits d) :
    ∃ lines : List String, jsonLines ds = ⟨String.join (lines.map (· ++ "\n")), true⟩ ∧
      (∀ line ∈ lines, '\n' ∉ line.toList) ∧ lines.map ofLine? = ds.map some := by
  induction ds with
  | nil => exact ⟨[], rfl, by simp, rfl⟩
  | cons d ds ih =>
    obtain ⟨here, later⟩ := List.forall_mem_cons.mp fits
    obtain ⟨line, made, whole, read⟩ := exists_jsonLine? here
    obtain ⟨lines, written, wholes, reads⟩ := ih later
    refine ⟨line :: lines, ?_, List.forall_mem_cons.mpr ⟨whole, wholes⟩, ?_⟩
    · rw [jsonLines_cons made, written, List.map_cons, String.join_cons]
    · rw [List.map_cons, List.map_cons, read, reads]

/-- Cut at its line feeds, a text of lines falls into them. Nothing stands behind the last line
    feed. -/
theorem splitOn_join {lines : List String} (whole : ∀ line ∈ lines, '\n' ∉ line.toList) :
    (String.join (lines.map (· ++ "\n"))).toList.splitOn '\n' =
      lines.map String.toList ++ [[]] := by
  induction lines with
  | nil => rfl
  | cons line lines ih =>
    obtain ⟨here, later⟩ := List.forall_mem_cons.mp whole
    have text : (String.join ((line :: lines).map (· ++ "\n"))).toList =
        line.toList ++ '\n' :: (String.join (lines.map (· ++ "\n"))).toList := by
      simp [String.join_cons]
    rw [text, List.splitOn_append_cons_self_of_not_mem here, ih later]
    rfl

/-- Reports that agree are made of the same diagnostics. -/
theorem eq_of_jsonLines_eq {es : List Diagnostic} (fits : ∀ d ∈ ds, Fits d)
    (fitsToo : ∀ e ∈ es, Fits e) (same : (jsonLines es).text = (jsonLines ds).text) : es = ds := by
  obtain ⟨lines, written, whole, read⟩ := exists_lines fits
  obtain ⟨lines', written', whole', read'⟩ := exists_lines fitsToo
  rw [written, written'] at same
  dsimp only at same
  have pieces := splitOn_join whole'
  rw [same, splitOn_join whole, List.append_cancel_right_eq] at pieces
  have lines : lines = lines' :=
    List.map_injective_iff.mpr (fun _ _ => String.toList_inj.mp) pieces
  rw [← lines, read] at read'
  exact List.map_injective_iff.mpr (fun _ _ => Option.some.inj) read'.symm

/-- A report for programs has one line for each diagnostic, in their order, and the diagnostic can
    be read from its line. So no other diagnostics have the same report. -/
theorem jsonLines_faithful (fits : ∀ d ∈ ds, Fits d) :
    (∃ lines : List String, jsonLines ds = ⟨String.join (lines.map (· ++ "\n")), true⟩ ∧
        (∀ line ∈ lines, '\n' ∉ line.toList) ∧ lines.map ofLine? = ds.map some) ∧
      ∀ es : List Diagnostic, (∀ e ∈ es, Fits e) →
        (jsonLines es).text = (jsonLines ds).text → es = ds := by
  refine ⟨exists_lines fits, ?_⟩
  intro es fitsToo same
  exact eq_of_jsonLines_eq fits fitsToo same

/-- Two diagnostics, the first in a file and with characters that have to be escaped. -/
theorem jsonLines_faithful_escaped :
    let d : Diagnostic :=
      { rule := ⟨"no-ids", by decide⟩, severity := .error, position := ⟨3, 12⟩,
        message := "\"a\\\n\x01é\x7f/", file := some (Path.ofString "x\t\r\"\x1f.less") }
    let e : Diagnostic :=
      { rule := ⟨"import", by decide⟩, severity := .warning, position := ⟨4294967295, 0⟩,
        message := "" }
    (∀ x ∈ [d, e], Fits x) ∧
      (jsonLines [d, e]).text =
        "\x7b\"file\":\"x\\t\\r\\\"\\u001f.less\",\"line\":3,\"column\":12,\"rule\":\"no-ids\"," ++
        "\"severity\":\"error\",\"message\":\"\\\"a\\\\\\n\\u0001é\x7f/\"\x7d\n" ++
        "\x7b\"line\":4294967295,\"column\":0,\"rule\":\"import\",\"severity\":\"warning\"," ++
        "\"message\":\"\"\x7d\n" ∧
      (∃ lines : List String, jsonLines [d, e] = ⟨String.join (lines.map (· ++ "\n")), true⟩ ∧
        (∀ line ∈ lines, '\n' ∉ line.toList) ∧ lines.map ofLine? = [some d, some e]) ∧
      ∀ es : List Diagnostic, (∀ x ∈ es, Fits x) →
        (jsonLines es).text = (jsonLines [d, e]).text → es = [d, e] := by
  intro d e
  have fits : ∀ x ∈ [d, e], Fits x := by
    rw [List.forall_mem_cons, List.forall_mem_singleton]
    refine ⟨⟨by decide +kernel, by decide +kernel, ?_⟩, ⟨by decide +kernel, by decide +kernel, ?_⟩⟩
    · rintro _ ⟨rfl⟩
      exact ⟨_, Path.text?_ofString _⟩
    · nofun
  exact ⟨fits, by decide +kernel, jsonLines_faithful fits⟩

end Report

end SheetLint
