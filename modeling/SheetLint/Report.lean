import SheetLint.Diagnostic
import SheetLint.Json.Write

/-!
# Reports

Diagnostics as lines of text, for people or for programs.
-/

namespace SheetLint.Report

/-- The colour of a severity on a terminal. -/
def colorCode : Severity → String
  | .error => "\x1b[31m"
  | .warning => "\x1b[33m"

/-- The code that ends all emphasis on a terminal. -/
def resetCode : String := "\x1b[0m"

/-- The first word of a line, perhaps bold and coloured. -/
def label (colored : Bool) (severity : Severity) : String :=
  if colored then resetCode ++ "\x1b[1m" ++ colorCode severity ++ severity.label ++ resetCode
  else severity.label

/-- A diagnostic as a line for people. -/
def humanLine (colored : Bool) (d : Diagnostic) : String :=
  label colored d.severity ++ ": " ++ (d.file.map (·.display ++ ": ")).getD "" ++
    "line " ++ toString d.position.line ++ ", col " ++ toString d.position.column ++ ", " ++
    d.rule.text ++ ": " ++ d.message ++ "\n"

/-- The diagnostics for people. -/
def human (colored : Bool) (diagnostics : List Diagnostic) : String :=
  String.join (diagnostics.map (humanLine colored))

/-- The entry for the file of a diagnostic. There is none if the file is not known, and the path of
    a file has to be a text. -/
def fileMember? (d : Diagnostic) : Option (List (String × Document)) :=
  match d.file with
  | none => some []
  | some path => path.text?.map fun text => [("file", .string text)]

/-- A diagnostic as a document. -/
def toDocument? (d : Diagnostic) : Option Document :=
  (fileMember? d).map fun file => .table (file ++
    [("line", .number (toString d.position.line)),
     ("column", .number (toString d.position.column)),
     ("rule", .string d.rule.text),
     ("severity", .string d.severity.name),
     ("message", .string d.message)])

/-- A diagnostic as a line for programs. -/
def jsonLine? (d : Diagnostic) : Option String :=
  (toDocument? d).map (Json.print · ++ "\n")

/-- What has been written of a report, and whether this is all of it. -/
structure Written where
  text : String
  complete : Bool
  deriving DecidableEq, Repr

/-- The diagnostics for programs, one on each line, up to the first that is no line. -/
def jsonLines (diagnostics : List Diagnostic) : Written :=
  let lines := diagnostics.map jsonLine?
  ⟨String.join ((lines.takeWhile Option.isSome).filterMap id), lines.all Option.isSome⟩

/-- What is said about a report that could not be written to its end. -/
def failureMessage : String :=
  "failed to write output: path contains invalid UTF-8 characters"

end SheetLint.Report
