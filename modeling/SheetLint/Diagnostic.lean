import SheetLint.Path
import SheetLint.Position
import SheetLint.RuleName
import SheetLint.Severity

/-!
# Diagnostics

What a rule has to say about one place of a style sheet.
-/

namespace SheetLint

/-- A finding of one rule. The file is unknown until the findings of a file are put together. -/
structure Diagnostic where
  rule : RuleName
  severity : Severity
  position : Position
  message : String
  file : Option Path := none
  deriving DecidableEq

namespace Diagnostic

/-- The same finding, attributed to a file. -/
def inFile (d : Diagnostic) (file : Path) : Diagnostic :=
  { d with file := some file }

/-- The finding is an error. -/
def isError (d : Diagnostic) : Bool :=
  d.severity == .error

/-- The finding is a warning. -/
def isWarning (d : Diagnostic) : Bool :=
  d.severity == .warning

end Diagnostic

end SheetLint
