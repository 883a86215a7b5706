/-!
# Severities

How grave a finding is.
-/

namespace SheetLint

/-- An error always fails a run; a warning fails it only beyond the warning budget. -/
inductive Severity where
  | error
  | warning
  deriving DecidableEq, Repr

namespace Severity

instance : Inhabited Severity := ⟨error⟩

/-- The word for a severity in configurations and machine-readable reports. -/
def name : Severity → String
  | error => "error"
  | warning => "warning"

/-- Reads the word for a severity, which must be spelled exactly. -/
def ofName? (word : String) : Option Severity :=
  if word = "error" then some error
  else if word = "warning" then some warning
  else none

@[simp]
theorem ofName?_name (s : Severity) : ofName? s.name = some s := by
  cases s <;> decide

/-- The severity as the first word of a line for human readers. -/
def label : Severity → String
  | error => "Error"
  | warning => "Warning"

end Severity

end SheetLint
