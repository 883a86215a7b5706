import SheetLint.Budget
import SheetLint.Check

/-!
# Verdicts

What a whole run comes to.
-/

namespace SheetLint

/-- The judgement on a run. A fault has a detail in words; one of the configuration may come before
    any file. -/
inductive Verdict where
  | ok
  | warning
  | error
  | noInput
  | softwareFault (file : Path) (detail : String)
  | configFault (file : Option Path) (detail : String)
  deriving DecidableEq, Repr

namespace Verdict

/-- The code with which a program ends. -/
def exitCode : Verdict → Nat
  | ok => 0
  | warning => 1
  | error => 2
  | noInput => 66
  | softwareFault .. => 70
  | configFault .. => 78

/-- The run itself has failed. -/
def isFault : Verdict → Bool
  | softwareFault .. | configFault .. => true
  | _ => false

/-- The verdict in words. -/
def message : Verdict → String
  | ok => "ok"
  | warning => "too many warnings"
  | error => "errors found"
  | noInput => "no input files"
  | softwareFault file detail => "internal error while checking " ++ file.display ++ ": " ++ detail
  | configFault (some file) detail =>
    "configuration error while checking " ++ file.display ++ ": " ++ detail
  | configFault none detail => "configuration error: " ++ detail

/-- The verdict on diagnostics alone: an error decides, and warnings count against the budget. -/
def classify (diagnostics : List Diagnostic) (budget : Budget) : Verdict :=
  if diagnostics.isEmpty then ok
  else if diagnostics.any (·.isError) then error
  else if budget.isExceededBy (diagnostics.countP (·.isWarning)) then warning
  else ok

/-- The verdict on a fault in a file. -/
def ofFault (file : Path) (fault : Fault) : Verdict :=
  if fault.isConfiguration then configFault (some file) fault.message
  else softwareFault file fault.message

/-- The fault of the first file that failed. -/
def firstFault? : List CheckResult → Option (Path × Fault)
  | [] => none
  | r :: rs =>
    match r.outcome with
    | .error fault => some (r.file, fault)
    | .ok _ => firstFault? rs

/-- The verdict on the results of files, and the diagnostics to report. The first file that failed
    decides, and then nothing is reported. -/
def decide (results : List CheckResult) (budget : Budget) : Verdict × List Diagnostic :=
  if results.isEmpty then (noInput, [])
  else
    match firstFault? results with
    | some (file, fault) => (ofFault file fault, [])
    | none =>
      let diagnostics := results.flatMap (·.diagnostics)
      (classify diagnostics budget, diagnostics)

end Verdict

end SheetLint
