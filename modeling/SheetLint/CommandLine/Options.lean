import SheetLint.Budget
import SheetLint.Path

/-!
# Options

What a user can ask for on the command line.
-/

namespace SheetLint.CommandLine

/-- How diagnostics are written. -/
inductive Format where
  | human
  | jsonl
  deriving DecidableEq, Repr

/-- The words for the formats. -/
def Format.words : List (String × Format) :=
  [("default", human), ("human", human), ("jsonl", jsonl)]

/-- Whether diagnostics are coloured. -/
inductive ColorChoice where
  | auto
  | always
  | never
  deriving DecidableEq, Repr

/-- The words for the choices. -/
def ColorChoice.words : List (String × ColorChoice) :=
  [("auto", auto), ("always", always), ("never", never)]

/-- All that was asked for. -/
structure Options where
  paths : List Path := []
  config : Option Path := none
  exclude : List String := []
  linters : List String := []
  format : Format := .human
  budget : Budget := .default
  color : ColorChoice := .auto
  verbose : Bool := false

/-- Why arguments are not understood, or what is shown in place of a run. -/
inductive Usage where
  | unknownArgument
  | invalidValue
  | rejectedValue
  | repeatedArgument
  | needlessValue
  | help
  | version
  deriving DecidableEq, Repr

/-- The code with which a program ends. -/
def Usage.exitCode : Usage → Nat
  | help | version => 0
  | _ => 2

/-- The switches. -/
inductive Switch where
  | config
  | exclude
  | linter
  | reporter
  | maxWarnings
  | color
  | verbose
  | help
  | version
  deriving DecidableEq, Repr

namespace Switch

/-- The switches by their words. -/
def words : List (String × Switch) :=
  [("config", config), ("exclude", exclude), ("linter", linter), ("reporter", reporter),
   ("max-warnings", maxWarnings), ("color", color), ("verbose", verbose), ("help", help),
   ("version", version)]

/-- The switches by their letters. -/
def letters : List (Char × Switch) :=
  [('c', config), ('e', exclude), ('l', linter), ('r', reporter), ('v', verbose), ('h', help),
   ('V', version)]

/-- The switch stands in front of a value. -/
def takesValue : Switch → Bool
  | verbose | help | version => false
  | _ => true

/-- The switch may be given more than once. -/
def repeats : Switch → Bool
  | exclude | linter => true
  | _ => false

end Switch

end SheetLint.CommandLine
