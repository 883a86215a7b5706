import SheetLint.ActiveRules
import SheetLint.FileTree
import SheetLint.SyntaxError

/-!
# Checking

The rules of a run are shown the nodes of a tree one by one. A file is read, its tree is checked,
and what came of it is put together with the name of the file.
-/

namespace SheetLint

/-- What the active rules say about one node, in order. The first error ends the check. -/
def checkNode (active : ActiveRules) (node : Node) : Except RuleError (List Diagnostic) := do
  let parts ← (active.rulesFor node.kind).mapM fun r => r.rule.check r.config node
  return parts.flatten

/-- What the active rules say about the nodes of a tree, each before its children. The first error
    ends the check. -/
def traverse (active : ActiveRules) (root : Node) : Except RuleError (List Diagnostic) := do
  let parts ← root.preorder.mapM (checkNode active)
  return parts.flatten

/-- Why there is no tree of a file: it cannot be read, its text is not well formed, or the parser
    has crashed on it. -/
inductive SourceError where
  | unreadable (path : Path) (cause : ReadError)
  | illFormed (error : SyntaxError)
  | crash (message : Option String)
  deriving DecidableEq, Repr

/-- The reason in words. -/
def SourceError.message : SourceError → String
  | unreadable path cause => "Failed to read " ++ path.display ++ ": " ++ cause.message
  | illFormed error => error.message
  | crash message => crashMessage message

/-- Why a file could not be checked. -/
inductive Fault where
  | rule (error : RuleError)
  | source (error : SourceError)
  deriving DecidableEq, Repr

namespace Fault

/-- The fault in words. -/
def message : Fault → String
  | rule error => error.message
  | source error => error.message

/-- The fault lies in the user's configuration. -/
def isConfiguration : Fault → Bool
  | rule error => error.isConfiguration
  | source _ => false

end Fault

/-- What came of checking a file: diagnostics, or a fault that made the check fail. -/
structure CheckResult where
  file : Path
  outcome : Except Fault (List Diagnostic)

namespace CheckResult

/-- The check failed. -/
def isFailed (r : CheckResult) : Bool :=
  match r.outcome with
  | .ok _ => false
  | .error _ => true

/-- The diagnostics; there are none if the check failed. -/
def diagnostics (r : CheckResult) : List Diagnostic :=
  match r.outcome with
  | .ok ds => ds
  | .error _ => []

end CheckResult

/-- Checks a tree that was read from a file. -/
def checkTree (active : ActiveRules) (file : Path) (root : Node) : CheckResult :=
  match traverse active root with
  | .ok ds => ⟨file, .ok (ds.map (·.inFile file))⟩
  | .error e => ⟨file, .error (.rule e)⟩

/-- A way to read the tree of a file. -/
structure Parser where
  parseFile : FileSystem → Path → Except SourceError Node

namespace Parser

/-- Reads the text of a file, and then the tree from the text. -/
def ofText (parse : String → Except SyntaxError Node) : Parser where
  parseFile fs path :=
    match fs.readText path with
    | .error cause => .error (.unreadable path cause)
    | .ok text =>
      match parse text with
      | .error e => .error (.illFormed e)
      | .ok root => .ok root

instance : Coe (String → Except SyntaxError Node) Parser := ⟨ofText⟩

end Parser

/-- Reads a file and checks its tree. -/
def checkFile (active : ActiveRules) (parser : Parser) (fs : FileSystem) (path : Path) :
    CheckResult :=
  match parser.parseFile fs path with
  | .ok root => checkTree active path root
  | .error e => ⟨path, .error (.source e)⟩

end SheetLint
