import SheetLint.FileTree
import SheetLint.Glob
import SheetLint.RuleName
import SheetLint.RuleTable

/-!
# Configurations

What a user asks for: files to leave out, extensions of files to look at, plugins to switch on, and
what to do with single rules.
-/

namespace SheetLint

/-- What can be wrong with a configuration. -/
inductive ConfigError where
  | unreadable (cause : ReadError)
  | illFormedToml
  | illFormedJson
  | invalidGlob (pattern : String) (fault : Glob.Fault)
  | invalidExtension (text : String)
  | invalidRuleName (text : String)
  | unknownLinter (name : String)
  deriving DecidableEq, Repr

namespace ConfigError

/-- The error in words. -/
def message : ConfigError → String
  | unreadable cause => "I/O error: " ++ cause.message
  | illFormedToml => "TOML parse error: not a configuration"
  | illFormedJson => "JSON parse error: not a configuration"
  | invalidGlob pattern fault =>
    "Validation error: Invalid excluded_files glob pattern '" ++ pattern ++ "': " ++
      Glob.faultMessage pattern fault
  | invalidExtension text =>
    "Validation error: Invalid file extension '" ++ text ++
      "'. Extensions start with a dot, e.g. \".less\""
  | invalidRuleName text => "Validation error: Invalid rule name '" ++ text ++ "'"
  | unknownLinter name => "Unknown linter '" ++ name ++ "'"

end ConfigError

/-- A configuration. -/
structure Config where
  excludedFiles : List String
  fileExtensions : List String
  linters : List String
  rules : RuleTable
  deriving DecidableEq

namespace Config

/-- What holds unless a configuration says otherwise. -/
def default : Config := ⟨[], [".less"], [], .empty⟩

/-- An extension begins with a point and is not the point alone. -/
def isExtension (text : String) : Bool :=
  match text.toList with
  | '.' :: _ :: _ => true
  | _ => false

/-- The pattern is a glob. -/
def checkPattern (pattern : String) : Except ConfigError Unit :=
  match Glob.parse pattern with
  | .ok _ => .ok ()
  | .error fault => .error (.invalidGlob pattern fault)

/-- The extension is well formed. -/
def checkExtension (text : String) : Except ConfigError Unit :=
  if isExtension text then .ok () else .error (.invalidExtension text)

/-- The key can be the name of a rule. -/
def checkRuleKey (key : String) : Except ConfigError Unit :=
  if RuleName.isValid key then .ok () else .error (.invalidRuleName key)

/-- The patterns are globs, the extensions are well formed and the keys can be names of rules. The
    first fault in this order counts. -/
def validate (c : Config) : Except ConfigError Unit := do
  c.excludedFiles.forM checkPattern
  c.fileExtensions.forM checkExtension
  c.rules.keys.forM checkRuleKey

/-- Adds patterns of files to leave out and plugins to switch on. -/
def withOverrides (c : Config) (exclude linters : List String) : Except ConfigError Config := do
  let c : Config :=
    { c with excludedFiles := c.excludedFiles ++ exclude, linters := c.linters ++ linters }
  c.validate
  return c

/-- What is said about a rule, under its name first and then under its camel-case name. -/
def ruleEntries (c : Config) (name : RuleName) : List RuleValue :=
  (c.rules.get? name.text).toList ++
    if name.camelCase = name.text then [] else (c.rules.get? name.camelCase).toList

end Config

end SheetLint
