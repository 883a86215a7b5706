import SheetLint.Config
import SheetLint.Document
import SheetLint.Json.Read
import SheetLint.Toml.Read

/-!
# Reading configurations

A configuration is a table. Three keys, two of which have a second spelling, are settings of the
run, and every other key is a rule.
-/

namespace SheetLint

/-- A value that may be left open: null stands for nothing. -/
def Document.optional? {α : Type} (decode : Document → Option α) : Document → Option (Option α)
  | null => some none
  | document => (decode document).map some

/-- A truth value. -/
def Document.asBool? : Document → Option Bool
  | bool value => some value
  | _ => none

/-- A severity: its word, or a table with its word for the only key and nothing for the value. -/
def Severity.ofDocument? : Document → Option Severity
  | .string word => ofName? word
  | .table [(word, .null)] => ofName? word
  | _ => none

namespace Settings

/-- The value of a key that may stand in a table at most once. -/
def field? {α : Type} (entries : List (String × Document)) (key : String)
    (decode : Document → Option α) : Option (Option α) :=
  match entries.filter (·.1 == key) with
  | [] => some none
  | [(_, document)] => document.optional? decode
  | _ => none

/-- The settings in a table. Keys that are not settings mean nothing. -/
def ofEntries? (entries : List (String × Document)) : Option Settings := do
  let enabled ← field? entries "enabled" Document.asBool?
  let severity ← field? entries "severity" Severity.ofDocument?
  let style ← field? entries "style" Document.asString?
  return ⟨enabled, severity, style⟩

end Settings

/-- What is said about a rule: a truth value, a table, or a list of all three settings in order. A
    point in time counts as a table without settings. -/
def RuleValue.ofDocument? : Document → Option RuleValue
  | .bool value => some (.toggle value)
  | .table entries => (Settings.ofEntries? entries).map .settings
  | .moment _ => some (.settings {})
  | .list [enabled, severity, style] => do
    let enabled ← enabled.optional? Document.asBool?
    let severity ← severity.optional? Severity.ofDocument?
    let style ← style.optional? Document.asString?
    return .settings ⟨enabled, severity, style⟩
  | _ => none

namespace Config

/-- The spellings of the key for files to leave out. -/
def excludedKeys : List String := ["excluded_files", "excludedFiles"]

/-- The spellings of the key for extensions. -/
def extensionKeys : List String := ["file_extensions", "fileExtensions"]

/-- The key for plugins. -/
def linterKeys : List String := ["linters"]

/-- The keys that are not rules. -/
def reservedKeys : List String := excludedKeys ++ extensionKeys ++ linterKeys

/-- The list of words under a key, which may stand in a table at most once in any spelling. -/
def words? (entries : List (String × Document)) (keys fallback : List String) :
    Option (List String) :=
  match entries.filter (keys.contains ·.1) with
  | [] => some fallback
  | [(_, document)] => document.asStrings?
  | _ => none

/-- Adds an entry for a rule. A later entry with the same key takes the place of an earlier one. -/
def addRule? (t : RuleTable) (entry : String × Document) : Option RuleTable := do
  let value ← RuleValue.ofDocument? entry.2
  return t.insert entry.1 value

/-- The configuration in a document. -/
def ofDocument? : Document → Option Config
  | .table entries => do
    let excluded ← words? entries excludedKeys default.excludedFiles
    let extensions ← words? entries extensionKeys default.fileExtensions
    let linters ← words? entries linterKeys default.linters
    let rules ← (entries.filter (!reservedKeys.contains ·.1)).foldlM addRule? .empty
    return ⟨excluded, extensions, linters, rules⟩
  | _ => none

/-- Accepts a configuration if it is valid. -/
def checked (c : Config) : Except ConfigError Config := do
  c.validate
  return c

/-- Reads a configuration that is written in TOML. -/
def parseToml (text : String) : Except ConfigError Config :=
  match Toml.parse? text >>= ofDocument? with
  | some c => c.checked
  | none => .error .illFormedToml

/-- Reads a configuration that is written in JSON. -/
def parseJson (text : String) : Except ConfigError Config :=
  match Json.parse? text >>= ofDocument? with
  | some c => c.checked
  | none => .error .illFormedJson

/-- A file is written in JSON if its extension or its name says so. -/
def isJsonFile (path : Path) : Bool :=
  path.extension? == some (Utf8.encode "json") ||
    path.fileName? == some (Utf8.encode ".lesshintrc")

/-- Reads a configuration from a file. -/
def load (fs : FileSystem) (path : Path) : Except ConfigError Config :=
  match fs.readText path with
  | .error cause => .error (.unreadable cause)
  | .ok text => if isJsonFile path then parseJson text else parseToml text

end Config

end SheetLint
