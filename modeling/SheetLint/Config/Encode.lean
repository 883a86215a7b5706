import SheetLint.Config
import SheetLint.Document

/-!
# Writing configurations

A configuration as a document. Settings that are left open are left out.
-/

namespace SheetLint

/-- Settings as a table. -/
def Settings.toDocument (s : Settings) : Document :=
  .table (
    (s.enabled.map fun value => ("enabled", Document.bool value)).toList ++
    (s.severity.map fun severity => ("severity", Document.string severity.name)).toList ++
    (s.style.map fun style => ("style", Document.string style)).toList)

/-- What is said about a rule. -/
def RuleValue.toDocument : RuleValue → Document
  | toggle value => .bool value
  | settings s => s.toDocument

/-- A configuration as a table: the settings of the run first, then the rules in the order of their
    keys. -/
def Config.toDocument (c : Config) : Document :=
  let words (items : List String) : Document := .list (items.map .string)
  .table (
    [("excluded_files", words c.excludedFiles),
     ("file_extensions", words c.fileExtensions),
     ("linters", words c.linters)] ++
    c.rules.entries.map fun (key, value) => (key, value.toDocument))

end SheetLint
