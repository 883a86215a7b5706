import SheetLint.Document
import SheetLint.Json.Text

/-!
# Writing JSON

Documents without blanks between their tokens.
-/

namespace SheetLint.Json

mutual

/-- The characters of a document. -/
def write : Document → List Char
  | .null => ['n', 'u', 'l', 'l']
  | .bool true => ['t', 'r', 'u', 'e']
  | .bool false => ['f', 'a', 'l', 's', 'e']
  | .number literal => literal.toList
  | .string text => quote text
  | .moment literal => quote literal
  | .list items => '[' :: writeItems items ++ [']']
  | .table entries => '\x7b' :: writeEntries entries ++ ['\x7d']

/-- The items of a list with commas between them. -/
def writeItems : List Document → List Char
  | [] => []
  | [item] => write item
  | item :: items => write item ++ ',' :: writeItems items

/-- The entries of a table with commas between them. -/
def writeEntries : List (String × Document) → List Char
  | [] => []
  | [entry] => writeEntry entry
  | entry :: entries => writeEntry entry ++ ',' :: writeEntries entries

/-- A key with its value. -/
def writeEntry : String × Document → List Char
  | (key, value) => quote key ++ ':' :: write value

end

/-- The text of a document. -/
def print (document : Document) : String :=
  String.ofList (write document)

end SheetLint.Json
