import SheetLint.Toml.Scalar
import SheetLint.Toml.Table

/-!
# Reading TOML

A document is read line by line. Headers say where the entries behind them belong.
-/

namespace SheetLint.Toml

open Scan

/-- How deep lists and inline tables may be nested. -/
def maxDepth : Nat := 79

/-- A value without parts. -/
def simpleValue : Scan Document :=
  (do let text ← string; return .string text) <|> truth <|> moment <|> number

/-- A list, given the reader of its items. A comma may follow the last item. -/
def list (item : Scan Document) : Scan Document := do
  char '['
  gap
  let items ← optional (do
    let first ← item
    let rest ← many (do gap; char ','; gap; item)
    let _ ← optional (do gap; char ',')
    return first :: rest)
  gap
  char ']'
  return .list (items.getD [])

/-- A key with its value, given the reader of values. -/
def entry (value : Scan Document) : Scan (List String × String × Document) := do
  let (path, last) ← key
  char '='
  blanks
  let document ← value
  return (path, last, document)

/-- A table on one line, given the reader of its values. -/
def inlineTable (value : Scan Document) : Scan Document := do
  char '\x7b'
  let entries ← optional (do
    let first ← entry value
    let rest ← many (do blanks; char ','; entry value)
    return first :: rest)
  blanks
  char '\x7d'
  let add (t : Table) (e : List String × String × Document) : Option Table :=
    t.insert? e.1 e.2.1 e.2.2
  let table ← ((entries.getD []).foldlM add (Table.empty .header) : Option Table)
  return table.toDocument

/-- A value, with lists and tables nested so many levels at most. -/
def value : Nat → Scan Document
  | 0 => simpleValue
  | levels + 1 => simpleValue <|> list (value levels) <|> inlineTable (value levels)

/-- What has been read: the whole document, and where the next entry belongs. -/
structure State where
  root : Table
  path : List String

namespace State

/-- Nothing has been read. -/
def initial : State := ⟨.empty .header, []⟩

/-- Adds an entry to the table of the last header. -/
def addEntry? (s : State) (path : List String) (key : String) (document : Document) :
    Option State := do
  let root ← s.root.modify? .implied (fun _ => true) (·.insert? path key document) s.path
  return { s with root := root }

/-- Begins a table with a header. -/
def beginTable? (s : State) (path : List String) (key : String) : Option State := do
  let root ← s.root.addTable? path key
  return ⟨root, path ++ [key]⟩

/-- Begins the next table of a list. -/
def beginListed? (s : State) (path : List String) (key : String) : Option State := do
  let root ← s.root.addToTables? path key
  return ⟨root, path ++ [key]⟩

end State

/-- The header of a table of a list. -/
def listedHeader : Scan (List String × String) := do
  chars ['[', '[']
  let path ← key
  chars [']', ']']
  return path

/-- The header of a table. -/
def header : Scan (List String × String) := do
  char '['
  let path ← key
  char ']'
  return path

/-- A line with what it changes. -/
def line : Scan (State → Option State) := do
  blanks
  match ← peek? with
  | none => return some
  | some '#' | some '\n' | some '\r' =>
    trailing
    return some
  | some '[' =>
    let change ←
      (do let (path, last) ← listedHeader; return fun s => s.beginListed? path last)
      <|> (do let (path, last) ← header; return fun s => s.beginTable? path last)
    trailing
    return change
  | some _ =>
    let (path, last, document) ← entry (value maxDepth)
    trailing
    return fun s => s.addEntry? path last document

/-- The text without a byte-order mark at its front. -/
def withoutMark : List Char → List Char
  | '\ufeff' :: cs => cs
  | cs => cs

/-- Reads a document from its text. -/
def parse? (text : String) : Option Document := do
  let changes ← (many line).run? (withoutMark text.toList)
  let state ← changes.foldlM (fun s change => change s) State.initial
  return state.root.toDocument

end SheetLint.Toml
