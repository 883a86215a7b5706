import SheetLint.Document
import SheetLint.Json.Number
import SheetLint.Json.Text

/-!
# Reading JSON

A text is cut into tokens, and the tokens are read one by one into a document. What has been opened
and not yet closed is kept on a stack, and the state says what may come next.
-/

namespace SheetLint.Json

/-- The tokens of JSON: punctuation, strings, and the other values without parts. -/
inductive Token where
  | mark (c : Char)
  | string (text : String)
  | atom (value : Document)

/-- The punctuation marks. -/
def marks : List Char := ['\x7b', '\x7d', '[', ']', ',', ':']

/-- The blanks between tokens. -/
def isBlank (c : Char) : Bool :=
  c == ' ' || c == '\t' || c == '\n' || c == '\r'

/-- The words that are values. -/
def words : List (String × Document) :=
  [("null", .null), ("true", .bool true), ("false", .bool false)]

/-- The token that begins with `c`, and how many of the characters behind `c` it takes. -/
def classify? (c : Char) (cs : List Char) : Option (Token × Nat) :=
  if marks.contains c then some (.mark c, 0)
  else if c = '"' then
    (unquote? cs).map fun (text, rest) => (.string (String.ofList text), cs.length - rest.length)
  else if c.isDigit || c == '-' then
    (numberLength? (c :: cs)).map fun n =>
      (.atom (.number (String.ofList ((c :: cs).take n))), n - 1)
  else
    (words.find? fun (word, _) => word.toList.isPrefixOf (c :: cs)).map fun (word, value) =>
      (.atom value, word.length - 1)

/-- Cuts a text into tokens. -/
def tokens? : List Char → Option (List Token)
  | [] => some []
  | c :: cs =>
    if isBlank c then tokens? cs
    else
      match classify? c cs with
      | none => none
      | some (token, n) => (tokens? (cs.drop n)).map (token :: ·)
termination_by cs => cs.length
decreasing_by all_goals simp only [List.length_drop, List.length_cons]; omega

/-- How deep lists and tables may be nested. -/
def maxDepth : Nat := 127

/-- A list or a table that has been opened: what it holds so far, the last first, and the key of the
    entry that is being read. -/
inductive Frame where
  | list (items : List Document)
  | table (entries : List (String × Document)) (key : String)

/-- What may come next, inside of the frames on the stack. -/
inductive State where
  | value (stack : List Frame)
  | firstItem (stack : List Frame)
  | afterItem (items : List Document) (stack : List Frame)
  | firstKey (stack : List Frame)
  | key (entries : List (String × Document)) (stack : List Frame)
  | colon (entries : List (String × Document)) (key : String) (stack : List Frame)
  | afterEntry (entries : List (String × Document)) (stack : List Frame)
  | finished (document : Document)

namespace State

/-- Puts a complete value where it belongs. -/
def place (document : Document) : List Frame → State
  | [] => finished document
  | .list items :: stack => afterItem (document :: items) stack
  | .table entries word :: stack => afterEntry ((word, document) :: entries) stack

/-- Begins a value. -/
def start? (stack : List Frame) : Token → Option State
  | .atom document => some (place document stack)
  | .string text => some (place (.string text) stack)
  | .mark '[' => if stack.length < maxDepth then some (firstItem stack) else none
  | .mark '\x7b' => if stack.length < maxDepth then some (firstKey stack) else none
  | .mark _ => none

/-- Reads one token. -/
def step? : State → Token → Option State
  | value stack, token => start? stack token
  | firstItem stack, .mark ']' => some (place (.list []) stack)
  | firstItem stack, token => start? (.list [] :: stack) token
  | afterItem items stack, .mark ',' => some (value (.list items :: stack))
  | afterItem items stack, .mark ']' => some (place (.list items.reverse) stack)
  | firstKey stack, .mark '\x7d' => some (place (.table []) stack)
  | firstKey stack, .string text => some (colon [] text stack)
  | key entries stack, .string text => some (colon entries text stack)
  | colon entries text stack, .mark ':' => some (value (.table entries text :: stack))
  | afterEntry entries stack, .mark ',' => some (key entries stack)
  | afterEntry entries stack, .mark '\x7d' => some (place (.table entries.reverse) stack)
  | _, _ => none

/-- The document, if it is complete. -/
def document? : State → Option Document
  | finished document => some document
  | _ => none

end State

/-- Reads a document from its text. -/
def parse? (text : String) : Option Document := do
  let tokens ← tokens? text.toList
  let state ← tokens.foldlM State.step? (.value [])
  state.document?

end SheetLint.Json
