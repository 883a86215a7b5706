import SheetLint.Json.Text
import SheetLint.Toml.Scan

/-!
# Blanks, strings and keys of TOML
-/

namespace SheetLint.Toml

open Scan

/-- A blank inside a line. -/
def isBlank (c : Char) : Bool :=
  c == ' ' || c == '\t'

/-- A character that may be written as it is: a tab or a printable one. -/
def isPlain (c : Char) : Bool :=
  c == '\t' || (0x20 ≤ c.toNat && c.toNat != 0x7F)

/-- Blanks inside a line, perhaps none. -/
def blanks : Scan Unit := do
  let _ ← takeWhile isBlank

/-- The end of a line: a line feed, perhaps behind a carriage return. -/
def lineEnd : Scan Unit :=
  char '\n' <|> chars ['\r', '\n']

/-- A comment up to the end of its line. -/
def comment : Scan Unit := do
  char '#'
  let _ ← takeWhile isPlain

/-- What may follow an entry on its line. -/
def trailing : Scan Unit := do
  blanks
  let _ ← optional comment
  match ← peek? with
  | none => return
  | some _ => lineEnd

/-- Blanks, line ends and comments between the items of a list. -/
def gap : Scan Unit := do
  let _ ← many ((do let _ ← takeWhile1 isBlank) <|> lineEnd <|> (do comment; lineEnd))

/-- The character with this code, if there is one. -/
def scalar (code : Nat) : Scan Char :=
  if (code < 0xD800 ∨ 0xDFFF < code) ∧ code < 0x110000 then pure (Char.ofNat code) else refuse

/-- A character given by that many hexadecimal digits. -/
def hexScalar (digits : Nat) : Scan Char := do
  let cs ← exactly (fun c => (Json.hexDigit? c).isSome) digits
  scalar (cs.foldl (fun n c => 16 * n + (Json.hexDigit? c).getD 0) 0)

/-- The character that an escape behind a backslash stands for. -/
def escapeCode : Scan Char := do
  match ← satisfy (fun _ => true) with
  | 'b' => return '\x08'
  | 't' => return '\t'
  | 'n' => return '\n'
  | 'f' => return '\x0c'
  | 'r' => return '\r'
  | '"' => return '"'
  | '\\' => return '\\'
  | 'u' => hexScalar 4
  | 'U' => hexScalar 8
  | _ => refuse

/-- An escaped character. -/
def escaped : Scan Char := do
  char '\\'
  escapeCode

/-- A string between quotes on one line. -/
def basicString : Scan String := do
  char '"'
  let cs ← many (satisfy (fun c => isPlain c && c != '"' && c != '\\') <|> escaped)
  char '"'
  return String.ofList cs

/-- A string between apostrophes on one line, in which nothing is escaped. -/
def literalString : Scan String := do
  char '\''
  let cs ← takeWhile (fun c => isPlain c && c != '\'')
  char '\''
  return String.ofList cs

/-- A backslash at the end of a line, which swallows all blanks and line ends behind it. -/
def continuation : Scan (List Char) := do
  char '\\'
  blanks
  lineEnd
  let _ ← many ((do let _ ← takeWhile1 isBlank) <|> lineEnd)
  return []

/-- A line end inside a string over several lines is a line feed. -/
def innerLineEnd : Scan (List Char) := do
  lineEnd
  return ['\n']

/-- One or two delimiters that do not end a string over several lines. -/
def innerDelimiters (delimiter : Char) : Scan (List Char) :=
  fun cs =>
    match cs.takeWhile (· == delimiter) with
    | [_] => some ([delimiter], cs.drop 1)
    | [_, _] => some ([delimiter, delimiter], cs.drop 2)
    | _ => none

/-- The end of a string over several lines: three delimiters, in front of which one or two more
    belong to the string. -/
def multilineEnd (delimiter : Char) : Scan (List Char) :=
  fun cs =>
    match (cs.takeWhile (· == delimiter)).length with
    | 3 => some ([], cs.drop 3)
    | 4 => some ([delimiter], cs.drop 4)
    | 5 => some ([delimiter, delimiter], cs.drop 5)
    | _ => none

/-- A string over several lines, given its delimiter and what may stand in it besides. A line end
    right behind the opening is dropped. -/
def multilineString (delimiter : Char) (piece : Scan (List Char)) : Scan String := do
  chars [delimiter, delimiter, delimiter]
  let _ ← optional lineEnd
  let pieces ← many (piece <|> innerLineEnd <|> innerDelimiters delimiter)
  let last ← multilineEnd delimiter
  return String.ofList (pieces.flatten ++ last)

/-- A string over several lines with escapes. -/
def multilineBasicString : Scan String :=
  multilineString '"' (
    (do let c ← satisfy (fun c => isPlain c && c != '"' && c != '\\'); return [c])
    <|> continuation <|> (do let c ← escaped; return [c]))

/-- A string over several lines in which nothing is escaped. -/
def multilineLiteralString : Scan String :=
  multilineString '\'' (do let c ← satisfy (fun c => isPlain c && c != '\''); return [c])

/-- A string in any of the four notations. -/
def string : Scan String :=
  multilineBasicString <|> multilineLiteralString <|> basicString <|> literalString

/-- A character of a key without quotes. -/
def isKeyChar (c : Char) : Bool :=
  c.isAlpha || c.isDigit || c == '_' || c == '-'

/-- One part of a key. -/
def keyPart : Scan String :=
  basicString <|> literalString <|> (do let cs ← takeWhile1 isKeyChar; return String.ofList cs)

/-- How many parts a key may have. -/
def maxKeyParts : Nat := 80

/-- A key: parts with points between them, and blanks around each part. The last part is given
    apart. -/
def key : Scan (List String × String) := do
  let part : Scan String := do
    blanks
    let part ← keyPart
    blanks
    return part
  let first ← part
  let rest ← many (do char '.'; part)
  let parts := first :: rest
  if maxKeyParts < parts.length then refuse
  else return (parts.dropLast, parts.getLastD first)

end SheetLint.Toml
