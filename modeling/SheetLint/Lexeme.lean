import SheetLint.SyntaxError
import SheetLint.Text.Blank

/-!
# Lexemes

The smallest pieces of a style sheet's text: blanks, comments, strings, words, numbers and single
delimiters. At each place the longest piece is taken, so the pieces tile the text
(`Lexeme.flatten_text_of_split`).
-/

namespace SheetLint

/-- The classes of lexemes. -/
inductive LexemeKind where
  | whitespace
  | comment
  | string
  | hash
  | atWord
  | number
  | word
  | url
  | delimiter
  deriving DecidableEq, Repr

/-- A piece of a text with its class and the place where it begins. -/
structure Lexeme where
  kind : LexemeKind
  text : List Char
  position : Position
  deriving DecidableEq, Repr

namespace Lexeme

/-- The blanks between tokens: ASCII only. -/
def isSpace (c : Char) : Bool :=
  c == ' ' || c == '\t' || c == '\r' || c == '\n' || c == '\x0c'

/-- Every character outside ASCII counts as a letter. -/
def isExtended (c : Char) : Bool :=
  0x80 ≤ c.toNat

/-- A character of a name behind `#` or `@`. -/
def isNameChar (c : Char) : Bool :=
  c.isAlpha || c.isDigit || c == '_' || c == '-' || isExtended c

/-- A character that can begin a word, perhaps behind hyphens. -/
def isWordStart (c : Char) : Bool :=
  c.isAlpha || c == '_' || c == '\\' || isExtended c

/-- A character that can continue a word. -/
def isWordChar (c : Char) : Bool :=
  isWordStart c || c.isDigit || c == '-'

/-- A character that can continue a word which begins with an exclamation mark. -/
def isFlagChar (c : Char) : Bool :=
  c.isAlpha || c.isDigit || c == '_' || c == '-'

/-- The characters that are tokens of their own. -/
def delimiters : List Char :=
  ['\x7b', '\x7d', '(', ')', '[', ']', ';', ':', ',', '.', '>', '+', '~', '*', '/', '=', '<', '|',
   '^', '$', '!', '?', '@', '%', '&', '\x60', '-']

/-- How many characters at the front satisfy a test. -/
def spanLength (test : Char → Bool) (cs : List Char) : Nat :=
  (cs.takeWhile test).length

/-- The length of a block comment behind its opening, with its closing. -/
def blockCommentLength : List Char → Option Nat
  | '*' :: '/' :: _ => some 2
  | _ :: cs => (blockCommentLength cs).map (· + 1)
  | [] => none

/-- The length of a string behind its opening quote, with its closing quote. A backslash takes the
    next character along, and a line feed that stands alone ends the search. -/
def stringLength (quote : Char) : List Char → Option Nat
  | [] => none
  | c :: cs =>
    if c = quote then some 1
    else if c = '\\' then
      match cs with
      | [] => none
      | _ :: cs => (stringLength quote cs).map (· + 2)
    else if c = '\n' then none
    else (stringLength quote cs).map (· + 1)

/-- The length of a unit: a percent sign or letters. -/
def unitLength : List Char → Nat
  | '%' :: _ => 1
  | cs => spanLength Char.isAlpha cs

/-- The length of a point with the digits behind it; zero if no digit follows the point. -/
def fractionLength : List Char → Nat
  | '.' :: cs => if spanLength Char.isDigit cs = 0 then 0 else 1 + spanLength Char.isDigit cs
  | _ => 0

/-- The length of a number behind its first digit: digits, perhaps a fraction, perhaps a unit. -/
def numberLength (cs : List Char) : Nat :=
  let whole := spanLength Char.isDigit cs
  let fraction := fractionLength (cs.drop whole)
  whole + fraction + unitLength (cs.drop (whole + fraction))

/-- The length of a number behind a leading point. -/
def pointNumberLength (cs : List Char) : Nat :=
  let digits := spanLength Char.isDigit cs
  digits + unitLength (cs.drop digits)

/-- The text begins with `url(` in any mix of cases; the first letter is given apart. -/
def opensUrl (c : Char) (cs : List Char) : Bool :=
  (c == 'u' || c == 'U') &&
    match cs with
    | r :: l :: '(' :: _ => (r == 'r' || r == 'R') && (l == 'l' || l == 'L')
    | _ => false

/-- The text begins with a quote, perhaps behind blanks. -/
def opensQuoted (cs : List Char) : Bool :=
  match Text.trimStart cs with
  | c :: _ => c == '"' || c == '\''
  | [] => false

/-- The length of the bare contents behind `url(`: all up to the closing parenthesis or the end of
    the line, or nothing if the contents are quoted. -/
def urlContentsLength (cs : List Char) : Nat :=
  if opensQuoted cs then 0 else spanLength (fun c => c != ')' && c != '\n') cs

/-- The class of the longest lexeme that begins with `c`, and how many of the characters `cs`
    behind it belong to it. A run of two or more hyphens must lead a word. -/
def classify (c : Char) (cs : List Char) : Except SyntaxError.Cause (LexemeKind × Nat) :=
  if isSpace c then .ok (.whitespace, spanLength isSpace cs)
  else if c = '/' then
    match cs with
    | '*' :: cs =>
      match blockCommentLength cs with
      | some n => .ok (.comment, n + 1)
      | none => .error .unterminatedComment
    | '/' :: cs => .ok (.comment, spanLength (· != '\n') cs + 1)
    | _ => .ok (.delimiter, 0)
  else if c = '"' ∨ c = '\'' then
    match stringLength c cs with
    | some n => .ok (.string, n)
    | none => .error .unterminatedString
  else if c = '#' then .ok (.hash, spanLength isNameChar cs)
  else if c = '@' then
    if spanLength isNameChar cs = 0 then .ok (.delimiter, 0)
    else .ok (.atWord, spanLength isNameChar cs)
  else if c.isDigit then .ok (.number, numberLength cs)
  else if c = '.' then
    if spanLength Char.isDigit cs = 0 then .ok (.delimiter, 0)
    else .ok (.number, pointNumberLength cs)
  else if c = '!' then
    if (cs.head?.any Char.isAlpha) then .ok (.word, spanLength isFlagChar cs)
    else .ok (.delimiter, 0)
  else if c = '-' then
    let hyphens := spanLength (· == '-') cs
    if ((cs.drop hyphens).head?.any isWordStart) then .ok (.word, spanLength isWordChar cs)
    else if hyphens = 0 then .ok (.delimiter, 0)
    else .error (.unexpectedCharacter c)
  else if opensUrl c cs then .ok (.url, 3 + urlContentsLength (cs.drop 3))
  else if isWordStart c then .ok (.word, spanLength isWordChar cs)
  else if delimiters.contains c then .ok (.delimiter, 0)
  else .error (.unexpectedCharacter c)

/-- Cuts a text that begins at `p` into its lexemes. -/
def split (p : Position) : List Char → Except SyntaxError (List Lexeme)
  | [] => .ok []
  | c :: cs =>
    match classify c cs with
    | .error cause => .error ⟨cause, p⟩
    | .ok (kind, n) =>
      let text := c :: cs.take n
      match split (p.advance text) (cs.drop n) with
      | .error e => .error e
      | .ok rest => .ok (⟨kind, text, p⟩ :: rest)
termination_by cs => cs.length
decreasing_by simp only [List.length_drop, List.length_cons]; omega

theorem split_nil (p : Position) : split p [] = .ok [] := by
  rw [split]

theorem split_cons_ok {p : Position} {c : Char} {cs : List Char} {kind : LexemeKind} {n : Nat}
    (h : classify c cs = .ok (kind, n)) :
    split p (c :: cs) =
      (split (p.advance (c :: cs.take n)) (cs.drop n)).map (⟨kind, c :: cs.take n, p⟩ :: ·) := by
  rw [split]
  simp only [h]
  cases split (p.advance (c :: cs.take n)) (cs.drop n) <;> rfl

/-- Nothing is lost or added between the lexemes of a text. -/
theorem flatten_text_of_split {p : Position} {cs : List Char} {lexemes : List Lexeme}
    (h : split p cs = .ok lexemes) : (lexemes.map (·.text)).flatten = cs := by
  fun_induction split p cs generalizing lexemes with
  | case1 => cases h; rfl
  | case2 => cases h
  | case3 => cases h
  | case4 p c cs kind n _ text rest hrest =>
    rename_i ih
    cases h
    simp [ih hrest, text]

end Lexeme

end SheetLint
