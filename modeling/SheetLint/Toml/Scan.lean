/-!
# Scanners

Small readers of a text: each takes a stretch from the front or refuses, and a refusal leaves the
text as it was for the next alternative.
-/

namespace SheetLint.Toml

/-- A reader that takes something from the front of a text. -/
abbrev Scan (α : Type) := StateT (List Char) Option α

namespace Scan

/-- Takes nothing and refuses. -/
def refuse {α : Type} : Scan α :=
  fun _ => none

/-- The character at the front, which stays there. -/
def peek? : Scan (Option Char) :=
  fun cs => some (cs.head?, cs)

/-- Takes one character that satisfies a test. -/
def satisfy (test : Char → Bool) : Scan Char
  | c :: cs => if test c then some (c, cs) else none
  | [] => none

/-- Takes this character. -/
def char (c : Char) : Scan Unit := do
  let _ ← satisfy (· == c)

/-- Takes these characters. -/
def chars : List Char → Scan Unit
  | [] => pure ()
  | c :: cs => do
    char c
    chars cs

/-- Takes all characters at the front that satisfy a test. -/
def takeWhile (test : Char → Bool) : Scan (List Char) :=
  fun cs => some (cs.takeWhile test, cs.dropWhile test)

/-- Takes at least one character that satisfies a test. -/
def takeWhile1 (test : Char → Bool) : Scan (List Char) := do
  let c ← satisfy test
  let cs ← takeWhile test
  return c :: cs

/-- Takes exactly that many characters, each of which satisfies a test. -/
def exactly (test : Char → Bool) : Nat → Scan (List Char)
  | 0 => pure []
  | n + 1 => do
    let c ← satisfy test
    let cs ← exactly test n
    return c :: cs

/-- Repeats a reader until it refuses. A turn that takes nothing is the last. -/
def collect {α : Type} (scan : Scan α) (cs : List Char) : List α × List Char :=
  match scan cs with
  | none => ([], cs)
  | some (a, rest) =>
    if rest.length < cs.length then
      let (as, rest) := collect scan rest
      (a :: as, rest)
    else ([a], rest)
termination_by cs.length

/-- What a reader takes, as often as it takes something. -/
def many {α : Type} (scan : Scan α) : Scan (List α) :=
  fun cs => some (collect scan cs)

/-- The whole text must be taken. -/
def run? {α : Type} (scan : Scan α) (text : List Char) : Option α :=
  match scan text with
  | some (a, []) => some a
  | _ => none

end Scan

end SheetLint.Toml
