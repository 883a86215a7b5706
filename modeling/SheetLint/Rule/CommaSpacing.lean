import SheetLint.Rule

/-!
# The space around commas

Commas between values and arguments have one space behind them, in front of them, on both sides or
on none. Line breaks do not count as space.
-/

namespace SheetLint.Rule.CommaSpacing

/-- Where the space is asked for. -/
inductive Style where
  | after
  | before
  | both
  | none
  deriving DecidableEq, Repr

/-- The words for the styles. -/
def styles : List (String × Style) :=
  [("after", .after), ("before", .before), ("both", .both), ("none", .none)]

/-- The blanks beside a comma without line breaks, if the neighbour is a space at all. -/
def spacing? (neighbour : Option Node) : Option (List Char) :=
  (neighbour.filter (·.kind == .space)).map fun n =>
    n.content.toList.filter fun c => c != '\n' && c != '\r'

/-- There is exactly one space. -/
def isOneSpace (spacing : Option (List Char)) : Bool :=
  spacing == some [' ']

/-- There are blanks. -/
def hasSpace (spacing : Option (List Char)) : Bool :=
  spacing.any (!·.isEmpty)

/-- What to say about a comma with these blanks in front of it and behind it. -/
def complaint? (style : Style) (before after : Option (List Char)) : Option String :=
  match style with
  | .after =>
    if isOneSpace after then .none else some "Commas should be followed by one space."
  | .before =>
    if isOneSpace before then .none else some "Commas should be preceded by one space."
  | .both =>
    if isOneSpace before && isOneSpace after then .none
    else some "Commas should be preceded and followed by one space."
  | .none =>
    if hasSpace before || hasSpace after then
      some "Commas should not be preceded nor followed by any space."
    else .none

/-- The node is a comma. -/
def isComma (n : Node) : Bool :=
  n.kind == .operator && n.content == ","

/-- The diagnostics on the commas among some siblings, the first of which stands behind
    `previous`. -/
def report (config : RuleConfig) (style : Style) : Option Node → List Node → List Diagnostic
  | _, [] => []
  | previous, n :: ns =>
    let here :=
      if isComma n then complaint? style (spacing? previous) (spacing? ns.head?) else .none
    (here.map (config.diagnostic n.position)).toList ++ report config style (some n) ns

/-- Judges the direct children of a list of values. -/
def check (config : RuleConfig) (node : Node) : Except RuleError (List Diagnostic) := do
  let style ← config.styleIn styles
  return report config style .none node.children

/-- The rule `space-around-comma`. -/
def rule : Rule where
  name := "space-around-comma"
  description := "Controls the space before and after commas"
  kinds := [.value, .arguments, .parentheses]
  defaultStyle := some "after"
  check := check

end SheetLint.Rule.CommaSpacing
