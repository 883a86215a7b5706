import SheetLint.Rule

/-!
# Borders

A border that is not there can be written with a zero or with the word `none`. The rule asks for
one of the two.
-/

namespace SheetLint.Rule.Border

/-- The way to write that there is no border. -/
inductive Style where
  | none
  | zero
  deriving DecidableEq, Repr

/-- The words for the styles. -/
def styles : List (String × Style) :=
  [("none", .none), ("zero", .zero)]

/-- The properties that take a border. -/
def properties : List String :=
  ["border", "border-bottom", "border-left", "border-right", "border-top"]

/-- What to say about an absent border that is written as `content`. -/
def complaint? (style : Style) (content : String) : Option String :=
  match style with
  | .none =>
    if content = "0" then some "Border properties should use \"none\" instead of 0." else .none
  | .zero =>
    if content = "none" then some "Border properties should use 0 instead of \"none\"." else .none

/-- The value of a declaration that says there is no border, and how it says so. -/
def absentBorder? (declaration : Node) : Option (Node × String) := do
  let property ← declaration.first? .property
  guard (properties.contains property.content)
  let value ← declaration.first? .value
  let head ← value.children.head?
  guard (head.content = "0" ∨ head.content = "none")
  return (value, head.content)

/-- Judges a declaration. Only an absent border asks for the style. -/
def check (config : RuleConfig) (node : Node) : Except RuleError (List Diagnostic) :=
  match absentBorder? node with
  | none => .ok []
  | some (value, content) => do
    let style ← config.styleIn styles
    return ((complaint? style content).map (config.diagnostic value.position)).toList

/-- The rule `border-zero`. -/
def rule : Rule where
  name := "border-zero"
  description := "Border properties should consistently use 0 or none"
  kinds := [.declaration]
  defaultStyle := some "none"
  check := check

end SheetLint.Rule.Border
