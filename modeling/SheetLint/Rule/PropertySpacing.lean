import SheetLint.Rule

/-!
# The space behind a property

Between a property and its colon there is either no space or exactly one.
-/

namespace SheetLint.Rule.PropertySpacing

/-- The space that is asked for. -/
inductive Style where
  | noSpace
  | oneSpace
  deriving DecidableEq, Repr

/-- The words for the styles. -/
def styles : List (String × Style) :=
  [("no_space", .noSpace), ("one_space", .oneSpace)]

/-- The name under which the rule reports and fails. -/
def name : String := "space-after-property-name"

/-- What to say about the node behind a property. -/
def complaint? (style : Style) (next : Node) : Option String :=
  match style with
  | .noSpace =>
    if next.kind = .space then some "Colon after property should not be preceded by any space."
    else none
  | .oneSpace =>
    if next.kind = .space ∧ next.content = " " then none
    else some "Colon after property should be preceded by one space."

/-- Judges a declaration. One without a property, or with nothing behind it, is malformed. -/
def check (config : RuleConfig) (node : Node) : Except RuleError (List Diagnostic) := do
  let style ← config.styleIn styles
  match node.indexOf? .property with
  | none => throw (.malformed name "declaration without property")
  | some index =>
    match node.children[index + 1]? with
    | none => throw (.malformed name "property without colon")
    | some next => return ((complaint? style next).map (config.diagnostic next.position)).toList

/-- The rule `space-after-property-name`. -/
def rule : Rule where
  name := name
  description := "Controls the space between a property name and the following colon"
  kinds := [.declaration]
  defaultStyle := some "no_space"
  check := check

end SheetLint.Rule.PropertySpacing
