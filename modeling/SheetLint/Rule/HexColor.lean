import SheetLint.Rule

/-!
# Hexadecimal colours

A colour whose channels each repeat a digit can be written with three digits or with six. The rule
asks for one of the two.
-/

namespace SheetLint.Rule.HexColor

/-- The form of a colour. -/
inductive Style where
  | long
  | short
  deriving DecidableEq, Repr

/-- The word for a form. -/
def Style.name : Style → String
  | long => "long"
  | short => "short"

/-- The words for the forms. -/
def styles : List (String × Style) :=
  [("long", .long), ("short", .short)]

/-- Three digits are enough: there are six, and each channel repeats its digit. -/
def canShorten : List Char → Bool
  | [r, r', g, g', b, b'] => r == r' && g == g' && b == b'
  | _ => false

/-- The digits are not in the form that is asked for, although they could be. -/
def isWrong (style : Style) (digits : List Char) : Bool :=
  match style with
  | .long => digits.length == 3
  | .short => canShorten digits

/-- Judges a colour. -/
def check (config : RuleConfig) (node : Node) : Except RuleError (List Diagnostic) := do
  let style ← config.styleIn styles
  if isWrong style node.content.toList then
    return [config.diagnostic node.position
      ("#" ++ node.content ++ " should be written in the " ++ style.name ++ "-form format.")]
  else return []

/-- The rule `hex-length`. -/
def rule : Rule where
  name := "hex-length"
  description := "Hex colors should use the configured short or long form"
  kinds := [.color]
  defaultStyle := some "long"
  check := check

end SheetLint.Rule.HexColor
