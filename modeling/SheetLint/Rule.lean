import SheetLint.Diagnostic
import SheetLint.Node

/-!
# Rules

A rule looks at single nodes of the kinds it names and reports diagnostics. How it is set up for a
run stands in its configuration, which it is given with every node.
-/

namespace SheetLint

/-- A crash in words. It may have left no message. -/
def crashMessage (message : Option String) : String :=
  "panic: " ++ message.getD "unknown panic"

/-- What can go wrong with a rule: in its setting, in its definition, or while it looks at a
    node. -/
inductive RuleError where
  | invalidSetting (rule value : String)
  | invalidDefinition (message : String)
  | duplicate (name : String)
  | malformed (rule message : String)
  | crash (message : Option String)
  deriving DecidableEq, Repr

namespace RuleError

/-- The error in words. -/
def message : RuleError → String
  | invalidSetting rule value => "Invalid setting value for " ++ rule ++ ": " ++ value
  | invalidDefinition message => "Invalid rule definition: " ++ message
  | duplicate name => "Duplicate rule name: " ++ name
  | malformed rule message => "Rule " ++ rule ++ " failed: " ++ message
  | crash message => crashMessage message

/-- The error lies in the user's configuration and not in a rule. -/
def isConfiguration : RuleError → Bool
  | invalidSetting .. => true
  | _ => false

end RuleError

/-- How a rule is set up for a whole run. -/
structure RuleConfig where
  rule : RuleName
  enabled : Bool := true
  severity : Severity := .error
  style : Option String := none
  deriving DecidableEq

namespace RuleConfig

/-- The style as one of the values that a rule knows. A style that is not set counts as the empty
    word. -/
def styleIn {α : Type} (config : RuleConfig) (known : List (String × α)) : Except RuleError α :=
  let word := config.style.getD ""
  match known.lookup word with
  | some style => .ok style
  | none => .error (.invalidSetting config.rule.text word)

/-- A diagnostic of the rule at a place, with the severity that is set. -/
def diagnostic (config : RuleConfig) (position : Position) (message : String) : Diagnostic :=
  { rule := config.rule, severity := config.severity, position := position, message := message }

end RuleConfig

/-- A rule: its name, which is checked when it is registered, the kinds of nodes it wants to see,
    the style it has unless another is set, and its judgement of one node. -/
structure Rule where
  name : String
  description : String
  kinds : List NodeKind
  defaultStyle : Option String := none
  check : RuleConfig → Node → Except RuleError (List Diagnostic)

end SheetLint
