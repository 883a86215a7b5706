import SheetLint.Rule.Border
import SheetLint.Rule.CommaSpacing
import SheetLint.Rule.HexColor
import SheetLint.Rule.PropertySpacing

/-!
# Registries

The rules that a run can choose from, in the order in which they were registered. A rule is either
always on or a plugin that sleeps until it is asked for.
-/

namespace SheetLint

/-- A rule under its name. -/
structure RegisteredRule where
  name : RuleName
  rule : Rule
  plugin : Bool

/-- The registered rules in order. -/
structure Registry where
  entries : List RegisteredRule

namespace Registry

/-- No rules. -/
def empty : Registry := ⟨[]⟩

/-- The rule that is registered under a name. -/
def get? (r : Registry) (name : String) : Option RegisteredRule :=
  r.entries.find? (·.name.text == name)

/-- Adds a rule at the end. Its name must be well formed, it must name a kind of node, and its name
    must be free. -/
def register (r : Registry) (rule : Rule) (plugin : Bool) : Except RuleError Registry :=
  match RuleName.ofString? rule.name with
  | none => .error (.invalidDefinition ("invalid rule name '" ++ rule.name ++ "'"))
  | some name =>
    if rule.kinds.isEmpty then
      .error (.invalidDefinition ("rule '" ++ name.text ++ "' declares no node kinds"))
    else if (r.get? name.text).isSome then .error (.duplicate name.text)
    else .ok ⟨r.entries ++ [⟨name, rule, plugin⟩]⟩

/-- The rule that a word means: the first one whose name or camel-case name it is. -/
def meant? (r : Registry) (word : String) : Option RegisteredRule :=
  r.entries.find? (·.name.isSpelled word)

/-- The rules that come with the linter. -/
def builtin : Registry :=
  ⟨[⟨⟨"border-zero", by decide⟩, Rule.Border.rule, false⟩,
    ⟨⟨"hex-length", by decide⟩, Rule.HexColor.rule, false⟩,
    ⟨⟨"space-after-property-name", by decide⟩, Rule.PropertySpacing.rule, false⟩,
    ⟨⟨"space-around-comma", by decide⟩, Rule.CommaSpacing.rule, false⟩]⟩

end Registry

end SheetLint
