import SheetLint.Registry

/-!
# Active rules

The rules of one run, each with its configuration, and an index from kinds of nodes to the rules
that want to see them.
-/

namespace SheetLint

/-- A rule that takes part in a run. -/
structure ActiveRule where
  rule : Rule
  config : RuleConfig

/-- The rules of a run in the order of their registration. The index gives the places of the rules
    that want to see a kind of node. -/
structure ActiveRules where
  rules : Array ActiveRule
  index : NodeKind → List Nat

namespace ActiveRules

/-- No rules. -/
def empty : ActiveRules := ⟨#[], fun _ => []⟩

/-- Notes in the index that the rule at a place wants to see a kind of node. A rule that says so
    twice is noted once. -/
def note (index : NodeKind → List Nat) (place : Nat) (kind : NodeKind) : NodeKind → List Nat :=
  fun k =>
    if k = kind ∧ (index k).getLast? ≠ some place then index k ++ [place] else index k

/-- Adds a rule at the end. -/
def push (active : ActiveRules) (r : ActiveRule) : ActiveRules :=
  { rules := active.rules.push r
    index := r.rule.kinds.foldl (fun index kind => note index active.rules.size kind) active.index }

/-- The rules that want to see a kind of node, in order. -/
def rulesFor (active : ActiveRules) (kind : NodeKind) : List ActiveRule :=
  (active.index kind).filterMap (active.rules[·]?)

/-- The configuration of a rule that takes part. -/
def config? (active : ActiveRules) (name : String) : Option RuleConfig :=
  (active.rules.toList.find? (·.config.rule.text == name)).map (·.config)

/-- The number of rules. -/
def size (active : ActiveRules) : Nat :=
  active.rules.size

/-- There are no rules. -/
def isEmpty (active : ActiveRules) : Bool :=
  active.rules.isEmpty

end ActiveRules

end SheetLint
