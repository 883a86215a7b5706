import SheetLint.ActiveRules
import SheetLint.Config

/-!
# Resolution

Which rules of a registry take part in a run, and how they are set up, as a configuration asks.
What a configuration says in vain is put down in notices.
-/

namespace SheetLint

/-- What a configuration says in vain. -/
inductive Notice where
  | unknownRule (key : String)
  | overruledToggle (rule : RuleName) (enabled : Bool)
  deriving DecidableEq

/-- The notice in words. -/
def Notice.message : Notice → String
  | unknownRule key => "Ignoring configuration for unknown rule '" ++ key ++ "'"
  | overruledToggle rule enabled =>
    "Ignoring '" ++ rule.text ++ " = " ++ (if enabled then "true" else "false") ++
      "' because the rule also has a settings table"

namespace Resolution

/-- The first settings among some entries. -/
def settings? : List RuleValue → Option Settings
  | [] => none
  | .settings s :: _ => some s
  | .toggle _ :: rest => settings? rest

/-- The first truth value among some entries. -/
def toggle? : List RuleValue → Option Bool
  | [] => none
  | .toggle enabled :: _ => some enabled
  | .settings _ :: rest => toggle? rest

/-- How a rule is set up by what is said about it. Settings win over a truth value, which is then
    put down as said in vain; settings left open are the defaults. -/
def ruleConfig (name : RuleName) (defaultStyle : Option String) (entries : List RuleValue) :
    RuleConfig × List Notice :=
  match settings? entries, toggle? entries with
  | some s, toggle =>
    ({ rule := name
       enabled := s.enabled.getD true
       severity := s.severity.getD .error
       style := s.style <|> defaultStyle },
     (toggle.map (.overruledToggle name)).toList)
  | none, some enabled => ({ rule := name, enabled := enabled, style := defaultStyle }, [])
  | none, none => ({ rule := name, style := defaultStyle }, [])

/-- The rules that are meant by the plugins a configuration lists. -/
def requested (registry : Registry) (linters : List String) : Except ConfigError (List RuleName) :=
  linters.mapM fun linter =>
    match registry.meant? linter with
    | some entry => .ok entry.name
    | none => .error (.unknownLinter linter)

/-- The keys that mean no rule of the registry. -/
def unknownKeys (registry : Registry) (c : Config) : List String :=
  c.rules.keys.filter fun key => (registry.meant? key).isNone

/-- Adds a registered rule to a run, unless it is a plugin that is not asked for or is switched
    off. -/
def consider (c : Config) (wanted : List RuleName) (result : ActiveRules × List Notice)
    (entry : RegisteredRule) : ActiveRules × List Notice :=
  let (active, notices) := result
  if entry.plugin && !wanted.contains entry.name then (active, notices)
  else
    let (config, more) := ruleConfig entry.name entry.rule.defaultStyle (c.ruleEntries entry.name)
    (if config.enabled then active.push ⟨entry.rule, config⟩ else active, notices ++ more)

end Resolution

/-- The rules that take part in a run, with notices on what the configuration says in vain. -/
def resolve (registry : Registry) (c : Config) :
    Except ConfigError (ActiveRules × List Notice) := do
  let wanted ← Resolution.requested registry c.linters
  let unknown := (Resolution.unknownKeys registry c).map Notice.unknownRule
  return registry.entries.foldl (Resolution.consider c wanted) (.empty, unknown)

end SheetLint
