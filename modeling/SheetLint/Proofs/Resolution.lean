import SheetLint.Proofs.KindIndex
import SheetLint.Proofs.Registration
import SheetLint.Proofs.Traversal
import SheetLint.Resolution

/-!
# Resolution

What a configuration makes of a registry. A list of plugins with a word for no rule is refused
(`Resolution.requested_eq_error`); else each rule that is asked for is set up by the entry that
decides over it (`Config.ruling?`), and the rules that are then enabled take part in the order of
their registration (`resolve_eq_ok`).
-/

namespace SheetLint

/-- The value is a settings table and not a truth value. -/
def RuleValue.isTable : RuleValue → Bool
  | .settings _ => true
  | .toggle _ => false

namespace Config

/-- The settings table under a key. -/
def tableAt? (c : Config) (key : String) : Option RuleValue :=
  (c.rules.get? key).filter (·.isTable)

/-- The truth value under a key. -/
def truthAt? (c : Config) (key : String) : Option RuleValue :=
  (c.rules.get? key).filter (!·.isTable)

/-- What decides over a rule. A table wins over a truth value, and among two of a form the one
    under the name wins over the one under the camel-case spelling. -/
def ruling? (c : Config) (name : RuleName) : Option RuleValue :=
  c.tableAt? name.text <|> c.tableAt? name.camelCase <|>
    c.truthAt? name.text <|> c.truthAt? name.camelCase

/-- The truth value that is said about a rule beside a settings table. -/
def overruled? (c : Config) (name : RuleName) : Option Bool :=
  match c.rules.get? name.text, c.rules.get? name.camelCase with
  | some (.settings _), some (.toggle enabled) => some enabled
  | some (.toggle enabled), some (.settings _) => some enabled
  | _, _ => none

end Config

/-- How a rule is set up by what decides over it. A table leaves the defaults where it is silent,
    and a truth value leaves all but one of them. -/
def RegisteredRule.setUp (entry : RegisteredRule) : Option RuleValue → RuleConfig
  | none => ⟨entry.name, true, .error, entry.rule.defaultStyle⟩
  | some (.toggle enabled) => ⟨entry.name, enabled, .error, entry.rule.defaultStyle⟩
  | some (.settings s) =>
    ⟨entry.name, s.enabled.getD true, s.severity.getD .error, s.style <|> entry.rule.defaultStyle⟩

/-- How a configuration sets up a rule. -/
def Config.configOf (c : Config) (entry : RegisteredRule) : RuleConfig :=
  entry.setUp (c.ruling? entry.name)

@[simp]
theorem RegisteredRule.rule_setUp (entry : RegisteredRule) (v : Option RuleValue) :
    (entry.setUp v).rule = entry.name := by
  rcases v with - | (_ | _) <;> rfl

@[simp]
theorem Config.rule_configOf (c : Config) (entry : RegisteredRule) :
    (c.configOf entry).rule = entry.name :=
  entry.rule_setUp _

/-- A registered rule is configured by the entries under its two spellings, and an overruled toggle
    is noted. -/
theorem ruleConfig_ruleEntries (c : Config) (entry : RegisteredRule) :
    Resolution.ruleConfig entry.name entry.rule.defaultStyle (c.ruleEntries entry.name) =
      (c.configOf entry,
        ((c.overruled? entry.name).map (Notice.overruledToggle entry.name)).toList) := by
  unfold Config.configOf Config.ruling? Config.overruled? Config.tableAt? Config.truthAt?
    Config.ruleEntries
  by_cases plain : entry.name.camelCase = entry.name.text
  · -- one key, so one value
    rw [if_pos plain, plain]
    rcases c.rules.get? entry.name.text with - | (_ | _) <;> rfl
  · rw [if_neg plain]
    rcases c.rules.get? entry.name.text with - | (_ | _) <;>
      rcases c.rules.get? entry.name.camelCase with - | (_ | _) <;> rfl

namespace Resolution

variable {registry : Registry} {linters : List String} {wanted : List RuleName}

theorem requested_eq_collect (registry : Registry) (linters : List String) :
    requested registry linters = collect (fun word =>
      match registry.meant? word with
      | some entry => .ok [entry.name]
      | none => .error (.unknownLinter word)) linters := by
  rw [requested, mapM_eq_collect]
  congr 1
  funext word
  cases registry.meant? word <;> rfl

/-- The first word that means no rule is refused. -/
theorem requested_eq_error {e : ConfigError} : requested registry linters = .error e ↔
    ∃ before word after, linters = before ++ word :: after ∧
      (∀ w ∈ before, ∃ entry ∈ registry.entries, entry.name.Spells w) ∧
      (∀ entry ∈ registry.entries, ¬ entry.name.Spells word) ∧ e = .unknownLinter word := by
  have known (w : String) :
      (∃ entry ∈ registry.entries, entry.name.Spells w) ↔ registry.meant? w ≠ none := by
    rw [Ne, Registry.meant?_eq_none]
    simp
  simp only [known, ← Registry.meant?_eq_none, requested_eq_collect, collect_eq_error]
  constructor
  · rintro ⟨before, word, after, split, succeed, fails⟩
    refine ⟨before, word, after, split, ?_, ?_⟩
    · intro w hw unknown
      obtain ⟨names, found⟩ := succeed w hw
      rw [unknown] at found
      cases found
    · cases unknown : registry.meant? word with
      | some entry =>
        rw [unknown] at fails
        cases fails
      | none =>
        rw [unknown] at fails
        cases fails
        exact ⟨rfl, rfl⟩
  · rintro ⟨before, word, after, split, succeed, unknown, rfl⟩
    refine ⟨before, word, after, split, ?_, by rw [unknown]⟩
    intro w hw
    obtain ⟨entry, found⟩ := Option.ne_none_iff_exists'.mp (succeed w hw)
    exact ⟨[entry.name], by rw [found]⟩

/-- The names of the rules that are meant. -/
theorem mem_requested {name : RuleName} (h : requested registry linters = .ok wanted) :
    name ∈ wanted ↔ ∃ word ∈ linters, ∃ entry, registry.meant? word = some entry ∧
      entry.name = name := by
  rw [requested_eq_collect] at h
  induction linters generalizing wanted with
  | nil =>
    cases h
    simp
  | cons word linters ih =>
    rw [collect_cons] at h
    obtain ⟨first, here, h⟩ := bind_eq_ok.mp h
    obtain ⟨rest, behind, made⟩ := bind_eq_ok.mp h
    cases made
    cases found : registry.meant? word with
    | none =>
      rw [found] at here
      cases here
    | some entry =>
      rw [found] at here
      cases here
      rw [List.mem_append, ih behind]
      simp [found, eq_comm]

end Resolution

namespace Resolution

/-- Rules that are asked for, set up and without those that are switched off. -/
def enabledOf (c : Config) (asked : List RegisteredRule) : List ActiveRule :=
  (asked.map fun entry => ⟨entry.rule, c.configOf entry⟩).filter (·.config.enabled)

/-- The truth values that are said in vain about rules that are asked for. -/
def overrulings (c : Config) (asked : List RegisteredRule) : List Notice :=
  asked.filterMap fun entry => (c.overruled? entry.name).map (.overruledToggle entry.name)

end Resolution

namespace Registry

/-- The rule is always on, or a plugin that a listed word means. -/
def isAsked (r : Registry) (c : Config) (entry : RegisteredRule) : Bool :=
  !entry.plugin || c.linters.any fun word => (r.meant? word).any (·.name = entry.name)

/-- The rules that take part in a run. -/
def selected (r : Registry) (c : Config) : List ActiveRule :=
  Resolution.enabledOf c (r.entries.filter (r.isAsked c))

/-- What a configuration says in vain: keys for no rule, and truth values beside tables. -/
def saidInVain (r : Registry) (c : Config) : List Notice :=
  (c.rules.keys.filter fun key => (r.meant? key).isNone).map .unknownRule ++
    Resolution.overrulings c (r.entries.filter (r.isAsked c))

end Registry

namespace Resolution

variable {registry : Registry} {c : Config} {wanted : List RuleName}

theorem consider_of_unasked {entry : RegisteredRule} (active : ActiveRules) (notices : List Notice)
    (h : (!entry.plugin || wanted.contains entry.name) = false) :
    consider c wanted (active, notices) entry = (active, notices) := by
  have skipped : (entry.plugin && !wanted.contains entry.name) = true := by
    simpa using h
  rw [consider, if_pos skipped]

theorem consider_of_asked {entry : RegisteredRule} (active : ActiveRules) (notices : List Notice)
    (h : (!entry.plugin || wanted.contains entry.name) = true) :
    consider c wanted (active, notices) entry =
      ((enabledOf c [entry]).foldl ActiveRules.push active, notices ++ overrulings c [entry]) := by
  have taken : (entry.plugin && !wanted.contains entry.name) = false := by
    rw [← Bool.not_eq_true', Bool.not_and, Bool.not_not]
    exact h
  rw [consider, ruleConfig_ruleEntries, taken]
  by_cases enabled : (c.configOf entry).enabled = true
  · cases said : c.overruled? entry.name <;> simp [enabledOf, overrulings, enabled, said]
  · cases said : c.overruled? entry.name <;> simp [enabledOf, overrulings, enabled, said]

/-- Rules are added and notices are put down in the order of registration. -/
theorem foldl_consider (c : Config) (wanted : List RuleName) (entries : List RegisteredRule)
    (active : ActiveRules) (notices : List Notice) :
    entries.foldl (consider c wanted) (active, notices) =
      ((enabledOf c (entries.filter fun entry => !entry.plugin || wanted.contains entry.name)).foldl
          ActiveRules.push active,
        notices ++
          overrulings c (entries.filter fun entry => !entry.plugin || wanted.contains entry.name)) := by
  induction entries generalizing active notices with
  | nil => simp [enabledOf, overrulings]
  | cons entry entries ih =>
    rw [List.foldl_cons, List.filter_cons]
    cases asked : !entry.plugin || wanted.contains entry.name with
    | false =>
      rw [consider_of_unasked active notices asked, ih]
      rfl
    | true =>
      rw [consider_of_asked active notices asked, ih, ← List.foldl_append, List.append_assoc,
        enabledOf, enabledOf, ← List.filter_append, ← List.map_append, overrulings, overrulings,
        ← List.filterMap_append]
      rfl

theorem isAsked_eq (h : requested registry c.linters = .ok wanted) (entry : RegisteredRule) :
    (!entry.plugin || wanted.contains entry.name) = registry.isAsked c entry := by
  have listed : wanted.contains entry.name =
      c.linters.any fun word => (registry.meant? word).any (·.name = entry.name) := by
    rw [Bool.eq_iff_iff]
    simp [mem_requested h, Option.any_eq_true]
  rw [Registry.isAsked, listed]

end Resolution

section Resolve

variable {registry : Registry} {c : Config} {active : ActiveRules} {notices : List Notice}

theorem resolve_eq_error {e : ConfigError} :
    resolve registry c = .error e ↔ Resolution.requested registry c.linters = .error e := by
  rw [resolve]
  cases Resolution.requested registry c.linters with
  | error e' => simp [bind, Except.bind]
  | ok wanted => simp [bind, Except.bind, pure, Except.pure]

/-- A run that is not refused has the selected rules. -/
theorem resolve_eq_ok (h : resolve registry c = .ok (active, notices)) :
    active = .ofList (registry.selected c) ∧ notices = registry.saidInVain c := by
  obtain ⟨wanted, requested, made⟩ := bind_eq_ok.mp h
  dsimp only at made
  rw [Resolution.foldl_consider] at made
  simp only [Resolution.isAsked_eq requested] at made
  cases made
  exact ⟨rfl, rfl⟩

theorem indexed_of_resolve (h : resolve registry c = .ok (active, notices)) : active.Indexed := by
  rw [(resolve_eq_ok h).1]
  exact ActiveRules.indexed_ofList _

end Resolve

end SheetLint
