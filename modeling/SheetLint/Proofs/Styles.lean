import SheetLint.Proofs.Selection
import SheetLint.Proofs.Shape

/-!
# Unknown styles

The rules that come with the linter fail over nothing but their styles when they look at the tree
of a style sheet. A style is not judged before a node makes its rule look at it (`Node.Triggers`);
the first node that does so, with the first rule that does not know its style there, decides over
the check of the tree.
-/

namespace SheetLint

/-- The words that a rule knows as styles. -/
def knownStyles (rule : String) : List String :=
  match rule with
  | "border-zero" => ["none", "zero"]
  | "hex-length" => ["long", "short"]
  | "space-after-property-name" => ["no_space", "one_space"]
  | "space-around-comma" => ["after", "before", "both", "none"]
  | _ => []

/-- A declaration of a border whose value begins with a zero or with the word `none`. -/
def Node.NamesNoBorder (n : Node) : Prop :=
  ∃ property value head, n.first? .property = some property ∧
    property.content ∈
      ["border", "border-top", "border-right", "border-bottom", "border-left"] ∧
    n.first? .value = some value ∧ value.children.head? = some head ∧
    (head.content = "0" ∨ head.content = "none")

/-- The node makes the rule look at its style. -/
def Node.Triggers (n : Node) (rule : String) : Prop :=
  match rule with
  | "border-zero" => n.kind = .declaration ∧ n.NamesNoBorder
  | "hex-length" => n.kind = .color
  | "space-after-property-name" => n.kind = .declaration
  | "space-around-comma" => n.kind = .value ∨ n.kind = .arguments ∨ n.kind = .parentheses
  | _ => False

namespace RuleConfig

variable {α β : Type} {config : RuleConfig} {e : RuleError}

/-- The style is none of the words, and the error says so. -/
def Rejects (config : RuleConfig) (words : List String) (e : RuleError) : Prop :=
  config.style.getD "" ∉ words ∧
    e = .invalidSetting config.rule.text (config.style.getD "")

/-- A word without a value is not listed. -/
theorem lookup_eq_none {known : List (String × α)} {word : String} :
    known.lookup word = none ↔ word ∉ known.map (·.1) := by
  rw [List.lookup_eq_none_iff, List.mem_map]
  constructor
  · rintro absent ⟨p, member, rfl⟩
    exact absurd (absent p member) (by simp)
  · intro absent p member
    rw [bne_iff_ne]
    intro same
    exact absent ⟨p, member, same.symm⟩

theorem styleIn_eq_error {known : List (String × α)} :
    config.styleIn known = .error e ↔ config.Rejects (known.map (·.1)) e := by
  rw [Rejects, ← lookup_eq_none]
  cases found : known.lookup (config.style.getD "") with
  | some style => simp [styleIn, found]
  | none =>
    simp only [styleIn, found, true_and, Except.error.injEq]
    exact eq_comm

/-- What a rule does with a style that it knows does not fail. -/
theorem styleIn_bind_eq_error {known : List (String × α)} {f : α → Except RuleError β}
    (succeeds : ∀ style, ∃ b, f style = .ok b) :
    (config.styleIn known >>= f) = .error e ↔ config.Rejects (known.map (·.1)) e := by
  rw [← styleIn_eq_error]
  cases config.styleIn known with
  | error e' => simp [bind, Except.bind]
  | ok style =>
    obtain ⟨b, made⟩ := succeeds style
    simp [bind, Except.bind, made]

end RuleConfig

namespace Rule

variable {config : RuleConfig} {n : Node} {e : RuleError}

theorem Border.mem_properties {word : String} : word ∈ Border.properties ↔
    word ∈ ["border", "border-top", "border-right", "border-bottom", "border-left"] := by
  simp only [Border.properties, List.mem_cons, List.not_mem_nil, or_false]
  tauto

/-- The rule on borders looks at declarations that name no border. -/
theorem Border.isSome_absentBorder? :
    (Border.absentBorder? n).isSome = true ↔ n.NamesNoBorder := by
  simp only [Node.NamesNoBorder, ← Border.mem_properties]
  constructor
  · intro found
    obtain ⟨absent, made⟩ := Option.isSome_iff_exists.mp found
    simp only [Border.absentBorder?, List.contains_eq_mem, decide_eq_true_eq, Option.pure_def,
      Option.bind_eq_bind, Option.bind_eq_some_iff, Option.guard_eq_some', exists_const] at made
    obtain ⟨property, first, known, value, second, head, third, zero, -⟩ := made
    exact ⟨property, value, head, first, known, second, third, zero⟩
  · rintro ⟨property, value, head, first, known, second, third, zero⟩
    simp [Border.absentBorder?, first, known, second, third, zero]

/-- The rule on borders fails at a declaration that names no border, if it does not know the style.
    -/
theorem Border.check_eq_error : Border.check config n = .error e ↔
    n.NamesNoBorder ∧ config.Rejects ["none", "zero"] e := by
  rw [Border.check]
  cases absent : Border.absentBorder? n with
  | none =>
    have bordered : ¬ n.NamesNoBorder := by
      rw [← Border.isSome_absentBorder?, absent]
      simp
    simp [bordered]
  | some found =>
    have borderless : n.NamesNoBorder := by
      rw [← Border.isSome_absentBorder?, absent]
      rfl
    simp only [borderless, true_and]
    exact RuleConfig.styleIn_bind_eq_error fun _ => ⟨_, rfl⟩

theorem HexColor.check_eq_error : HexColor.check config n = .error e ↔
    config.Rejects ["long", "short"] e := by
  refine RuleConfig.styleIn_bind_eq_error fun style => ?_
  by_cases wrong : HexColor.isWrong style n.content.toList = true
  · rw [if_pos wrong]
    exact ⟨_, rfl⟩
  · rw [if_neg wrong]
    exact ⟨_, rfl⟩

theorem CommaSpacing.check_eq_error : CommaSpacing.check config n = .error e ↔
    config.Rejects ["after", "before", "both", "none"] e :=
  RuleConfig.styleIn_bind_eq_error fun _ => ⟨_, rfl⟩

/-- A shaped declaration begins with its property, and something stands behind it. -/
theorem children_declaration (shaped : n.Shaped) (kind : n.kind = .declaration) :
    ∃ property next rest, n.children = property :: next :: rest ∧ property.kind = .property := by
  simp only [Node.Shaped, kind, Node.kinds, List.mem_cons, List.not_mem_nil, or_false] at shaped
  rcases hc : n.children with - | ⟨property, - | ⟨next, rest⟩⟩
  · simp [hc] at shaped
  · simp [hc] at shaped
  · refine ⟨property, next, rest, rfl, ?_⟩
    simp only [hc, List.map_cons, List.cons.injEq] at shaped
    grind

theorem indexOf?_eq_zero {first : Node} {rest : List Node} (children : n.children = first :: rest) :
    n.indexOf? first.kind = some 0 := by
  rw [Node.indexOf?, children, List.findIdx?_cons]
  simp

theorem PropertySpacing.check_eq_error (shaped : n.Shaped) (kind : n.kind = .declaration) :
    PropertySpacing.check config n = .error e ↔ config.Rejects ["no_space", "one_space"] e := by
  obtain ⟨property, next, rest, children, first⟩ := children_declaration shaped kind
  have index : n.indexOf? .property = some 0 := first ▸ indexOf?_eq_zero children
  refine RuleConfig.styleIn_bind_eq_error fun style => ?_
  simp only [index, children]
  exact ⟨_, rfl⟩

end Rule

/-- A rule of the linter fails over its style only, and only at a node that triggers it. -/
theorem Registry.check_builtin_eq_error {entry : RegisteredRule} {config : RuleConfig} {n : Node}
    {e : RuleError} (member : entry ∈ builtin.entries) (shaped : n.Shaped)
    (wanted : n.kind ∈ entry.rule.kinds) :
    entry.rule.check config n = .error e ↔
      n.Triggers entry.name.text ∧ config.Rejects (knownStyles entry.name.text) e := by
  simp only [builtin, List.mem_cons, List.not_mem_nil, or_false] at member
  rcases member with rfl | rfl | rfl | rfl
  · have kind : n.kind = .declaration := List.mem_singleton.mp wanted
    exact Rule.Border.check_eq_error.trans (by simp [Node.Triggers, knownStyles, kind])
  · have kind : n.kind = .color := List.mem_singleton.mp wanted
    exact Rule.HexColor.check_eq_error.trans (by simp [Node.Triggers, knownStyles, kind])
  · have kind : n.kind = .declaration := List.mem_singleton.mp wanted
    exact (Rule.PropertySpacing.check_eq_error shaped kind).trans
      (by simp [Node.Triggers, knownStyles, kind])
  · have kind : n.kind = .value ∨ n.kind = .arguments ∨ n.kind = .parentheses := by
      simpa [Rule.CommaSpacing.rule] using wanted
    exact Rule.CommaSpacing.check_eq_error.trans (by simp [Node.Triggers, knownStyles, kind])

theorem Node.Triggers.kind_mem {entry : RegisteredRule} {n : Node}
    (member : entry ∈ Registry.builtin.entries) (h : n.Triggers entry.name.text) :
    n.kind ∈ entry.rule.kinds := by
  simp only [Registry.builtin, List.mem_cons, List.not_mem_nil, or_false] at member
  rcases member with rfl | rfl | rfl | rfl
  · exact List.mem_singleton.mpr h.1
  · exact List.mem_singleton.mpr h
  · exact List.mem_singleton.mpr h
  · have kind : n.kind = .value ∨ n.kind = .arguments ∨ n.kind = .parentheses := h
    simpa [Rule.CommaSpacing.rule] using kind

/-- The rules of the linter are set up with some style, since each has one by default. -/
theorem Config.exists_style (c : Config) {entry : RegisteredRule}
    (member : entry ∈ Registry.builtin.entries) : ∃ word, (c.configOf entry).style = some word := by
  obtain ⟨word, default⟩ : ∃ word, entry.rule.defaultStyle = some word := by
    simp only [Registry.builtin, List.mem_cons, List.not_mem_nil, or_false] at member
    rcases member with rfl | rfl | rfl | rfl <;> exact ⟨_, rfl⟩
  rw [configOf]
  rcases c.ruling? entry.name with - | (_ | ⟨_, _, style⟩)
  · exact ⟨word, default⟩
  · exact ⟨word, default⟩
  · cases style with
    | none => exact ⟨word, default⟩
    | some style => exact ⟨style, rfl⟩

/-- All rules of a run with all nodes of a tree: node by node in pre-order, and at each node in the
    order of registration. -/
def encounters (active : ActiveRules) (root : Node) : List Call :=
  root.preorder.flatMap fun n => active.rules.toList.map (⟨·, n⟩)

namespace Call

/-- The node makes the rule look at its style, which is this word, and the rule does not know it. -/
def Misfits (call : Call) (word : String) : Prop :=
  call.node.Triggers call.active.config.rule.text ∧ call.active.config.style = some word ∧
    word ∉ knownStyles call.active.config.rule.text

/-- What the rule says about the node if it wants to see nodes of this kind. -/
def attempt (call : Call) : Except RuleError (List Diagnostic) :=
  if call.active.rule.kinds.contains call.node.kind then call.run else .ok []

/-- A built-in rule fails at a node exactly if its style does not fit there, and it names the style.
    -/
theorem attempt_eq_error {entry : RegisteredRule} {n : Node} {e : RuleError} (c : Config)
    (member : entry ∈ Registry.builtin.entries) (shaped : n.Shaped) :
    attempt ⟨⟨entry.rule, c.configOf entry⟩, n⟩ = .error e ↔
      ∃ word, Misfits ⟨⟨entry.rule, c.configOf entry⟩, n⟩ word ∧
        e = .invalidSetting entry.name.text word := by
  obtain ⟨style, set⟩ := c.exists_style member
  have rejects : (c.configOf entry).Rejects (knownStyles entry.name.text) e ↔
      style ∉ knownStyles entry.name.text ∧ e = .invalidSetting entry.name.text style := by
    simp [RuleConfig.Rejects, set]
  have misfits (word : String) : Misfits ⟨⟨entry.rule, c.configOf entry⟩, n⟩ word ↔
      n.Triggers entry.name.text ∧ style = word ∧ word ∉ knownStyles entry.name.text := by
    simp [Misfits, set]
  by_cases wanted : n.kind ∈ entry.rule.kinds
  · have shown : attempt ⟨⟨entry.rule, c.configOf entry⟩, n⟩ =
        entry.rule.check (c.configOf entry) n := by
      simp [attempt, Call.run, wanted]
    rw [shown, Registry.check_builtin_eq_error member shaped wanted, rejects]
    constructor
    · rintro ⟨triggers, unknown, rfl⟩
      exact ⟨style, (misfits style).mpr ⟨triggers, rfl, unknown⟩, rfl⟩
    · rintro ⟨word, misfit, rfl⟩
      obtain ⟨triggers, rfl, unknown⟩ := (misfits word).mp misfit
      exact ⟨triggers, unknown, rfl⟩
  · have skipped : attempt ⟨⟨entry.rule, c.configOf entry⟩, n⟩ = .ok [] := by
      simp [attempt, wanted]
    have calm : ¬ n.Triggers entry.name.text := mt (Node.Triggers.kind_mem member) wanted
    simp [skipped, misfits, calm]

end Call

/-- A traversal collects what the rules find at the nodes they meet. -/
theorem traverse_eq_encounters {active : ActiveRules} (indexed : active.Indexed) (root : Node) :
    traverse active root = collect Call.attempt (encounters active root) := by
  have calls_eq : calls active root =
      (encounters active root).filter fun call =>
        call.active.rule.kinds.contains call.node.kind := by
    rw [calls, encounters, List.filter_flatMap, Node.preorder_eq_walk]
    congr 1
    funext n
    rw [callsAt, indexed.scan, List.filter_map]
    rfl
  rw [traverse_eq_collect, calls_eq, collect_filter]
  rfl

theorem mem_encounters {active : ActiveRules} {root : Node} {call : Call} :
    call ∈ encounters active root ↔
      call.node ∈ root.preorder ∧ call.active ∈ active.rules.toList := by
  simp only [encounters, List.mem_flatMap, List.mem_map]
  constructor
  · rintro ⟨n, visited, a, present, rfl⟩
    exact ⟨visited, present⟩
  · rintro ⟨visited, present⟩
    exact ⟨call.node, visited, call.active, present, rfl⟩

theorem checkTree_eq_error {active : ActiveRules} {file : Path} {root : Node} {fault : Fault} :
    (checkTree active file root).outcome = .error fault ↔
      ∃ e, traverse active root = .error e ∧ fault = .rule e := by
  unfold checkTree
  cases traverse active root with
  | ok ds => simp
  | error e => simp [eq_comm]

theorem exists_checkTree_eq_ok {active : ActiveRules} {file : Path} {root : Node} :
    (∃ ds, checkTree active file root = ⟨file, .ok ds⟩) ↔ ∃ ds, traverse active root = .ok ds := by
  unfold checkTree
  cases traverse active root with
  | ok ds => simp
  | error e => simp

section Builtin

variable {source : String} {root : Node} {c : Config} {active : ActiveRules}
  {notices : List Notice} (parsed : Stylesheet.parse source = .ok root)
  (resolved : resolve .builtin c = .ok (active, notices))

include parsed resolved

/-- A rule that meets a node fails there exactly if its style does not fit. -/
theorem attempt_encounter_eq_error {call : Call} (met : call ∈ encounters active root)
    {e : RuleError} :
    call.attempt = .error e ↔
      ∃ word, call.Misfits word ∧ e = .invalidSetting call.active.config.rule.text word := by
  obtain ⟨visited, present⟩ := mem_encounters.mp met
  have shaped : call.node.Shaped := by
    rw [Node.preorder_eq_walk] at visited
    exact (Stylesheet.everywhere_shaped parsed).2 _ visited
  obtain ⟨entry, member, selected⟩ := exists_entry_of_mem_rules resolved present
  obtain ⟨a, n⟩ := call
  obtain rfl : a = ⟨entry.rule, c.configOf entry⟩ := selected
  rw [Call.attempt_eq_error c member shaped, Config.rule_configOf]

/-- A rule that meets a node succeeds there exactly if no style is wrong. -/
theorem attempt_encounter_ok_iff {call : Call} (met : call ∈ encounters active root) :
    (∃ ds, call.attempt = .ok ds) ↔ ∀ word, ¬ call.Misfits word := by
  have fails := @attempt_encounter_eq_error source root c active notices parsed resolved call met
  cases outcome : call.attempt with
  | ok ds =>
    refine ⟨fun _ word misfit => ?_, fun _ => ⟨ds, rfl⟩⟩
    have error := fails.mpr ⟨word, misfit, rfl⟩
    rw [outcome] at error
    cases error
  | error e =>
    obtain ⟨word, misfit, -⟩ := fails.mp outcome
    exact ⟨nofun, fun none => absurd misfit (none word)⟩

/-- The first rule that does not know its style at a node that triggers it makes the check fail. -/
theorem checkTree_builtin_eq_error (file : Path) (fault : Fault) :
    (checkTree active file root).outcome = .error fault ↔
      ∃ before call after word, encounters active root = before ++ call :: after ∧
        (∀ b ∈ before, ∀ w, ¬ b.Misfits w) ∧ call.Misfits word ∧
        fault = .rule (.invalidSetting call.active.config.rule.text word) := by
  simp only [checkTree_eq_error, traverse_eq_encounters (indexed_of_resolve resolved),
    collect_eq_error]
  constructor
  · rintro ⟨e, ⟨before, call, after, split, succeed, fails⟩, rfl⟩
    have met : call ∈ encounters active root := by simp [split]
    obtain ⟨word, misfit, rfl⟩ := (attempt_encounter_eq_error parsed resolved met).mp fails
    refine ⟨before, call, after, word, split, ?_, misfit, rfl⟩
    intro b hb
    have metBefore : b ∈ encounters active root := by simp [split, hb]
    exact (attempt_encounter_ok_iff parsed resolved metBefore).mp (succeed b hb)
  · rintro ⟨before, call, after, word, split, fit, misfit, rfl⟩
    have met : call ∈ encounters active root := by simp [split]
    refine ⟨_, ⟨before, call, after, split, ?_, ?_⟩, rfl⟩
    · intro b hb
      have metBefore : b ∈ encounters active root := by simp [split, hb]
      exact (attempt_encounter_ok_iff parsed resolved metBefore).mpr (fit b hb)
    · exact (attempt_encounter_eq_error parsed resolved met).mpr ⟨word, misfit, rfl⟩

/-- A check with built-in rules succeeds exactly if no rule has a style that does not fit. -/
theorem checkTree_builtin_ok_iff (file : Path) :
    (∃ ds, checkTree active file root = ⟨file, .ok ds⟩) ↔
      ∀ n ∈ root.preorder, ∀ a ∈ active.rules.toList, ∀ word, ¬ Call.Misfits ⟨a, n⟩ word := by
  rw [exists_checkTree_eq_ok, traverse_eq_encounters (indexed_of_resolve resolved),
    exists_collect_eq_ok]
  constructor
  · intro succeed n visited a present
    have met : ⟨a, n⟩ ∈ encounters active root := mem_encounters.mpr ⟨visited, present⟩
    exact (attempt_encounter_ok_iff parsed resolved met).mp (succeed _ met)
  · intro fit call met
    obtain ⟨visited, present⟩ := mem_encounters.mp met
    exact (attempt_encounter_ok_iff parsed resolved met).mpr (fit _ visited _ present)

end Builtin

/-- The check of a style sheet's tree by rules of the linter meets a fault exactly if some rule does
    not know its style at a node that triggers it. The fault is one of the configuration: it names
    the rule and the style of the first such meeting. -/
theorem checkTree_builtin {source : String} {root : Node} {c : Config} {active : ActiveRules}
    {notices : List Notice} (parsed : Stylesheet.parse source = .ok root)
    (resolved : resolve .builtin c = .ok (active, notices)) (file : Path) :
    (∀ fault, (checkTree active file root).outcome = .error fault ↔
      ∃ before call after word, encounters active root = before ++ call :: after ∧
        (∀ b ∈ before, ∀ w, ¬ b.Misfits w) ∧ call.Misfits word ∧
        fault = .rule (.invalidSetting call.active.config.rule.text word)) ∧
    ((∃ fault, (checkTree active file root).outcome = .error fault) ↔
      ∃ n ∈ root.preorder, ∃ a ∈ active.rules.toList, ∃ word, Call.Misfits ⟨a, n⟩ word) ∧
    ((∃ ds, checkTree active file root = ⟨file, .ok ds⟩) ↔
      ∀ n ∈ root.preorder, ∀ a ∈ active.rules.toList, ∀ word, ¬ Call.Misfits ⟨a, n⟩ word) := by
  have clean := checkTree_builtin_ok_iff parsed resolved file
  refine ⟨checkTree_builtin_eq_error parsed resolved file, ?_, clean⟩
  have failed : (∃ fault, (checkTree active file root).outcome = .error fault) ↔
      ¬ ∃ ds, checkTree active file root = ⟨file, .ok ds⟩ := by
    simp only [checkTree_eq_error, exists_checkTree_eq_ok]
    cases traverse active root with
    | ok ds => simp
    | error e => simp
  rw [failed, clean]
  push Not
  rfl

/-- The colour comes first, so its rule decides, although the other rule is registered before. -/
theorem checkTree_builtin_medium :
    let c : Config := ⟨[], [], [],
      RuleTable.empty.insert "border-zero" (.settings ⟨none, none, some "sideways"⟩)
        |>.insert "hexLength" (.settings ⟨none, none, some "medium"⟩)⟩
    ∃ root active notices,
      Stylesheet.parse "a\x7bcolor:#abc;border:0\x7d" = .ok root ∧
      resolve .builtin c = .ok (active, notices) ∧
      (checkTree active "a.less" root).outcome =
        .error (.rule (.invalidSetting "hex-length" "medium")) ∧
      ∃ n ∈ root.preorder, ∃ a ∈ active.rules.toList, ∃ word, Call.Misfits ⟨a, n⟩ word := by
  intro c
  obtain ⟨root, parsed⟩ : ∃ root, Stylesheet.parse "a\x7bcolor:#abc;border:0\x7d" = .ok root :=
    exists_ok_of_isOk (by decide +kernel)
  obtain ⟨⟨active, notices⟩, resolved⟩ : ∃ result, resolve .builtin c = .ok result :=
    exists_ok_of_isOk (by decide +kernel)
  have computed : (do
      let root ← (Stylesheet.parse "a\x7bcolor:#abc;border:0\x7d").toOption
      let result ← (resolve .builtin c).toOption
      match (checkTree result.1 "a.less" root).outcome with
      | .error fault => some fault
      | .ok _ => none) = some (.rule (.invalidSetting "hex-length" "medium")) := by decide +kernel
  have failed : (checkTree active "a.less" root).outcome =
      .error (.rule (.invalidSetting "hex-length" "medium")) := by
    rw [parsed, resolved] at computed
    cases outcome : (checkTree active "a.less" root).outcome with
    | ok ds => simp [Except.toOption, outcome] at computed
    | error fault =>
      simp only [Except.toOption, outcome, Option.bind_eq_bind, Option.bind_some,
        Option.some.injEq] at computed
      rw [computed]
  obtain ⟨-, fails, -⟩ := checkTree_builtin parsed resolved "a.less"
  exact ⟨root, active, notices, parsed, resolved, failed, fails.mp ⟨_, failed⟩⟩

end SheetLint
