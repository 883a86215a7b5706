import SheetLint.Proofs.Traversal
import SheetLint.Registry

/-!
# Findings

What the rules of the linter say about a node, said once for each rule: every finding is about a
node at hand, and no node is found fault with twice. Each rule has its own nodes to look at, which
are the node that it is shown or nodes close below it (`spots`).
-/

namespace SheetLint

namespace RuleConfig

variable {config : RuleConfig} {ns ms : List Node} {ds es : List Diagnostic}

/-- The findings are about some of the nodes, in their order. -/
def Reports (config : RuleConfig) (ns : List Node) (ds : List Diagnostic) : Prop :=
  ∃ found : List (Node × String), (found.map (·.1)).Sublist ns ∧
    ds = found.map fun f => config.diagnostic f.1.position f.2

theorem reports_nil (config : RuleConfig) (ns : List Node) : config.Reports ns [] :=
  ⟨[], List.nil_sublist ns, rfl⟩

theorem reports_singleton (config : RuleConfig) (n : Node) (message : String) :
    config.Reports [n] [config.diagnostic n.position message] :=
  ⟨[(n, message)], List.Sublist.refl _, rfl⟩

/-- At most one finding about one node. -/
theorem reports_toList (config : RuleConfig) (n : Node) (message : Option String) :
    config.Reports [n] (message.map (config.diagnostic n.position)).toList := by
  cases message with
  | none => exact reports_nil config [n]
  | some message => exact reports_singleton config n message

theorem Reports.append (left : config.Reports ns ds) (right : config.Reports ms es) :
    config.Reports (ns ++ ms) (ds ++ es) := by
  obtain ⟨found, within, rfl⟩ := left
  obtain ⟨more, withinMore, rfl⟩ := right
  refine ⟨found ++ more, ?_, by rw [List.map_append]⟩
  rw [List.map_append]
  exact within.append withinMore

theorem Reports.rule_eq (h : config.Reports ns ds) : ∀ d ∈ ds, d.rule = config.rule := by
  obtain ⟨found, -, rfl⟩ := h
  intro d hd
  obtain ⟨f, -, rfl⟩ := List.mem_map.mp hd
  rfl

/-- The places of findings are places of nodes. -/
theorem Reports.positions (h : config.Reports ns ds) :
    (ds.map (·.position)).Sublist (ns.map (·.position)) := by
  obtain ⟨found, within, rfl⟩ := h
  rw [List.map_map]
  have places := within.map Node.position
  rwa [List.map_map] at places

end RuleConfig

namespace Rule

variable {config : RuleConfig} {n : Node} {ds : List Diagnostic}

/-- The value of a declaration, if there is something in it. -/
def Border.spots (n : Node) : List Node :=
  ((n.first? .value).filter fun value => !value.children.isEmpty).toList

/-- The colour itself. -/
def HexColor.spots (n : Node) : List Node :=
  [n]

/-- What stands behind the property. -/
def PropertySpacing.spots (n : Node) : List Node :=
  ((n.indexOf? .property).bind fun index => n.children[index + 1]?).toList

/-- The commas among the children. -/
def CommaSpacing.spots (n : Node) : List Node :=
  n.children.filter CommaSpacing.isComma

/-- A value that names no border is the first one of its declaration and is not empty. -/
theorem Border.first?_of_absentBorder? {value : Node} {content : String}
    (h : Border.absentBorder? n = some (value, content)) :
    n.first? .value = some value ∧ value.children ≠ [] := by
  simp only [Border.absentBorder?, Option.pure_def, Option.bind_eq_bind, Option.bind_eq_some_iff,
    Option.guard_eq_some', exists_const] at h
  obtain ⟨property, -, -, found, first, head, isHead, -, same⟩ := h
  cases same
  refine ⟨first, ?_⟩
  intro empty
  rw [empty] at isHead
  cases isHead

/-- The rule on borders reports the value of a declaration at most. -/
theorem Border.reports (checked : Border.check config n = .ok ds) :
    config.Reports (Border.spots n) ds := by
  unfold Border.check at checked
  cases absent : Border.absentBorder? n with
  | none =>
    rw [absent] at checked
    cases checked
    exact RuleConfig.reports_nil config _
  | some found =>
    obtain ⟨value, content⟩ := found
    rw [absent] at checked
    obtain ⟨style, -, made⟩ := bind_eq_ok.mp checked
    cases made
    obtain ⟨first, inhabited⟩ := Border.first?_of_absentBorder? absent
    have spots : Border.spots n = [value] := by
      simp [Border.spots, first, inhabited]
    rw [spots]
    exact RuleConfig.reports_toList config value _

/-- The rule on colours reports the colour itself at most. -/
theorem HexColor.reports (checked : HexColor.check config n = .ok ds) :
    config.Reports (HexColor.spots n) ds := by
  obtain ⟨style, -, made⟩ := bind_eq_ok.mp checked
  by_cases wrong : HexColor.isWrong style n.content.toList = true
  · rw [if_pos wrong] at made
    cases made
    exact RuleConfig.reports_singleton config n _
  · rw [if_neg wrong] at made
    cases made
    exact RuleConfig.reports_nil config _

/-- The rule on property names reports what stands behind the property at most. -/
theorem PropertySpacing.reports (checked : PropertySpacing.check config n = .ok ds) :
    config.Reports (PropertySpacing.spots n) ds := by
  obtain ⟨style, -, made⟩ := bind_eq_ok.mp checked
  cases property : n.indexOf? .property with
  | none =>
    rw [property] at made
    cases made
  | some index =>
    simp only [property] at made
    cases behind : n.children[index + 1]? with
    | none =>
      rw [behind] at made
      cases made
    | some next =>
      simp only [behind] at made
      cases made
      have spots : PropertySpacing.spots n = [next] := by
        simp [PropertySpacing.spots, property, behind]
      rw [spots]
      exact RuleConfig.reports_toList config next _

/-- The rule on commas reports each comma once at most, in order. -/
theorem CommaSpacing.reports_report (config : RuleConfig) (style : CommaSpacing.Style)
    (previous : Option Node) (ns : List Node) :
    config.Reports (ns.filter CommaSpacing.isComma)
      (CommaSpacing.report config style previous ns) := by
  induction ns generalizing previous with
  | nil => exact RuleConfig.reports_nil config _
  | cons n ns ih =>
    rw [CommaSpacing.report]
    by_cases comma : CommaSpacing.isComma n = true
    · rw [List.filter_cons_of_pos comma]
      exact (RuleConfig.reports_toList config n _).append (ih (some n))
    · rw [List.filter_cons_of_neg comma, if_neg comma]
      exact ih (some n)

theorem CommaSpacing.reports (checked : CommaSpacing.check config n = .ok ds) :
    config.Reports (CommaSpacing.spots n) ds := by
  obtain ⟨style, -, made⟩ := bind_eq_ok.mp checked
  cases made
  exact CommaSpacing.reports_report config style none n.children

/-- Whatever a rule finds is signed with the name that it is set up with. -/
def Signs (rule : Rule) : Prop :=
  ∀ config n ds, rule.check config n = .ok ds → ∀ d ∈ ds, d.rule = config.rule

end Rule

theorem Registry.signs_builtin : ∀ entry ∈ builtin.entries, entry.rule.Signs := by
  intro entry member config n ds checked
  simp only [builtin, List.mem_cons, List.not_mem_nil, or_false] at member
  rcases member with rfl | rfl | rfl | rfl
  · exact (Rule.Border.reports checked).rule_eq
  · exact (Rule.HexColor.reports checked).rule_eq
  · exact (Rule.PropertySpacing.reports checked).rule_eq
  · exact (Rule.CommaSpacing.reports checked).rule_eq

end SheetLint
