import SheetLint.Proofs.Findings
import SheetLint.Proofs.Selection
import SheetLint.Stylesheet.Reader

/-!
# Independence of rules

No rule sees what another one says. If every rule signs its findings with the name it is set up
with, then the findings of some rules can be read off a check by all rules (`traverse_restrict`),
and a rule that is switched off takes away its own findings and nothing else.
-/

namespace SheetLint

/-- If the results of a call tell whether the call is wanted, the wanted calls return the wanted
    results. -/
theorem collect_restrict {α β ε : Type} {f : α → Except ε (List β)} {p : α → Bool} {q : β → Bool}
    {xs : List α} {ys : List β}
    (told : ∀ x ∈ xs, ∀ zs, f x = .ok zs → ∀ z ∈ zs, q z = p x) (h : collect f xs = .ok ys) :
    collect f (xs.filter p) = .ok (ys.filter q) := by
  induction xs generalizing ys with
  | nil =>
    cases h
    rfl
  | cons x xs ih =>
    obtain ⟨toldHere, toldBehind⟩ := List.forall_mem_cons.mp told
    rw [collect_cons] at h
    obtain ⟨first, here, h⟩ := bind_eq_ok.mp h
    obtain ⟨rest, behind, made⟩ := bind_eq_ok.mp h
    cases made
    have later := ih toldBehind behind
    rw [List.filter_append]
    by_cases wanted : p x = true
    · have all : first.filter q = first := by
        apply List.filter_eq_self.mpr
        intro z hz
        rw [toldHere first here z hz, wanted]
      rw [List.filter_cons_of_pos wanted, collect_cons, here, later, all]
      rfl
    · have none : first.filter q = [] := by
        apply List.filter_eq_nil_iff.mpr
        intro z hz
        rw [toldHere first here z hz]
        exact wanted
      rw [List.filter_cons_of_neg wanted, later, none]
      rfl

/-- A run with fewer rules makes the calls of the rules that are left, in the same order. -/
theorem calls_restrict {active active' : ActiveRules} {keep : ActiveRule → Bool}
    (indexed : active.Indexed) (indexed' : active'.Indexed)
    (rules : active'.rules.toList = active.rules.toList.filter keep) (root : Node) :
    calls active' root = (calls active root).filter fun call => keep call.active := by
  rw [calls, calls, List.filter_flatMap]
  congr 1
  funext n
  rw [callsAt, callsAt, indexed'.scan, indexed.scan, rules, List.filter_map, List.filter_filter,
    List.filter_filter]
  congr 2
  funext a
  exact Bool.and_comm _ _

/-- Some rules alone find what they find among all. -/
theorem traverse_restrict {active active' : ActiveRules} (keep : RuleName → Bool) {root : Node}
    {ds : List Diagnostic} (indexed : active.Indexed) (indexed' : active'.Indexed)
    (signs : ∀ a ∈ active.rules.toList, a.rule.Signs)
    (rules : active'.rules.toList = active.rules.toList.filter fun a => keep a.config.rule)
    (h : traverse active root = .ok ds) :
    traverse active' root = .ok (ds.filter fun d => keep d.rule) := by
  rw [traverse_eq_collect] at h ⊢
  rw [calls_restrict indexed indexed' rules]
  refine collect_restrict ?_ h
  intro call made found checked d hd
  have present : call.active ∈ active.rules.toList := by
    simp only [calls, callsAt, indexed.scan, List.mem_flatMap, List.mem_map,
      List.mem_filter] at made
    obtain ⟨n, -, a, ⟨present, -⟩, rfl⟩ := made
    exact present
  rw [signs call.active present call.active.config call.node found checked d hd]

/-- The configuration `c'` differs from `c` for the rules of a registry only in that the rule with
    this name is switched off. -/
structure Config.SwitchesOff (registry : Registry) (name : RuleName) (c c' : Config) : Prop where
  linters : c'.linters = c.linters
  off : ∀ entry ∈ registry.entries, entry.name = name → (c'.configOf entry).enabled = false
  others : ∀ entry ∈ registry.entries, entry.name ≠ name → c'.configOf entry = c.configOf entry

namespace Config

variable {registry : Registry} {name : RuleName} {c c' : Config}

/-- A table under the name of a rule switches it off, and no other rule unless the name is also the
    camel-case spelling of the other's name. -/
theorem switchesOff_insert (c : Config) {s : Settings} (off : s.enabled = some false)
    (free : ∀ entry ∈ registry.entries, entry.name ≠ name → entry.name.camelCase ≠ name.text) :
    SwitchesOff registry name c { c with rules := c.rules.insert name.text (.settings s) } := by
  refine ⟨rfl, ?_, ?_⟩
  · intro entry _ same
    subst same
    have table : tableAt? { c with rules := c.rules.insert entry.name.text (.settings s) }
        entry.name.text = some (.settings s) := by
      rw [tableAt?, RuleTable.get?_insert, if_pos rfl]
      rfl
    have ruling : ruling? { c with rules := c.rules.insert entry.name.text (.settings s) }
        entry.name = some (.settings s) := by
      rw [ruling?, table]
      rfl
    rw [configOf, ruling]
    simp [RegisteredRule.setUp, off]
  · intro entry member differs
    have spelling : entry.name.camelCase ≠ name.text := free entry member differs
    have text : entry.name.text ≠ name.text := by
      intro same
      exact differs (RuleName.text_inj.mp same)
    simp [configOf, ruling?, tableAt?, truthAt?, RuleTable.get?_insert, spelling, text]

/-- Switching a rule off takes it away from the enabled rules and leaves the others as they are
    configured. -/
theorem SwitchesOff.enabledOf (h : SwitchesOff registry name c c') {asked : List RegisteredRule}
    (registered : ∀ entry ∈ asked, entry ∈ registry.entries) :
    Resolution.enabledOf c' asked =
      (Resolution.enabledOf c asked).filter fun a => decide (a.config.rule ≠ name) := by
  unfold Resolution.enabledOf
  rw [List.filter_filter]
  induction asked with
  | nil => rfl
  | cons entry asked ih =>
    obtain ⟨member, registered⟩ := List.forall_mem_cons.mp registered
    rw [List.map_cons, List.map_cons, List.filter_cons, List.filter_cons, ih registered]
    by_cases same : entry.name = name
    · have off : (c'.configOf entry).enabled = false := h.off entry member same
      simp [off, same]
    · have equal : c'.configOf entry = c.configOf entry := h.others entry member same
      simp [equal, same]

/-- The rules that take part are those that took part before, without the one that is switched
    off. -/
theorem SwitchesOff.selected (h : SwitchesOff registry name c c') :
    registry.selected c' =
      (registry.selected c).filter fun a => decide (a.config.rule ≠ name) := by
  have asked : registry.isAsked c' = registry.isAsked c := by
    funext entry
    rw [Registry.isAsked, Registry.isAsked, h.linters]
  rw [Registry.selected, Registry.selected, asked]
  exact h.enabledOf fun entry member => List.mem_of_mem_filter member

theorem SwitchesOff.resolve (h : SwitchesOff registry name c c') {active : ActiveRules}
    {notices : List Notice} (resolved : resolve registry c = .ok (active, notices)) :
    ∃ active' notices', SheetLint.resolve registry c' = .ok (active', notices') := by
  cases again : SheetLint.resolve registry c' with
  | ok result => exact ⟨result.1, result.2, rfl⟩
  | error e =>
    -- only the list of plugins can be refused, and it is the same
    rw [resolve_eq_error, h.linters, ← resolve_eq_error, resolved] at again
    cases again

end Config

/-- A rule that is switched off takes its own findings out of a check, and leaves all others as they
    are and in their order. -/
theorem traverse_switchesOff {registry : Registry}
    (signs : ∀ entry ∈ registry.entries, entry.rule.Signs) {c c' : Config} {active : ActiveRules}
    {notices : List Notice}
    (resolved : resolve registry c = .ok (active, notices)) {root : Node} {ds : List Diagnostic}
    (checked : traverse active root = .ok ds) {name : RuleName}
    (switched : Config.SwitchesOff registry name c c') :
    ∃ active' notices', resolve registry c' = .ok (active', notices') ∧
      traverse active' root = .ok (ds.filter fun d => decide (d.rule ≠ name)) := by
  obtain ⟨active', notices', resolved'⟩ := switched.resolve resolved
  have rules : active'.rules.toList =
      active.rules.toList.filter fun a => decide (a.config.rule ≠ name) := by
    rw [rules_of_resolve resolved, rules_of_resolve resolved', switched.selected]
  have signsActive : ∀ a ∈ active.rules.toList, a.rule.Signs := by
    intro a present
    obtain ⟨entry, member, rfl⟩ := exists_entry_of_mem_rules resolved present
    exact signs entry member
  refine ⟨active', notices', resolved', ?_⟩
  exact traverse_restrict (fun rule => decide (rule ≠ name)) (indexed_of_resolve resolved)
    (indexed_of_resolve resolved') signsActive rules checked

/-- Of the findings about a colour and a border, the one about the border is left when the rule for
    colours is switched off. -/
theorem traverse_switchesOff_hexLength :
    let name : RuleName := ⟨"hex-length", by decide⟩
    let c : Config := .default
    let c' : Config := { c with rules := c.rules.insert name.text (.settings ⟨some false, none, none⟩) }
    Config.SwitchesOff .builtin name c c' ∧ ∃ root active notices ds active' notices',
      Stylesheet.parse "a\x7bcolor:#abc;border:0\x7d" = .ok root ∧
      resolve .builtin c = .ok (active, notices) ∧ traverse active root = .ok ds ∧
      ds.map (·.rule.text) = ["hex-length", "border-zero"] ∧
      resolve .builtin c' = .ok (active', notices') ∧
      traverse active' root = .ok (ds.filter fun d => decide (d.rule ≠ name)) := by
  intro name c c'
  have switched : Config.SwitchesOff .builtin name c c' :=
    c.switchesOff_insert rfl (by decide +kernel)
  obtain ⟨root, parsed⟩ : ∃ root, Stylesheet.parse "a\x7bcolor:#abc;border:0\x7d" = .ok root :=
    exists_ok_of_isOk (by decide +kernel)
  obtain ⟨⟨active, notices⟩, resolved⟩ : ∃ result, resolve .builtin c = .ok result :=
    exists_ok_of_isOk (by decide +kernel)
  have computed : (do
      let root ← (Stylesheet.parse "a\x7bcolor:#abc;border:0\x7d").toOption
      let result ← (resolve .builtin c).toOption
      let ds ← (traverse result.1 root).toOption
      return ds.map (·.rule.text)) = some ["hex-length", "border-zero"] := by decide +kernel
  rw [parsed, resolved] at computed
  cases checked : traverse active root with
  | error e => simp [Except.toOption, checked] at computed
  | ok ds =>
    obtain ⟨active', notices', resolved', left⟩ :=
      traverse_switchesOff Registry.signs_builtin resolved checked switched
    refine ⟨switched, root, active, notices, ds, active', notices', parsed, resolved, checked, ?_,
      resolved', left⟩
    simpa [Except.toOption, checked] using computed

end SheetLint
