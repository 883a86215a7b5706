import SheetLint.Proofs.Resolution

/-!
# Selection

Which rules of a registry take part in a run, and how they are set up. A plugin takes part if it is
enabled and a listed word picks it. A plugin that is listed by its own name is not picked by it if
that name is also the camel-case spelling of a rule that was registered before.
-/

namespace SheetLint

/-- A rule with this name takes part. -/
def ActiveRules.Has (active : ActiveRules) (name : RuleName) : Prop :=
  ∃ a ∈ active.rules.toList, a.config.rule = name

namespace Registry

variable {r : Registry} {c : Config} {entry : RegisteredRule} {word : String}

theorem mem_selected {a : ActiveRule} : a ∈ r.selected c ↔
    ∃ entry ∈ r.entries, r.isAsked c entry = true ∧ (c.configOf entry).enabled = true ∧
      a = ⟨entry.rule, c.configOf entry⟩ := by
  simp only [selected, Resolution.enabledOf, List.mem_filter, List.mem_map]
  constructor
  · rintro ⟨⟨entry, ⟨member, asked⟩, rfl⟩, enabled⟩
    exact ⟨entry, member, asked, enabled, rfl⟩
  · rintro ⟨entry, member, asked, enabled, rfl⟩
    exact ⟨⟨entry, ⟨member, asked⟩, rfl⟩, enabled⟩

/-- The selected rules stand in the order of their registration. -/
theorem sublist_selected (r : Registry) (c : Config) :
    ((r.selected c).map fun a => (a.config.rule, a.rule)).Sublist
      (r.entries.map fun entry => (entry.name, entry.rule)) := by
  have names : ((r.entries.filter (r.isAsked c)).map fun entry =>
      (⟨entry.rule, c.configOf entry⟩ : ActiveRule)).map (fun a => (a.config.rule, a.rule)) =
        (r.entries.filter (r.isAsked c)).map fun entry => (entry.name, entry.rule) := by
    rw [List.map_map]
    congr 1
    funext entry
    simp
  have asked : ((r.entries.filter (r.isAsked c)).map fun entry => (entry.name, entry.rule)).Sublist
      (r.entries.map fun entry => (entry.name, entry.rule)) :=
    List.filter_sublist.map _
  rw [← names] at asked
  exact (List.filter_sublist.map _).trans asked

/-- A plugin is asked for if a listed word picks it. -/
theorem Built.isAsked_iff (built : r.Built) (member : entry ∈ r.entries) :
    r.isAsked c entry = true ↔ entry.plugin = false ∨ ∃ word ∈ c.linters, r.Picks word entry := by
  have meant (word : String) :
      (r.meant? word).any (·.name = entry.name) = true ↔ r.Picks word entry := by
    rw [Option.any_eq_true, ← meant?_eq_some]
    constructor
    · rintro ⟨found, picked, same⟩
      rw [picked, built.eq_of_name_eq (meant?_eq_some.mp picked).mem member (by simpa using same)]
    · intro picked
      exact ⟨entry, picked, by simp⟩
  simp only [isAsked, Bool.or_eq_true, Bool.not_eq_true', List.any_eq_true, meant]

/-- With the place of a rule given, only the rules before it can take a word from it. -/
theorem Built.picks_iff (built : r.Built) {before after : List RegisteredRule}
    (split : r.entries = before ++ entry :: after) :
    r.Picks word entry ↔ entry.name.Spells word ∧ ∀ e ∈ before, ¬ e.name.Spells word := by
  constructor
  · rintro ⟨before', after', split', spells, others⟩
    refine ⟨spells, ?_⟩
    have distinct : (before ++ entry :: after).Nodup := split ▸ List.Nodup.of_map _ built.nodup
    have alone : entry ∉ before ++ after := (List.nodup_cons.mp (List.nodup_middle.mp distinct)).1
    have both : before ++ entry :: after = before' ++ entry :: after' := by rw [← split, split']
    have same : before = before' :=
      ((List.append_cons_inj_of_notMem (fun h => alone (List.mem_append_left _ h))
        (fun h => alone (List.mem_append_right _ h))).mp both).1
    exact same ▸ others
  · rintro ⟨spells, others⟩
    exact ⟨before, after, split, spells, others⟩

end Registry

section Selection

variable {registry : Registry} {c : Config} {active : ActiveRules} {notices : List Notice}
  {entry : RegisteredRule}

theorem rules_of_resolve (resolved : resolve registry c = .ok (active, notices)) :
    active.rules.toList = registry.selected c := by
  rw [(resolve_eq_ok resolved).1, ActiveRules.rules_ofList]

/-- Every rule that takes part is registered. -/
theorem exists_entry_of_mem_rules (resolved : resolve registry c = .ok (active, notices))
    {a : ActiveRule} (present : a ∈ active.rules.toList) :
    ∃ entry ∈ registry.entries, a = ⟨entry.rule, c.configOf entry⟩ := by
  rw [rules_of_resolve resolved] at present
  obtain ⟨entry, member, -, -, selected⟩ := Registry.mem_selected.mp present
  exact ⟨entry, member, selected⟩

/-- A rule that takes part is the registered one, set up as the configuration asks. -/
theorem eq_of_has (built : registry.Built) (resolved : resolve registry c = .ok (active, notices))
    (member : entry ∈ registry.entries) {a : ActiveRule} (found : a ∈ active.rules.toList)
    (same : a.config.rule = entry.name) :
    registry.isAsked c entry = true ∧ (c.configOf entry).enabled = true ∧
      a = ⟨entry.rule, c.configOf entry⟩ := by
  rw [rules_of_resolve resolved] at found
  obtain ⟨other, otherMember, asked, enabled, rfl⟩ := Registry.mem_selected.mp found
  have equal : other = entry :=
    built.eq_of_name_eq otherMember member (by simpa using same)
  subst equal
  exact ⟨asked, enabled, rfl⟩

/-- A registered rule is active exactly if it is asked for and enabled. -/
theorem has_iff (built : registry.Built) (resolved : resolve registry c = .ok (active, notices))
    (member : entry ∈ registry.entries) :
    active.Has entry.name ↔ registry.isAsked c entry = true ∧ (c.configOf entry).enabled = true := by
  constructor
  · rintro ⟨a, found, same⟩
    obtain ⟨asked, enabled, -⟩ := eq_of_has built resolved member found same
    exact ⟨asked, enabled⟩
  · rintro ⟨asked, enabled⟩
    refine ⟨⟨entry.rule, c.configOf entry⟩, ?_, by simp⟩
    rw [rules_of_resolve resolved]
    exact Registry.mem_selected.mpr ⟨entry, member, asked, enabled, rfl⟩

/-- A list of plugins is refused for its first word that is a spelling of no rule's name. Else the
    rules that take part stand in the order of their registration. A rule that is always on takes
    part if it is enabled, a plugin only if it is enabled and listed in one of its spellings, and
    each is set up by the entry that decides over it. What is said in vain is put down: keys for no
    rule, then truth values beside the tables of rules that are asked for. -/
theorem resolve_selection (built : registry.Built) (c : Config) :
    (∀ e, resolve registry c = .error e ↔
      ∃ before word after, c.linters = before ++ word :: after ∧
        (∀ w ∈ before, ∃ entry ∈ registry.entries, entry.name.Spells w) ∧
        (∀ entry ∈ registry.entries, ¬ entry.name.Spells word) ∧ e = .unknownLinter word) ∧
    ∀ active notices, resolve registry c = .ok (active, notices) →
      (active.rules.toList.map fun a => (a.config.rule, a.rule)).Sublist
        (registry.entries.map fun entry => (entry.name, entry.rule)) ∧
      (∀ entry ∈ registry.entries,
        (Resolution.ruleConfig entry.name entry.rule.defaultStyle (c.ruleEntries entry.name)).1 =
          c.configOf entry ∧
        (entry.plugin = false → (active.Has entry.name ↔ (c.configOf entry).enabled = true)) ∧
        (entry.plugin = true → active.Has entry.name →
          (∃ word ∈ c.linters, entry.name.Spells word) ∧ (c.configOf entry).enabled = true) ∧
        ∀ a ∈ active.rules.toList, a.config.rule = entry.name →
          a.rule = entry.rule ∧ a.config = c.configOf entry) ∧
      notices =
        (c.rules.keys.filter fun key => (registry.meant? key).isNone).map .unknownRule ++
          (registry.entries.filter (registry.isAsked c)).filterMap fun entry =>
            (c.overruled? entry.name).map (.overruledToggle entry.name) := by
  refine ⟨fun e => resolve_eq_error.trans Resolution.requested_eq_error, ?_⟩
  intro active notices resolved
  refine ⟨?_, ?_, (resolve_eq_ok resolved).2⟩
  · rw [rules_of_resolve resolved]
    exact registry.sublist_selected c
  · intro entry member
    have has := has_iff built resolved member
    rw [built.isAsked_iff member] at has
    refine ⟨by rw [ruleConfig_ruleEntries], ?_, ?_, ?_⟩
    · intro always
      simp [has, always]
    · intro plugin present
      obtain ⟨asked, enabled⟩ := has.mp present
      rcases asked with always | ⟨word, listed, picked⟩
      · rw [plugin] at always
        cases always
      · exact ⟨⟨word, listed, picked.spells⟩, enabled⟩
    · intro a found same
      obtain ⟨-, -, rfl⟩ := eq_of_has built resolved member found same
      exact ⟨rfl, rfl⟩

/-- The table under the camel-case spelling decides, and the truth value under the name is put down
    as said in vain. -/
theorem resolve_selection_hexLength :
    let c : Config := ⟨[], [], ["hexLength"],
      RuleTable.empty.insert "hexLength" (.settings ⟨none, none, some "short"⟩)
        |>.insert "hex-length" (.toggle false) |>.insert "nope" (.toggle true)⟩
    let name : RuleName := ⟨"hex-length", by decide⟩
    Registry.builtin.Built ∧ ∃ active,
      resolve .builtin c = .ok (active, [.unknownRule "nope", .overruledToggle name false]) ∧
      active.Has name ∧
      ∀ a ∈ active.rules.toList, a.config.rule = name → a.config = ⟨name, true, .error, "short"⟩ := by
  intro c name
  obtain ⟨-, success⟩ := resolve_selection Registry.built_builtin c
  obtain ⟨⟨active, notices⟩, resolved⟩ : ∃ result, resolve .builtin c = .ok result :=
    exists_ok_of_isOk (by decide +kernel)
  obtain ⟨-, rules, said⟩ := success active notices resolved
  have decided : c.configOf ⟨name, Rule.HexColor.rule, false⟩ = ⟨name, true, .error, "short"⟩ := by
    decide +kernel
  obtain ⟨-, always, -, setUp⟩ := rules ⟨name, Rule.HexColor.rule, false⟩
    (by simp [Registry.builtin, name])
  rw [decided] at always setUp
  have computed : notices = [.unknownRule "nope", .overruledToggle name false] := by
    rw [said]
    decide +kernel
  refine ⟨Registry.built_builtin, active, by rw [resolved, computed], (always rfl).mpr rfl, ?_⟩
  intro a found same
  exact (setUp a found same).2

/-- A plugin that is listed by its own name takes part exactly if no rule before it has this name as
    its camel-case spelling, or else if its own camel-case spelling is listed too and is free. -/
theorem has_listed_plugin_iff (built : registry.Built)
    (resolved : resolve registry c = .ok (active, notices))
    {before after : List RegisteredRule} (split : registry.entries = before ++ entry :: after)
    (plugin : entry.plugin = true) (listed : entry.name.text ∈ c.linters)
    (enabled : (c.configOf entry).enabled = true) :
    active.Has entry.name ↔
      (∀ e ∈ before, e.name.camelCase ≠ entry.name.text) ∨
        entry.name.camelCase ∈ c.linters ∧
          ∀ e ∈ before, ¬ e.name.Spells entry.name.camelCase := by
  have member : entry ∈ registry.entries := by simp [split]
  -- names are distinct, so an earlier rule can take the name as its camel-case spelling only
  have others (e : RegisteredRule) (he : e ∈ before) :
      e.name.Spells entry.name.text ↔ e.name.camelCase = entry.name.text := by
    have distinct := built.nodup
    rw [split, List.map_append, List.map_cons, List.nodup_append] at distinct
    have differs : entry.name.text ≠ e.name.text := by
      intro same
      exact distinct.2.2 _ (List.mem_map_of_mem he) _ (List.mem_cons_self ..)
        (RuleName.text_inj.mp same.symm)
    simp [RuleName.Spells, differs, eq_comm]
  rw [has_iff built resolved member, built.isAsked_iff member, plugin]
  simp only [built.picks_iff split, enabled, Bool.true_eq_false, false_or, and_true]
  constructor
  · rintro ⟨word, wordListed, rfl | rfl, unspelled⟩
    · exact .inl fun e he => mt (others e he).mpr (unspelled e he)
    · exact .inr ⟨wordListed, unspelled⟩
  · rintro (free | ⟨aliasListed, free⟩)
    · exact ⟨_, listed, .inl rfl, fun e he => mt (others e he).mp (free e he)⟩
    · exact ⟨_, aliasListed, .inr rfl, free⟩

/-- The plugin `company-rule` takes part when it is listed. -/
theorem has_listed_companyRule :
    let entry : RegisteredRule :=
      ⟨⟨"company-rule", by decide⟩, { Rule.HexColor.rule with name := "company-rule" }, true⟩
    let registry : Registry := ⟨Registry.builtin.entries ++ [entry]⟩
    let c : Config := ⟨[], [], ["company-rule"], .empty⟩
    registry.Built ∧ entry.plugin = true ∧ entry.name.text ∈ c.linters ∧
      (c.configOf entry).enabled = true ∧
      ∃ active notices, resolve registry c = .ok (active, notices) ∧ active.Has entry.name := by
  intro entry registry c
  have built : registry.Built := Registry.built_builtin.concat rfl (by decide) (by decide)
  have enabled : (c.configOf entry).enabled = true := by decide +kernel
  obtain ⟨⟨active, notices⟩, resolved⟩ : ∃ result, resolve registry c = .ok result :=
    exists_ok_of_isOk (by decide +kernel)
  refine ⟨built, rfl, by decide, enabled, active, notices, resolved, ?_⟩
  exact (has_listed_plugin_iff built resolved rfl rfl (by decide) enabled).mpr
    (.inl (by decide +kernel))

/-- The plugin `hexLength` is listed by its own name and enabled, but the word picks the rule
    `hex-length` before it, and the plugin does not take part. -/
theorem not_has_hexLength :
    let entry : RegisteredRule :=
      ⟨⟨"hexLength", by decide⟩, { Rule.HexColor.rule with name := "hexLength" }, true⟩
    let registry : Registry := ⟨Registry.builtin.entries ++ [entry]⟩
    let c : Config := ⟨[], [], ["hexLength"], .empty⟩
    registry.Built ∧ entry ∈ registry.entries ∧ entry.plugin = true ∧
      entry.name.text ∈ c.linters ∧ (c.configOf entry).enabled = true ∧
      ∃ active notices, resolve registry c = .ok (active, notices) ∧ ¬ active.Has entry.name := by
  intro entry registry c
  have built : registry.Built := Registry.built_builtin.concat rfl (by decide) (by decide)
  have member : entry ∈ registry.entries := List.mem_append_right _ (List.mem_singleton_self _)
  have unasked : registry.isAsked c entry = false := by decide +kernel
  obtain ⟨⟨active, notices⟩, resolved⟩ : ∃ result, resolve registry c = .ok result :=
    exists_ok_of_isOk (by decide +kernel)
  refine ⟨built, member, rfl, by decide, by decide +kernel, active, notices, resolved, ?_⟩
  rw [has_iff built resolved member, unasked]
  simp

end Selection

end SheetLint
