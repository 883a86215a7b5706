import SheetLint.Proofs.Selection

/-!
# Keys for no rule

A configuration may say something under a key that means no rule of the registry. There is one
notice for each such key, in the order of the keys, and what is said there has no effect: the keys
can be taken out, and their values changed, and the same rules take part with the same
configurations (`resolve_unknownKeys`).
-/

namespace SheetLint

namespace RuleTable

/-- The table with the value under each key changed, or taken out where `change` gives none. -/
def alter (t : RuleTable) (change : String → RuleValue → Option RuleValue) : RuleTable where
  entries := t.entries.filterMap fun e => (change e.1 e.2).map (e.1, ·)
  sorted := by
    refine t.sorted.filterMap _ ?_
    rintro e e' before a made a' made'
    obtain ⟨v, -, rfl⟩ := Option.map_eq_some_iff.mp made
    obtain ⟨v', -, rfl⟩ := Option.map_eq_some_iff.mp made'
    exact before

theorem lookup_eq_none_of_lt {key : String} {es : List (String × RuleValue)}
    (h : ∀ e ∈ es, key < e.1) : es.lookup key = none := by
  rw [List.lookup_eq_none_iff]
  intro e member
  exact bne_iff_ne.mpr (String.ne_of_lt (h e member))

/-- Keys are met once, so a value that is taken out does not uncover another one. -/
theorem get?_alter (t : RuleTable) (change : String → RuleValue → Option RuleValue) (key : String) :
    (t.alter change).get? key = (t.get? key).bind (change key) := by
  obtain ⟨es, sorted⟩ := t
  show (es.filterMap fun e => (change e.1 e.2).map (e.1, ·)).lookup key =
    (es.lookup key).bind (change key)
  induction es with
  | nil => rfl
  | cons e es ih =>
    obtain ⟨k, v⟩ := e
    obtain ⟨first, behind⟩ := List.pairwise_cons.mp sorted
    rw [lookup_cons]
    by_cases here : key = k
    · subst here
      have once := ih behind
      rw [lookup_eq_none_of_lt first] at once
      rw [if_pos rfl, Option.bind_some]
      cases changed : change key v with
      | none => simpa [changed] using once
      | some w => simp [changed]
    · rw [if_neg here, ← ih behind]
      cases changed : change k v with
      | none => simp [changed]
      | some w => simp [changed, lookup_cons, here]

end RuleTable

namespace Config

variable {c c' : Config} {entry : RegisteredRule}

/-- A rule is set up by what stands under the two spellings of its name. -/
theorem configOf_congr (h : ∀ key, entry.name.Spells key → c'.rules.get? key = c.rules.get? key) :
    c'.configOf entry = c.configOf entry := by
  simp only [configOf, ruling?, tableAt?, truthAt?, h _ (.inl rfl), h _ (.inr rfl)]

/-- What is said about the rules with values changed or taken out. -/
def alterRules (c : Config) (change : String → RuleValue → Option RuleValue) : Config :=
  { c with rules := c.rules.alter change }

end Config

/-- The selection depends on the plugins that are listed and on the entries under the spellings of
    registered names. -/
theorem Registry.selected_congr {registry : Registry} {c c' : Config}
    (linters : c'.linters = c.linters)
    (h : ∀ entry ∈ registry.entries, ∀ key, entry.name.Spells key →
      c'.rules.get? key = c.rules.get? key) :
    registry.selected c' = registry.selected c := by
  have asked : registry.isAsked c' = registry.isAsked c := by
    funext entry
    rw [isAsked, isAsked, linters]
  rw [selected, selected, asked, Resolution.enabledOf, Resolution.enabledOf]
  congr 1
  apply List.map_congr_left
  intro entry member
  rw [Config.configOf_congr (h entry (List.mem_filter.mp member).1)]

/-- How the notice on a key for no rule begins. -/
def Notice.unknownRuleWords : String := "Ignoring configuration for unknown rule"

/-- The text is a notice on a key for no rule. -/
def Notice.isOnUnknownRule (text : String) : Bool :=
  unknownRuleWords.toList.isPrefixOf text.toList

/-- Texts that differ in their first characters do not begin alike, whatever follows. -/
theorem isPrefixOf_append_eq_false {words front : String} {n : Nat} (long : n ≤ words.toList.length)
    (long' : n ≤ front.toList.length)
    (differ : words.toList.take n ≠ front.toList.take n) (s : String) :
    words.toList.isPrefixOf (front ++ s).toList = false := by
  rw [← Bool.not_eq_true, List.isPrefixOf_iff_prefix, String.toList_append]
  rintro ⟨rest, same⟩
  have alike := congrArg (List.take n) same
  rw [List.take_append_of_le_length long, List.take_append_of_le_length long'] at alike
  exact differ alike

theorem isPrefixOf_append_of_prefix {words front : String} (begins : words.toList <+: front.toList)
    (s : String) : words.toList.isPrefixOf (front ++ s).toList = true := by
  rw [List.isPrefixOf_iff_prefix, String.toList_append]
  exact begins.trans (List.prefix_append _ _)

theorem Notice.isOnUnknownRule_unknownRule (key : String) :
    isOnUnknownRule (unknownRule key).message = true := by
  have begins : unknownRuleWords.toList <+: "Ignoring configuration for unknown rule '".toList :=
    List.isPrefixOf_iff_prefix.mp (by decide +kernel)
  have words : (unknownRule key).message =
      "Ignoring configuration for unknown rule '" ++ (key ++ "'") := String.append_assoc ..
  rw [words]
  exact isPrefixOf_append_of_prefix begins _

theorem Notice.isOnUnknownRule_overruledToggle (rule : RuleName) (enabled : Bool) :
    isOnUnknownRule (overruledToggle rule enabled).message = false := by
  have regroup (a b c d e : String) : a ++ b ++ c ++ d ++ e = a ++ (b ++ (c ++ (d ++ e))) := by
    simp only [String.append_assoc]
  obtain ⟨s, words⟩ : ∃ s, (overruledToggle rule enabled).message = "Ignoring '" ++ s :=
    ⟨_, regroup ..⟩
  rw [words]
  have long : 10 ≤ unknownRuleWords.toList.length := by decide +kernel
  exact isPrefixOf_append_eq_false long (by decide +kernel) (by decide +kernel) s

section Resolve

variable {registry : Registry} {c : Config}

/-- A list of plugins in which every word means a rule is not refused. -/
theorem exists_resolve_eq_ok
    (known : ∀ word ∈ c.linters, ∃ entry ∈ registry.entries, entry.name.Spells word) :
    ∃ active notices, resolve registry c = .ok (active, notices) := by
  cases resolved : resolve registry c with
  | ok result => exact ⟨result.1, result.2, rfl⟩
  | error e =>
    obtain ⟨before, word, after, split, -, unknown, -⟩ :=
      Resolution.requested_eq_error.mp (resolve_eq_error.mp resolved)
    obtain ⟨entry, member, spells⟩ := known word (by simp [split])
    exact absurd spells (unknown entry member)

/-- The keys that are no spelling of the name of a registered rule. -/
def Config.unknownKeys (c : Config) (registry : Registry) : List String :=
  c.rules.keys.filter fun key =>
    ∀ entry ∈ registry.entries, key ≠ entry.name.text ∧ key ≠ entry.name.camelCase

theorem filter_isNone_meant? :
    (c.rules.keys.filter fun key => (registry.meant? key).isNone) = c.unknownKeys registry := by
  apply List.filter_congr
  intro key _
  rw [Bool.eq_iff_iff, Option.isNone_iff_eq_none, Registry.meant?_eq_none, decide_eq_true_iff]
  simp only [RuleName.Spells, not_or, ne_eq]

/-- Each unknown key is named in one message, in the order of the keys. -/
theorem filter_message_saidInVain :
    ((registry.saidInVain c).map (·.message)).filter Notice.isOnUnknownRule =
      (c.unknownKeys registry).map fun key =>
        "Ignoring configuration for unknown rule '" ++ key ++ "'" := by
  rw [Registry.saidInVain, filter_isNone_meant?, List.map_append, List.filter_append, List.map_map]
  have kept : ((c.unknownKeys registry).map (Notice.message ∘ .unknownRule)).filter
      Notice.isOnUnknownRule = (c.unknownKeys registry).map (Notice.message ∘ .unknownRule) := by
    apply List.filter_eq_self.mpr
    intro text member
    obtain ⟨key, -, rfl⟩ := List.mem_map.mp member
    exact Notice.isOnUnknownRule_unknownRule key
  have others : ((Resolution.overrulings c (registry.entries.filter (registry.isAsked c))).map
      (·.message)).filter Notice.isOnUnknownRule = [] := by
    apply List.filter_eq_nil_iff.mpr
    intro text member
    obtain ⟨notice, said, rfl⟩ := List.mem_map.mp member
    obtain ⟨entry, -, made⟩ := List.mem_filterMap.mp said
    obtain ⟨enabled, -, rfl⟩ := Option.map_eq_some_iff.mp made
    simp [Notice.isOnUnknownRule_overruledToggle]
  rw [kept, others, List.append_nil]
  rfl

/-- If every listed plugin is known, the resolution tells of each key that is neither the name of a
    registered rule nor its camel-case spelling, once and in the order of the keys. With any of
    these keys taken out and the values of others changed, the same rules take part in the same
    order, with the same configurations and under the same index. -/
theorem resolve_unknownKeys (registry : Registry) (c : Config)
    (known : ∀ word ∈ c.linters, ∃ entry ∈ registry.entries, entry.name.Spells word) :
    ∃ active notices, resolve registry c = .ok (active, notices) ∧
      (notices.map (·.message)).filter Notice.isOnUnknownRule =
        (c.unknownKeys registry).map (fun key =>
          "Ignoring configuration for unknown rule '" ++ key ++ "'") ∧
      (c.unknownKeys registry).Pairwise (· < ·) ∧
      ∀ change : String → RuleValue → Option RuleValue,
        (∀ entry ∈ registry.entries, ∀ key, entry.name.Spells key →
          ∀ value, change key value = some value) →
        ∃ notices', resolve registry (c.alterRules change) = .ok (active, notices') := by
  obtain ⟨active, notices, resolved⟩ := exists_resolve_eq_ok known
  obtain ⟨selected, said⟩ := resolve_eq_ok resolved
  refine ⟨active, notices, resolved, ?_, ?_, ?_⟩
  · rw [said]
    exact filter_message_saidInVain
  · exact (List.pairwise_map.mpr c.rules.sorted).filter _
  · intro change keeps
    obtain ⟨active', notices', resolved'⟩ : ∃ active' notices',
        resolve registry (c.alterRules change) = .ok (active', notices') :=
      exists_resolve_eq_ok known
    have same : registry.selected (c.alterRules change) = registry.selected c := by
      refine Registry.selected_congr rfl fun entry member key spells => ?_
      show (c.rules.alter change).get? key = c.rules.get? key
      rw [RuleTable.get?_alter]
      cases said : c.rules.get? key with
      | none => rfl
      | some value => exact keeps entry member key spells value
    have equal : active' = active := by
      rw [selected, (resolve_eq_ok resolved').1, same]
    exact ⟨notices', equal ▸ resolved'⟩

/-- Beside `border-zero`, which is known, there are notices on two keys. One of them is taken out
    and the value under the other is changed, and the same rules take part. -/
theorem resolve_unknownKeys_two :
    let c : Config := ⟨[], [], ["borderZero"],
      RuleTable.empty.insert "zero" (.settings ⟨none, none, some "short"⟩)
        |>.insert "border-zero" (.toggle false) |>.insert "Nope" (.toggle true)⟩
    let change (key : String) (value : RuleValue) : Option RuleValue :=
      if key = "Nope" then none else if key = "zero" then some (.toggle false) else some value
    (∀ word ∈ c.linters, ∃ entry ∈ Registry.builtin.entries, entry.name.Spells word) ∧
    (c.alterRules change).rules.entries =
      [("border-zero", .toggle false), ("zero", .toggle false)] ∧
    ∃ active notices notices', resolve .builtin c = .ok (active, notices) ∧
      (notices.map (·.message)).filter Notice.isOnUnknownRule =
        ["Ignoring configuration for unknown rule 'Nope'",
          "Ignoring configuration for unknown rule 'zero'"] ∧
      resolve .builtin (c.alterRules change) = .ok (active, notices') := by
  intro c change
  have known : ∀ word ∈ c.linters, ∃ entry ∈ Registry.builtin.entries, entry.name.Spells word := by
    simp only [RuleName.Spells]
    decide +kernel
  have free : ∀ entry ∈ Registry.builtin.entries,
      ¬ entry.name.Spells "Nope" ∧ ¬ entry.name.Spells "zero" := by
    simp only [RuleName.Spells]
    decide +kernel
  obtain ⟨active, notices, resolved, told, -, inert⟩ := resolve_unknownKeys .builtin c known
  obtain ⟨notices', resolved'⟩ := inert change (by
    intro entry member key spells value
    have notNope : key ≠ "Nope" := by
      rintro rfl
      exact (free entry member).1 spells
    have notZero : key ≠ "zero" := by
      rintro rfl
      exact (free entry member).2 spells
    simp only [change, if_neg notNope, if_neg notZero])
  have unknown : c.unknownKeys .builtin = ["Nope", "zero"] := by decide +kernel
  rw [unknown] at told
  refine ⟨known, by decide +kernel, active, notices, notices', resolved, ?_, resolved'⟩
  rw [told]
  decide +kernel

end Resolve

end SheetLint
