import SheetLint.Proofs.Registration

/-!
# Runs of registrations

A registry after any number of calls, some of which may fail. Its rules are those of the calls that
succeeded, in their order, and a name leads to the first of these calls that has it
(`Registry.after_calls`). A call that fails leaves no trace.
-/

namespace SheetLint

/-- A call that registers a rule, either as one that is always on or as a plugin. -/
structure Registration where
  rule : Rule
  plugin : Bool

/-- The call by which a rule has come into a registry. -/
def RegisteredRule.call (e : RegisteredRule) : Registration :=
  ⟨e.rule, e.plugin⟩

namespace Registry

variable {r r' : Registry} {c : Registration} {e : RuleError} {name : String}

/-- Why a call is refused. The name is looked at first, then the kinds of nodes, and then the rules
    that are registered. -/
inductive Refused (r : Registry) (c : Registration) : RuleError → Prop
  | name (invalid : RuleName.isValid c.rule.name = false) :
      Refused r c (.invalidDefinition ("invalid rule name '" ++ c.rule.name ++ "'"))
  | kinds (valid : RuleName.isValid c.rule.name = true) (none : c.rule.kinds = []) :
      Refused r c (.invalidDefinition ("rule '" ++ c.rule.name ++ "' declares no node kinds"))
  | duplicate (valid : RuleName.isValid c.rule.name = true) (some : c.rule.kinds ≠ [])
      (taken : ∃ entry ∈ r.entries, entry.name.text = c.rule.name) :
      Refused r c (.duplicate c.rule.name)

/-- A call is refused for one of the reasons, or it succeeds. -/
theorem refused_or_registered (r : Registry) (c : Registration) :
    (∃ e, Refused r c e) ∨ ∃ r', r.register c.rule c.plugin = .ok r' := by
  cases valid : RuleName.isValid c.rule.name with
  | false => exact .inl ⟨_, .name valid⟩
  | true =>
    by_cases kinds : c.rule.kinds = []
    · exact .inl ⟨_, .kinds valid kinds⟩
    · by_cases taken : ∃ entry ∈ r.entries, entry.name.text = c.rule.name
      · exact .inl ⟨_, .duplicate valid kinds taken⟩
      · have free : ∀ entry ∈ r.entries, entry.name ≠ ⟨c.rule.name, valid⟩ := by
          intro entry member same
          exact taken ⟨entry, member, congrArg RuleName.text same⟩
        exact .inr ⟨_, register_eq_ok.mpr ⟨⟨c.rule.name, valid⟩, rfl, kinds, free, rfl⟩⟩

/-- A registration that has to be refused is refused with that error. -/
theorem Refused.register_eq (h : Refused r c e) : r.register c.rule c.plugin = .error e := by
  cases h with
  | name invalid => rw [register, RuleName.ofString?, dif_neg (by simp [invalid])]
  | kinds valid none =>
    rw [register, RuleName.ofString?, dif_pos valid]
    simp [none]
  | duplicate valid some taken =>
    have found : (r.get? c.rule.name).isSome = true := by
      rw [Option.isSome_iff_ne_none, Ne, get?_eq_none]
      intro free
      obtain ⟨entry, member, same⟩ := taken
      exact free entry member same
    rw [register, RuleName.ofString?, dif_pos valid]
    simp [some, found]

/-- Registration fails exactly where it has to be refused. -/
theorem register_eq_error : r.register c.rule c.plugin = .error e ↔ Refused r c e := by
  constructor
  · intro failed
    rcases refused_or_registered r c with ⟨e', refused⟩ | ⟨r', registered⟩
    · rw [refused.register_eq] at failed
      cases failed
      exact refused
    · rw [registered] at failed
      cases failed
  · exact Refused.register_eq

/-- A call fails exactly if its name or its kinds are at fault, or its name is taken. -/
theorem exists_refused_iff : (∃ e, Refused r c e) ↔
    RuleName.isValid c.rule.name = false ∨ c.rule.kinds = [] ∨
      ∃ entry ∈ r.entries, entry.name.text = c.rule.name := by
  constructor
  · intro h
    obtain ⟨e, refused⟩ := h
    cases refused with
    | name invalid => exact .inl invalid
    | kinds _ none => exact .inr (.inl none)
    | duplicate _ _ taken => exact .inr (.inr taken)
  · intro h
    cases valid : RuleName.isValid c.rule.name with
    | false => exact ⟨_, .name valid⟩
    | true =>
      by_cases kinds : c.rule.kinds = []
      · exact ⟨_, .kinds valid kinds⟩
      · rcases h with invalid | none | taken
        · rw [valid] at invalid
          cases invalid
        · exact absurd none kinds
        · exact ⟨_, .duplicate valid kinds taken⟩

/-- The registry after a call. A call that fails changes nothing. -/
def attempt (r : Registry) (c : Registration) : Registry :=
  match r.register c.rule c.plugin with
  | .ok r' => r'
  | .error _ => r

/-- The registry after some calls. -/
def after (r : Registry) (calls : List Registration) : Registry :=
  calls.foldl attempt r

/-- Those of some calls that succeed, in their order. -/
def accepted (r : Registry) : List Registration → List Registration
  | [] => []
  | c :: calls =>
    match r.register c.rule c.plugin with
    | .ok r' => c :: r'.accepted calls
    | .error _ => r.accepted calls

/-- The calls by which the rules of a registry have come into it. -/
def history (r : Registry) : List Registration :=
  r.entries.map (·.call)

theorem attempt_of_ok (h : r.register c.rule c.plugin = .ok r') : r.attempt c = r' := by
  rw [attempt, h]

theorem attempt_of_error (h : r.register c.rule c.plugin = .error e) : r.attempt c = r := by
  rw [attempt, h]

theorem accepted_cons_of_ok (h : r.register c.rule c.plugin = .ok r')
    (calls : List Registration) : r.accepted (c :: calls) = c :: r'.accepted calls := by
  rw [accepted, h]

theorem accepted_cons_of_error (h : r.register c.rule c.plugin = .error e)
    (calls : List Registration) : r.accepted (c :: calls) = r.accepted calls := by
  rw [accepted, h]

theorem after_append (r : Registry) (calls more : List Registration) :
    r.after (calls ++ more) = (r.after calls).after more :=
  List.foldl_append

/-- A call behind others succeeds or fails in the registry that they have made. -/
theorem accepted_append (r : Registry) (calls more : List Registration) :
    r.accepted (calls ++ more) = r.accepted calls ++ (r.after calls).accepted more := by
  induction calls generalizing r with
  | nil => rfl
  | cons c calls ih =>
    rw [List.cons_append, after, List.foldl_cons]
    cases registered : r.register c.rule c.plugin with
    | ok r' =>
      rw [accepted_cons_of_ok registered, accepted_cons_of_ok registered,
        attempt_of_ok registered, ih]
      rfl
    | error e =>
      rw [accepted_cons_of_error registered, accepted_cons_of_error registered,
        attempt_of_error registered, ih]
      rfl

/-- A call that succeeds is the last one of the history. -/
theorem history_of_register (h : r.register c.rule c.plugin = .ok r') :
    r'.history = r.history ++ [c] := by
  obtain ⟨name, -, -, -, rfl⟩ := register_eq_ok.mp h
  rw [history, List.map_append]
  rfl

/-- A registry remembers the accepted registrations, in order. -/
theorem history_after (r : Registry) (calls : List Registration) :
    (r.after calls).history = r.history ++ r.accepted calls := by
  induction calls generalizing r with
  | nil => exact (List.append_nil _).symm
  | cons c calls ih =>
    rw [after, List.foldl_cons]
    cases registered : r.register c.rule c.plugin with
    | ok r' =>
      rw [attempt_of_ok registered, accepted_cons_of_ok registered]
      refine (ih r').trans ?_
      rw [history_of_register registered, List.append_assoc]
      rfl
    | error e =>
      rw [attempt_of_error registered, accepted_cons_of_error registered]
      exact ih r

theorem Built.attempt (h : r.Built) (c : Registration) : (r.attempt c).Built := by
  cases registered : r.register c.rule c.plugin with
  | ok r' =>
    rw [attempt_of_ok registered]
    exact .register h registered
  | error e =>
    rw [attempt_of_error registered]
    exact h

theorem Built.after (h : r.Built) (calls : List Registration) : (r.after calls).Built := by
  induction calls generalizing r with
  | nil => exact h
  | cons c calls ih => exact ih (h.attempt c)

/-- Rules are registered under their own names, and look at nodes of some kind. -/
theorem Built.sound (h : r.Built) :
    ∀ entry ∈ r.entries, entry.name.text = entry.rule.name ∧ entry.rule.kinds ≠ [] := by
  induction h with
  | empty => exact List.forall_mem_nil _
  | register _ added ih =>
    obtain ⟨name, named, kinds, -, rfl⟩ := register_eq_ok.mp added
    rw [List.forall_mem_append, List.forall_mem_singleton]
    exact ⟨ih, named, kinds⟩

/-- The history of a registry is a run in which every call succeeds and which ends with the
    registry. -/
theorem Built.replay (h : r.Built) :
    Registry.empty.after r.history = r ∧ Registry.empty.accepted r.history = r.history := by
  induction h with
  | empty => exact ⟨rfl, rfl⟩
  | @register r r' rule plugin _ added ih =>
    let call : Registration := ⟨rule, plugin⟩
    have added : r.register call.rule call.plugin = .ok r' := added
    rw [history_of_register added, after_append, accepted_append, ih.1, ih.2]
    refine ⟨attempt_of_ok added, ?_⟩
    rw [accepted_cons_of_ok added]
    rfl

/-- A name leads to the first call with this name. -/
theorem Built.get?_eq_some (h : r.Built) {entry : RegisteredRule} :
    r.get? name = some entry ↔ entry.name.text = name ∧ entry.rule.name = name ∧
      ∃ before later, r.history = before ++ entry.call :: later ∧
        ∀ c ∈ before, c.rule.name ≠ name := by
  have sound := h.sound
  rw [get?, List.find?_eq_some_iff_append]
  constructor
  · intro found
    obtain ⟨named, before, later, split, others⟩ := found
    have named : entry.name.text = name := by simpa using named
    have member : entry ∈ r.entries := by simp [split]
    refine ⟨named, (sound entry member).1.symm.trans named, before.map (·.call),
      later.map (·.call), ?_, ?_⟩
    · rw [history, split, List.map_append, List.map_cons]
    · intro c hc same
      obtain ⟨other, inside, rfl⟩ := List.mem_map.mp hc
      have otherMember : other ∈ r.entries := by simp [split, inside]
      have differs : other.name.text ≠ name := by simpa using others other inside
      exact differs ((sound other otherMember).1.trans same)
  · intro first
    obtain ⟨named, ruleNamed, before, later, split, others⟩ := first
    obtain ⟨front, rest, entries, rfl, behind⟩ := List.map_eq_append_iff.mp split
    obtain ⟨other, back, rfl, same, -⟩ := List.map_eq_cons_iff.mp behind
    have sameRule : other.rule = entry.rule := congrArg Registration.rule same
    have samePlugin : other.plugin = entry.plugin := congrArg Registration.plugin same
    have sameName : other.name = entry.name := by
      rw [← RuleName.text_inj, (sound other (by simp [entries])).1, sameRule, ruleNamed, named]
    have eq : other = entry := by
      cases other
      cases entry
      simp_all
    refine ⟨by simpa using named, front, back, by rw [entries, eq], ?_⟩
    intro e he
    have differs := others e.call (List.mem_map_of_mem he)
    rw [Bool.not_eq_true', beq_eq_false_iff_ne]
    intro taken
    exact differs ((sound e (by simp [entries, he])).1.symm.trans taken)

theorem Built.get?_eq_none (h : r.Built) :
    r.get? name = none ↔ ∀ c ∈ r.history, c.rule.name ≠ name := by
  rw [Registry.get?_eq_none, history, List.forall_mem_map]
  apply forall₂_congr
  intro e he
  rw [(h.sound e he).1]
  rfl

/-- The registry holds the rules of the calls `log`, all of which have succeeded. -/
structure Ledger (log : List Registration) (r : Registry) : Prop where
  /-- Rules are registered under their own names, which are well formed, and look at some nodes. -/
  sound : ∀ entry ∈ r.entries, RuleName.isValid entry.name.text = true ∧
    entry.name.text = entry.rule.name ∧ entry.rule.kinds ≠ []
  distinct : (r.entries.map (·.name.text)).Nodup
  /-- The rules stand in the order of the calls. -/
  order : r.entries.map (·.call) = log
  /-- These calls alone succeed from the start, and lead to the same registry. -/
  replay : Registry.empty.accepted log = log ∧ Registry.empty.after log = r
  absent : ∀ name, r.get? name = none ↔ ∀ c ∈ log, c.rule.name ≠ name
  /-- A name leads to the first call that has it. -/
  first : ∀ name entry, r.get? name = some entry ↔
    entry.name.text = name ∧ entry.rule.name = name ∧
      ∃ before later, log = before ++ entry.call :: later ∧ ∀ c ∈ before, c.rule.name ≠ name

theorem Built.ledger (h : r.Built) : Ledger r.history r where
  sound entry member := ⟨entry.name.valid, h.sound entry member⟩
  distinct := by
    have distinct := h.nodup.map (f := RuleName.text) fun _ _ => RuleName.text_inj.mp
    rwa [List.map_map] at distinct
  order := rfl
  replay := h.replay.symm
  absent _ := h.get?_eq_none
  first _ _ := h.get?_eq_some

/-- After any calls, from no rules or from the rules that come with the linter, the registry holds
    the rules of the calls that have succeeded. The next call fails for one of three reasons, in
    their order, and then changes nothing. -/
theorem after_calls (start : Registry) (fresh : start = .empty ∨ start = .builtin)
    (calls : List Registration) :
    let r := start.after calls
    Ledger (start.history ++ start.accepted calls) r ∧
      ∀ c, (∀ e, r.register c.rule c.plugin = .error e ↔ Refused r c e) ∧
        ((∃ e, r.register c.rule c.plugin = .error e) ↔
          RuleName.isValid c.rule.name = false ∨ c.rule.kinds = [] ∨
            ∃ entry ∈ r.entries, entry.name.text = c.rule.name) ∧
        ∀ e, r.register c.rule c.plugin = .error e → start.after (calls ++ [c]) = r := by
  intro r
  have built : r.Built := by
    apply Built.after
    rcases fresh with rfl | rfl
    · exact .empty
    · exact built_builtin
  refine ⟨?_, ?_⟩
  · rw [← history_after]
    exact built.ledger
  · intro c
    refine ⟨fun e => register_eq_error, ?_, ?_⟩
    · simp only [register_eq_error]
      exact exists_refused_iff
    · intro e failed
      rw [after_append]
      exact attempt_of_error failed

/-- A plugin and a rule are added to those that come with the linter. Between them four calls fail:
    for a name with a blank, for want of kinds, and twice for a name that is taken. -/
theorem after_calls_builtin :
    let rule (name : String) (kinds : List NodeKind) : Rule :=
      { name, description := "", kinds, check := fun _ _ => .ok [] }
    let calls : List Registration :=
      [⟨rule "no-ids" [.selector], true⟩, ⟨rule "no ids" [.selector], false⟩,
       ⟨rule "blind" [], false⟩, ⟨rule "no-ids" [.value], false⟩,
       ⟨rule "hex-length" [.color], true⟩, ⟨rule "imports" [.atRule], false⟩]
    (builtin.accepted calls).map (·.rule.name) = ["no-ids", "imports"] ∧
      ((builtin.after calls).get? "no-ids").map (·.plugin) = some true ∧
      Ledger (builtin.history ++ builtin.accepted calls) (builtin.after calls) := by
  intro rule calls
  exact ⟨by decide +kernel, by decide +kernel, (after_calls builtin (.inr rfl) calls).1⟩

end Registry

end SheetLint
