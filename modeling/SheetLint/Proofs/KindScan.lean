import SheetLint.Proofs.Resolution

/-!
# Scans of the rules

The index of kinds is what a scan of all rules would write down: the places of the rules that name a
kind, in ascending order and each place once. So looking up a kind finds the rules that a scan
finds, in the order in which they were added (`ActiveRules.scans_pushed`).
-/

namespace SheetLint.ActiveRules

/-- The rules of a run are these in this order. Beyond what a lookup needs, the index of each kind
    holds the places of exactly those that name the kind, in ascending order. -/
structure Scans (rules : List ActiveRule) (active : ActiveRules) : Prop extends active.Indexed where
  all : active.rules.toList = rules
  noted : ∀ kind place,
    place ∈ active.index kind ↔ ∃ r, rules[place]? = some r ∧ kind ∈ r.rule.kinds
  ascending : ∀ kind, (active.index kind).Pairwise (· < ·)

theorem ofList_concat (rules : List ActiveRule) (r : ActiveRule) :
    ofList (rules ++ [r]) = (ofList rules).push r :=
  List.foldl_concat ..

/-- The index of a kind is what a scan writes down. -/
theorem index_ofList (rules : List ActiveRule) (kind : NodeKind) :
    (ofList rules).index kind =
      (List.range rules.length).filter fun place =>
        rules[place]?.any (·.rule.kinds.contains kind) := by
  induction rules using List.reverseRecOn with
  | nil => rfl
  | append_singleton rules r ih =>
    have size : (ofList rules).rules.size = rules.length := by
      rw [← Array.length_toList, rules_ofList]
    have earlier : (List.range rules.length).filter (fun place =>
          (rules ++ [r])[place]?.any (·.rule.kinds.contains kind)) =
        (ofList rules).index kind := by
      rw [ih]
      apply List.filter_congr
      intro place before
      rw [List.getElem?_append_left (List.mem_range.mp before)]
    rw [ofList_concat, index_push (indexed_ofList rules), size, List.length_append,
      List.length_singleton, List.range_succ, List.filter_append, earlier]
    by_cases wanted : kind ∈ r.rule.kinds <;> simp [wanted]

theorem scans_ofList (rules : List ActiveRule) : Scans rules (ofList rules) where
  toIndexed := indexed_ofList rules
  all := rules_ofList rules
  noted kind place := by
    rw [index_ofList, List.mem_filter, List.mem_range, Option.any_eq_true]
    simp only [List.contains_iff_mem]
    constructor
    · exact And.right
    · rintro ⟨r, found, wanted⟩
      exact ⟨(List.getElem?_eq_some_iff.mp found).1, r, found, wanted⟩
  ascending kind := by
    rw [index_ofList]
    exact List.pairwise_lt_range.filter _

/-- However rules are added one by one, the index holds for each kind the places of the rules that
    name it, in ascending order and without repetition, all of them places of rules. So a lookup
    finds exactly the rules that name the kind, each once and with its own configuration, in the
    order in which they were added. This is how every resolution builds up its rules. -/
theorem scans_pushed :
    (∀ rules : List ActiveRule, Scans rules (rules.foldl ActiveRules.push empty)) ∧
    ∀ registry c active notices, resolve registry c = .ok (active, notices) →
      active = (registry.selected c).foldl ActiveRules.push empty ∧
        Scans (registry.selected c) active := by
  refine ⟨scans_ofList, ?_⟩
  intro registry c active notices resolved
  obtain ⟨rfl, -⟩ := resolve_eq_ok resolved
  exact ⟨rfl, scans_ofList _⟩

/-- A plugin that names the kind of declarations twice is noted there once, behind the two rules
    that were registered before it. -/
theorem scans_pushed_twice :
    let entry : RegisteredRule :=
      ⟨⟨"company-rule", by decide⟩,
        { Rule.HexColor.rule with
          name := "company-rule", kinds := [.declaration, .value, .declaration] }, true⟩
    let registry : Registry := ⟨Registry.builtin.entries ++ [entry]⟩
    let c : Config := ⟨[], [], ["companyRule"], .empty⟩
    ∃ result, resolve registry c = .ok result ∧
      (result.1.index .declaration, result.1.index .value) = ([0, 2, 4], [3, 4]) ∧
      Scans (registry.selected c) result.1 := by
  intro entry registry c
  apply exists_ok_of_map_toOption
  · decide +kernel
  · rintro ⟨active, notices⟩ resolved
    exact (scans_pushed.2 _ _ _ _ resolved).2

end SheetLint.ActiveRules
