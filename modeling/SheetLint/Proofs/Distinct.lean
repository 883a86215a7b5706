import SheetLint.Proofs.Independence
import SheetLint.Proofs.Places
import SheetLint.Proofs.Styles
import Mathlib.Data.List.Flatten

/-!
# Distinct findings

No rule of the linter speaks twice of the same place. A rule speaks of nodes that are the children
of the nodes it is shown, or of these nodes themselves. Every node is the child of one node only,
and what a rule speaks of either has a token of its own or is a value, which stands where its first
child stands.
-/

namespace SheetLint

namespace Node

variable {root : Node}

/-- Every node below the root is the child of exactly one node. -/
theorem perm_flatMap_children (root : Node) :
    (root.walk.flatMap (·.children)).Perm (walkAll root.children) := by
  induction root using induction with
  | step n ih =>
    have forest (ns : List Node)
        (hns : ∀ c ∈ ns, (c.walk.flatMap (·.children)).Perm (walkAll c.children)) :
        (ns ++ (walkAll ns).flatMap (·.children)).Perm (walkAll ns) := by
      induction ns with
      | nil => exact List.Perm.refl _
      | cons c ns ihns =>
        obtain ⟨hc, hns⟩ := List.forall_mem_cons.mp hns
        have moved : (ns ++ (c.walk.flatMap (·.children) ++ (walkAll ns).flatMap (·.children))).Perm
            (c.walk.flatMap (·.children) ++ (ns ++ (walkAll ns).flatMap (·.children))) := by
          rw [← List.append_assoc, ← List.append_assoc]
          exact List.perm_append_comm.append_right _
        rw [walkAll_cons, List.flatMap_append, walk_eq c, List.cons_append, List.cons_append]
        refine List.Perm.cons c ?_
        rw [← walk_eq c]
        exact moved.trans (hc.append (ihns hns))
    rw [walk_eq, List.flatMap_cons]
    exact forest n.children ih

/-- Children that are picked by a test are nodes of the tree that are picked, none of them twice. -/
theorem nodup_flatMap_children {test : Node → Bool}
    (distinct : ((root.walk.filter test).map (·.position)).Nodup) :
    ((root.walk.flatMap fun n => n.children.filter test).map (·.position)).Nodup := by
  rw [← List.filter_flatMap]
  have below : (walkAll root.children).Sublist root.walk := by
    rw [walk_eq root]
    exact List.sublist_cons_self _ _
  have picked : (((walkAll root.children).filter test).map (·.position)).Nodup :=
    distinct.sublist ((below.filter test).map _)
  exact (((perm_flatMap_children root).filter test).map _).nodup_iff.mpr picked

/-- A value that is not empty. -/
def isInhabitedValue (n : Node) : Bool :=
  n.kind == .value && !n.children.isEmpty

end Node

namespace Stylesheet

variable {source : String} {root : Node}

theorem nodup_owners (parsed : parse source = .ok root) :
    ((root.walk.filter (·.kind.ownsToken)).map (·.position)).Nodup := by
  have distinct := nodup_places parsed
  rwa [Node.places, Node.owners, Node.walkAll_cons, Node.walkAll_nil, List.append_nil] at distinct

/-- The first child of a value has a token of its own and stands where the value stands. -/
theorem head_value (parsed : parse source = .ok root) {v : Node} (member : v ∈ root.walk)
    (isValue : v.isInhabitedValue = true) :
    ∃ c ∈ v.children, c.kind.ownsToken = true ∧ c.position = v.position := by
  simp only [Node.isInhabitedValue, Bool.and_eq_true, beq_iff_eq, Bool.not_eq_true',
    List.isEmpty_eq_false_iff] at isValue
  obtain ⟨isValue, inhabited⟩ := isValue
  obtain ⟨isRoot, shaped⟩ := everywhere_shaped parsed
  obtain ⟨c, rest, children⟩ := List.exists_cons_of_ne_nil inhabited
  refine ⟨c, by simp [children], ?_, ?_⟩
  · have here := shaped v member
    simp only [Node.Shaped, isValue] at here
    have piece : c.kind.isPiece = true := here c.kind (by simp [Node.kinds, children])
    cases h : c.kind <;> simp_all [NodeKind.isPiece, NodeKind.ownsToken]
  · rcases Node.mem_walk.mp member with rfl | ⟨top, isTop, below⟩
    · rw [isRoot] at isValue
      cases isValue
    · have seated := everywhere_seated parsed top isTop v below
      exact seated (by rw [isValue]; rfl) c (by simp [children])

/-- Values that have children stand at places of their own. -/
theorem nodup_values (parsed : parse source = .ok root) :
    ((root.walk.filter Node.isInhabitedValue).map (·.position)).Nodup := by
  have distinct := Node.nodup_flatMap_children (nodup_owners parsed)
  refine distinct.sublist ?_
  -- each value stands at the place of one of its own children
  have seats (vs : List Node) (within : ∀ v ∈ vs, v ∈ root.walk) :
      ((vs.filter Node.isInhabitedValue).map (·.position)).Sublist
        ((vs.flatMap fun n => n.children.filter (·.kind.ownsToken)).map (·.position)) := by
    induction vs with
    | nil => exact List.Sublist.refl _
    | cons v vs ih =>
      obtain ⟨here, within⟩ := List.forall_mem_cons.mp within
      rw [List.flatMap_cons, List.map_append]
      by_cases isValue : v.isInhabitedValue = true
      · obtain ⟨c, isChild, owns, place⟩ := head_value parsed here isValue
        have seat : [v.position].Sublist
            ((v.children.filter (·.kind.ownsToken)).map (·.position)) := by
          rw [List.singleton_sublist, ← place]
          exact List.mem_map_of_mem (List.mem_filter.mpr ⟨isChild, owns⟩)
        rw [List.filter_cons_of_pos isValue, List.map_cons]
        exact seat.append (ih within)
      · rw [List.filter_cons_of_neg isValue]
        exact (ih within).trans (List.sublist_append_right _ _)
  exact seats root.walk fun _ member => member

end Stylesheet

/-- A check that is collected from several nodes reports the spots of these nodes in order. -/
theorem RuleConfig.reports_collect {config : RuleConfig}
    {check : Node → Except RuleError (List Diagnostic)} {spots : Node → List Node}
    (reports : ∀ n ds, check n = .ok ds → config.Reports (spots n) ds) {ns : List Node}
    {ds : List Diagnostic} (h : collect check ns = .ok ds) :
    config.Reports (ns.flatMap spots) ds := by
  induction ns generalizing ds with
  | nil =>
    cases h
    exact reports_nil config _
  | cons n ns ih =>
    rw [collect_cons] at h
    obtain ⟨first, here, h⟩ := bind_eq_ok.mp h
    obtain ⟨rest, behind, made⟩ := bind_eq_ok.mp h
    cases made
    exact (reports n first here).append (ih behind)

namespace Rule

variable {source : String} {root : Node} {n : Node}

/-- The nodes that a rule is shown. -/
def shown (rule : Rule) (root : Node) : List Node :=
  root.walk.filter fun n => rule.kinds.contains n.kind

/-- What stands behind a property is a blank or the colon. -/
theorem PropertySpacing.spots_sublist (shaped : n.Shaped) (kind : n.kind = .declaration) :
    (PropertySpacing.spots n).Sublist (n.children.filter (·.kind.ownsToken)) := by
  obtain ⟨property, next, rest, children, first⟩ := children_declaration shaped kind
  have kindNext : next.kind = .space ∨ next.kind = .colon := by
    simp only [Node.Shaped, kind, Node.kinds, children, List.map_cons, List.mem_cons,
      List.cons.injEq, List.not_mem_nil, or_false] at shaped
    grind
  have index : n.indexOf? .property = some 0 := first ▸ indexOf?_eq_zero children
  have spots : PropertySpacing.spots n = [next] := by
    simp [PropertySpacing.spots, index, children]
  rw [spots, List.singleton_sublist, List.mem_filter]
  refine ⟨by simp [children], ?_⟩
  rcases kindNext with kindNext | kindNext <;> rw [kindNext] <;> rfl

/-- Borders are reported at values that are not empty. -/
theorem Border.spots_sublist (n : Node) :
    (Border.spots n).Sublist (n.children.filter Node.isInhabitedValue) := by
  cases found : n.first? .value with
  | none => simp [Border.spots, found]
  | some value =>
    have member : value ∈ n.children := List.mem_of_find?_eq_some found
    have kind : value.kind = .value := by simpa using List.find?_some found
    by_cases empty : value.children = []
    · simp [Border.spots, found, Option.filter_some, empty]
    · have spots : Border.spots n = [value] := by simp [Border.spots, found, empty]
      rw [spots, List.singleton_sublist, List.mem_filter]
      exact ⟨member, by simp [Node.isInhabitedValue, kind, empty]⟩

theorem CommaSpacing.spots_sublist (n : Node) :
    (CommaSpacing.spots n).Sublist (n.children.filter (·.kind.ownsToken)) := by
  apply List.monotone_filter_right
  intro c isComma
  simp only [CommaSpacing.isComma, Bool.and_eq_true, beq_iff_eq] at isComma
  rw [isComma.1]
  rfl

/-- A rule speaks of each place once. -/
def Distinct (rule : Rule) (root : Node) : Prop :=
  ∀ config ds, collect (rule.check config) (rule.shown root) = .ok ds →
    (ds.map (·.position)).Nodup

/-- If a rule speaks of children of the nodes that it is shown, picked by a test, and no two nodes
    that the test picks stand at the same place, then the rule speaks of each place once. -/
theorem distinct_of_children {rule : Rule} {spots : Node → List Node} {test : Node → Bool}
    (reports : ∀ config n ds, rule.check config n = .ok ds → config.Reports (spots n) ds)
    (children : ∀ n ∈ rule.shown root, (spots n).Sublist (n.children.filter test))
    (places : ((root.walk.filter test).map (·.position)).Nodup) : rule.Distinct root := by
  intro config ds checked
  have found := RuleConfig.reports_collect (reports config) checked
  have within : ((rule.shown root).flatMap spots).Sublist
      (root.walk.flatMap fun n => n.children.filter test) :=
    (List.Sublist.flatMap_right _ children).trans (List.filter_sublist.flatMap _)
  exact (Node.nodup_flatMap_children places).sublist (found.positions.trans (within.map _))

theorem Border.distinct (parsed : Stylesheet.parse source = .ok root) :
    Border.rule.Distinct root :=
  distinct_of_children (fun _ _ _ => Border.reports) (fun n _ => Border.spots_sublist n)
    (Stylesheet.nodup_values parsed)

theorem CommaSpacing.distinct (parsed : Stylesheet.parse source = .ok root) :
    CommaSpacing.rule.Distinct root :=
  distinct_of_children (fun _ _ _ => CommaSpacing.reports)
    (fun n _ => CommaSpacing.spots_sublist n) (Stylesheet.nodup_owners parsed)

theorem PropertySpacing.distinct (parsed : Stylesheet.parse source = .ok root) :
    PropertySpacing.rule.Distinct root := by
  refine distinct_of_children (fun _ _ _ => PropertySpacing.reports) ?_
    (Stylesheet.nodup_owners parsed)
  intro n isShown
  obtain ⟨member, kind⟩ := List.mem_filter.mp isShown
  exact PropertySpacing.spots_sublist ((Stylesheet.everywhere_shaped parsed).2 n member)
    (by simpa [PropertySpacing.rule] using kind)

/-- A colour is judged by itself. -/
theorem HexColor.distinct (parsed : Stylesheet.parse source = .ok root) :
    HexColor.rule.Distinct root := by
  intro config ds checked
  have found := RuleConfig.reports_collect (fun _ _ => HexColor.reports) checked
  have within : ((HexColor.rule.shown root).flatMap HexColor.spots).Sublist
      (root.walk.filter (·.kind.ownsToken)) := by
    rw [show HexColor.spots = fun n => [n] from rfl, List.flatMap_singleton']
    apply List.monotone_filter_right
    intro n kind
    have kind : n.kind = .color := by simpa [HexColor.rule] using kind
    rw [kind]
    rfl
  exact (Stylesheet.nodup_owners parsed).sublist (found.positions.trans (within.map _))

end Rule

theorem Registry.distinct_builtin {source : String} {root : Node}
    (parsed : Stylesheet.parse source = .ok root) :
    ∀ entry ∈ builtin.entries, entry.rule.Distinct root := by
  intro entry member
  simp only [builtin, List.mem_cons, List.not_mem_nil, or_false] at member
  rcases member with rfl | rfl | rfl | rfl
  · exact Rule.Border.distinct parsed
  · exact Rule.HexColor.distinct parsed
  · exact Rule.PropertySpacing.distinct parsed
  · exact Rule.CommaSpacing.distinct parsed

/-- A check by one rule shows it the nodes of its kinds. -/
theorem traverse_singleton {active : ActiveRules} {a : ActiveRule} (indexed : active.Indexed)
    (rules : active.rules.toList = [a]) (root : Node) :
    traverse active root = collect (a.rule.check a.config) (a.rule.shown root) := by
  have alone (n : Node) : callsAt active n =
      if a.rule.kinds.contains n.kind then [⟨a, n⟩] else [] := by
    rw [callsAt, indexed.scan, rules, List.filter_cons]
    split <;> rfl
  rw [traverse_eq_collect, calls, collect_flatMap, Rule.shown, collect_filter]
  congr 1
  funext n
  rw [alone]
  split
  · rw [collect_cons, collect_nil, Call.run]
    cases a.rule.check a.config n with
    | error e => rfl
    | ok found => exact congrArg Except.ok (List.append_nil found)
  · rfl

theorem traverse_of_rules_eq_nil {active : ActiveRules} (indexed : active.Indexed)
    (rules : active.rules.toList = []) (root : Node) : traverse active root = .ok [] := by
  have silent (n : Node) : callsAt active n = [] := by
    rw [callsAt, indexed.scan, rules]
    rfl
  have none : calls active root = [] := by
    simp [calls, silent]
  rw [traverse_eq_collect, none]
  rfl

/-- Findings are distinct if those of each rule are. -/
theorem nodup_of_rules {ds : List Diagnostic}
    (h : ∀ name, ((ds.filter fun d => decide (d.rule = name)).map (·.position)).Nodup) :
    (ds.map fun d => (d.rule, d.position)).Nodup := by
  induction ds with
  | nil => exact List.nodup_nil
  | cons d ds ih =>
    rw [List.map_cons, List.nodup_cons]
    refine ⟨?_, ih fun name => ?_⟩
    · intro again
      obtain ⟨other, member, same⟩ := List.mem_map.mp again
      obtain ⟨rule, position⟩ := Prod.mk.inj same
      have here := h d.rule
      rw [List.filter_cons_of_pos (by simp), List.map_cons, List.nodup_cons] at here
      apply here.1
      rw [← position]
      exact List.mem_map_of_mem (List.mem_filter.mpr ⟨member, by simpa using rule⟩)
    · exact (h name).sublist (((List.sublist_cons_self d ds).filter _).map _)

/-- At most one rule that takes part has a name. -/
theorem rules_named {registry : Registry} {c : Config} {active : ActiveRules}
    {notices : List Notice} (built : registry.Built)
    (resolved : resolve registry c = .ok (active, notices)) (name : RuleName) :
    active.rules.toList.filter (fun a => decide (a.config.rule = name)) = [] ∨
      ∃ a ∈ active.rules.toList,
        active.rules.toList.filter (fun a => decide (a.config.rule = name)) = [a] := by
  have distinct : (active.rules.toList.map (·.config.rule)).Nodup := by
    rw [rules_of_resolve resolved]
    have names := (registry.sublist_selected c).map Prod.fst
    rw [List.map_map, List.map_map] at names
    exact built.nodup.sublist names
  cases found : active.rules.toList.filter (fun a => decide (a.config.rule = name)) with
  | nil => exact .inl rfl
  | cons a others =>
    have named : ∀ b ∈ a :: others, b ∈ active.rules.toList ∧ b.config.rule = name := by
      intro b hb
      rw [← found, List.mem_filter] at hb
      exact ⟨hb.1, of_decide_eq_true hb.2⟩
    cases others with
    | nil => exact .inr ⟨a, (named a (by simp)).1, rfl⟩
    | cons b others =>
      exfalso
      have twice : ((a :: b :: others).map (·.config.rule)).Nodup := by
        rw [← found]
        exact distinct.sublist (List.filter_sublist.map _)
      rw [List.map_cons, List.map_cons, (named a (by simp)).2, (named b (by simp)).2] at twice
      exact (List.nodup_cons.mp twice).1 List.mem_cons_self

/-- No finding is reported twice: of the findings about a style sheet, no two of the same rule are
    about the same place. -/
theorem checkTree_nodup {source : String} {root : Node} {c : Config} {active : ActiveRules}
    {notices : List Notice} {file : Path} {ds : List Diagnostic}
    (parsed : Stylesheet.parse source = .ok root)
    (resolved : resolve .builtin c = .ok (active, notices))
    (checked : (checkTree active file root).outcome = .ok ds) :
    (ds.map fun d => (d.rule, d.position)).Nodup := by
  cases traversed : traverse active root with
  | error e => simp [checkTree, traversed] at checked
  | ok found =>
    simp only [checkTree, traversed, Except.ok.injEq] at checked
    subst checked
    rw [List.map_map]
    refine nodup_of_rules fun name => ?_
    have signs : ∀ a ∈ active.rules.toList, a.rule.Signs := by
      intro a present
      obtain ⟨entry, member, rfl⟩ := exists_entry_of_mem_rules resolved present
      exact Registry.signs_builtin entry member
    have alone := traverse_restrict (fun rule => decide (rule = name)) (indexed_of_resolve resolved)
      (ActiveRules.indexed_ofList _) signs (ActiveRules.rules_ofList _) traversed
    rcases rules_named Registry.built_builtin resolved name with none | ⟨a, present, one⟩
    · rw [traverse_of_rules_eq_nil (ActiveRules.indexed_ofList _)
        ((ActiveRules.rules_ofList _).trans none)] at alone
      rw [← Except.ok.inj alone]
      exact List.nodup_nil
    · obtain ⟨entry, member, rfl⟩ := exists_entry_of_mem_rules resolved present
      rw [traverse_singleton (ActiveRules.indexed_ofList _)
        ((ActiveRules.rules_ofList _).trans one)] at alone
      exact Registry.distinct_builtin parsed entry member _ _ alone

/-- Two commas on different levels, a border, a colour and a blank are found fault with, each
    once. -/
theorem checkTree_nodup_nested : ∃ root active notices ds,
    Stylesheet.parse "a\x7bb: f(x,y),z; border:0; c :#abc\x7d" = .ok root ∧
    resolve .builtin .default = .ok (active, notices) ∧
    (checkTree active "a.less" root).outcome = .ok ds ∧
    ds.map (fun d => (d.rule.text, d.position)) =
      [("space-around-comma", ⟨1, 12⟩), ("space-around-comma", ⟨1, 9⟩), ("border-zero", ⟨1, 23⟩),
        ("space-after-property-name", ⟨1, 27⟩), ("hex-length", ⟨1, 29⟩)] ∧
    (ds.map fun d => (d.rule, d.position)).Nodup := by
  obtain ⟨root, parsed⟩ :
      ∃ root, Stylesheet.parse "a\x7bb: f(x,y),z; border:0; c :#abc\x7d" = .ok root :=
    exists_ok_of_isOk (by decide +kernel)
  obtain ⟨⟨active, notices⟩, resolved⟩ : ∃ result, resolve .builtin .default = .ok result :=
    exists_ok_of_isOk (by decide +kernel)
  have computed : (do
      let root ← (Stylesheet.parse "a\x7bb: f(x,y),z; border:0; c :#abc\x7d").toOption
      let result ← (resolve .builtin .default).toOption
      let ds ← (checkTree result.1 "a.less" root).outcome.toOption
      return ds.map (fun d => (d.rule.text, d.position))) = some
        [("space-around-comma", ⟨1, 12⟩), ("space-around-comma", ⟨1, 9⟩), ("border-zero", ⟨1, 23⟩),
          ("space-after-property-name", ⟨1, 27⟩), ("hex-length", ⟨1, 29⟩)] := by decide +kernel
  rw [parsed, resolved] at computed
  cases checked : (checkTree active "a.less" root).outcome with
  | error e => simp [Except.toOption, checked] at computed
  | ok ds =>
    refine ⟨root, active, notices, ds, parsed, resolved, checked, ?_,
      checkTree_nodup parsed resolved checked⟩
    simpa [Except.toOption, checked] using computed

end SheetLint
