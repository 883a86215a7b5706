import SheetLint.Proofs.KindIndex
import SheetLint.Proofs.CarriageReturns.Stylesheets
import SheetLint.Proofs.Selection
import SheetLint.Proofs.Traversal

/-!
# Findings with carriage returns

What it changes for a check that the lines of a style sheet end with a carriage return and a line
feed instead of a line feed alone (`checkTree_crlf`). The style sheet is refused if a string in it
goes over a line break, and a finding about a blank directly behind a line comment is one column
further. Nothing else changes: each rule says the same about related nodes.
-/

namespace SheetLint

/-- The finding one column further if it is about one of the places. -/
def Diagnostic.moved (ps : List Position) (d : Diagnostic) : Diagnostic :=
  { d with position := d.position.moved ps }

/-- What came of some calls, with each finding one column further if it is about one of the
    places. -/
def movedAll {ε : Type} (ps : List Position) (x : Except ε (List Diagnostic)) :
    Except ε (List Diagnostic) :=
  x.map (List.map (Diagnostic.moved ps))

section Moved

variable {ε α : Type} {ps : List Position}

@[simp]
theorem movedAll_ok (ds : List Diagnostic) :
    movedAll ps (.ok ds : Except ε _) = .ok (ds.map (Diagnostic.moved ps)) := rfl

@[simp]
theorem movedAll_error (e : ε) : movedAll ps (.error e) = .error e := rfl

theorem movedAll_join (x y : Except ε (List Diagnostic)) :
    movedAll ps (do
      let first ← x
      let rest ← y
      return first ++ rest) = (do
      let first ← movedAll ps x
      let rest ← movedAll ps y
      return first ++ rest) := by
  cases x with
  | error e => rfl
  | ok first =>
    cases y with
    | error e => rfl
    | ok rest => exact congrArg Except.ok List.map_append

theorem collect_moved {f f' : α → Except ε (List Diagnostic)} {xs : List α}
    (h : ∀ x ∈ xs, f' x = movedAll ps (f x)) : collect f' xs = movedAll ps (collect f xs) := by
  induction xs with
  | nil => rfl
  | cons x xs ih =>
    obtain ⟨here, behind⟩ := List.forall_mem_cons.mp h
    rw [collect_cons, collect_cons, movedAll_join, here, ih behind]

end Moved

namespace Node

variable {ps : List Position} {n n' : Node} {ns ns' : List Node}

theorem Akin.label (h : Akin ps [n] [n']) : Labelled ps n n' := by
  cases h with
  | cons label => exact label

/-- Outside of brackets all children are related. -/
theorem Akin.children (h : Akin ps [n] [n']) (noArguments : n.kind ≠ .arguments)
    (noParentheses : n.kind ≠ .parentheses) : Akin ps n.children n'.children := by
  cases h with
  | cons label children children' contents bracket below rest =>
    obtain ⟨rfl, rfl⟩ := bracket noArguments noParentheses
    rw [children, children']
    exact below

/-- The first nodes of a kind are related. -/
theorem Akin.find? (h : Akin ps ns ns') (kind : NodeKind) :
    (ns.find? (·.kind == kind) = none ∧ ns'.find? (·.kind == kind) = none) ∨
    ∃ m m', ns.find? (·.kind == kind) = some m ∧ ns'.find? (·.kind == kind) = some m' ∧
      Akin ps [m] [m'] := by
  induction h with
  | nil => exact .inl ⟨rfl, rfl⟩
  | @cons n n' _ _ _ _ ns ns' label children children' contents bracket below _ _ ih =>
    rw [List.find?_cons, List.find?_cons, label.kind]
    split
    · exact .inr ⟨n, n', rfl, rfl, .cons label children children' contents bracket below .nil⟩
    · exact ih

theorem Akin.head? (h : Akin ps ns ns') :
    (ns.head? = none ∧ ns'.head? = none) ∨
    ∃ m m', ns.head? = some m ∧ ns'.head? = some m' ∧ Labelled ps m m' := by
  cases h with
  | nil => exact .inl ⟨rfl, rfl⟩
  | cons label => exact .inr ⟨_, _, rfl, rfl, label⟩

theorem Akin.findIdx? (h : Akin ps ns ns') (kind : NodeKind) :
    ns'.findIdx? (·.kind == kind) = ns.findIdx? (·.kind == kind) := by
  induction h with
  | nil => rfl
  | cons label _ _ _ _ _ _ _ ih => rw [List.findIdx?_cons, List.findIdx?_cons, label.kind, ih]

theorem Akin.getElem? (h : Akin ps ns ns') (i : Nat) :
    (ns[i]? = none ∧ ns'[i]? = none) ∨
    ∃ m m', ns[i]? = some m ∧ ns'[i]? = some m' ∧ Labelled ps m m' := by
  induction h generalizing i with
  | nil => exact .inl ⟨rfl, rfl⟩
  | cons label _ _ _ _ _ _ _ ih =>
    cases i with
    | zero => exact .inr ⟨_, _, rfl, rfl, label⟩
    | succ i => exact ih i

/-- Contents are leaves for strings and blanks. -/
theorem Contents.leaves (h : Contents ns ns') :
    (∀ n ∈ ns, (n.kind = .string ∨ n.kind = .space) ∧ n.children = []) ∧
      ∀ n ∈ ns', (n.kind = .string ∨ n.kind = .space) ∧ n.children = [] := by
  have strings {ns : List Node} (h : ∀ n ∈ ns, n.IsString) :
      ∀ n ∈ ns, (n.kind = .string ∨ n.kind = .space) ∧ n.children = [] :=
    fun n hn => ⟨.inl (h n hn).kind, (h n hn).children⟩
  have spaced {ns : List Node} {b : Node} (h : ∀ n ∈ ns, n.IsString) (space : b.IsSpace) :
      ∀ n ∈ ns ++ [b], (n.kind = .string ∨ n.kind = .space) ∧ n.children = [] :=
    List.forall_mem_append.mpr
      ⟨strings h, List.forall_mem_singleton.mpr ⟨.inr space.kind, space.children⟩⟩
  cases h with
  | bare here here' => exact ⟨strings here, strings here'⟩
  | blank here here' space space' _ => exact ⟨spaced here space, spaced here' space'⟩

/-- Both nodes have this plain word for their content, or neither has. -/
theorem Labelled.content_eq_iff (h : Labelled ps n n') {word : String}
    (plain : ¬ Text.Odd word.toList) : n'.content = word ↔ n.content = word := by
  have same := h.content.eq_iff plain
  rwa [String.toList_inj, String.toList_inj] at same

end Node

/-! ### The rules -/

namespace Rule

variable {ps : List Position} {config : RuleConfig} {n n' : Node} {ns ns' fs fs' : List Node}

/-- The rule says the same about related nodes, one column further where the place has moved. -/
def Follows (rule : Rule) : Prop :=
  ∀ ps config n n', n.kind ∈ rule.kinds → Node.Akin ps [n] [n'] →
    rule.check config n' = movedAll ps (rule.check config n)

theorem moved_toList (message : Option String) (p : Position) :
    (message.map (config.diagnostic (p.moved ps))).toList =
      (message.map (config.diagnostic p)).toList.map (Diagnostic.moved ps) := by
  cases message <;> rfl

/-- Whether a node is one of the border properties does not depend on line breaks. -/
theorem Border.contains_properties (label : Node.Labelled ps n n') :
    properties.contains n'.content = properties.contains n.content := by
  have plain : ∀ word ∈ properties, ¬ Text.Odd word.toList := by decide
  rw [Bool.eq_iff_iff, List.contains_iff_mem, List.contains_iff_mem]
  constructor
  · intro member
    have same := (label.content_eq_iff (plain _ member)).mp rfl
    rwa [same]
  · intro member
    have same := (label.content_eq_iff (plain _ member)).mpr rfl
    rwa [same]

/-- A border is absent in both declarations or in neither, and both say so alike. -/
theorem Border.absentBorder?_akin (kind : n.kind = .declaration) (akin : Node.Akin ps [n] [n']) :
    (absentBorder? n').map (fun found => (found.1.position, found.2)) =
      (absentBorder? n).map fun found => (found.1.position.moved ps, found.2) := by
  have below := akin.children (by simp [kind]) (by simp [kind])
  unfold absentBorder? Node.first?
  rcases below.find? .property with ⟨none, none'⟩ | ⟨property, property', some, some', same⟩
  · rw [none, none']
    rfl
  have isProperty := contains_properties same.label
  rcases below.find? .value with ⟨none, none'⟩ | ⟨value, value', found, found', sameValue⟩
  · rw [some, some', none, none']
    simp
  have valueKind : value.kind = .value := by simpa using List.find?_some found
  have inside := sameValue.children (by simp [valueKind]) (by simp [valueKind])
  rcases inside.head? with ⟨empty, empty'⟩ | ⟨head, head', first, first', sameHead⟩
  · simp [some, some', found, found', empty, empty']
  have zero : head'.content = "0" ↔ head.content = "0" := sameHead.content_eq_iff (by decide)
  have word : head'.content = "none" ↔ head.content = "none" := sameHead.content_eq_iff (by decide)
  simp only [some, some', found, found', first, first', Option.bind_eq_bind, Option.bind_some,
    isProperty, zero, word]
  by_cases isBorder : properties.contains property.content = true
  · by_cases absent : head.content = "0" ∨ head.content = "none"
    · have content : head'.content = head.content := by
        rcases absent with isZero | isWord
        · rw [isZero, zero.mpr isZero]
        · rw [isWord, word.mpr isWord]
      rw [guard, if_pos isBorder, guard, if_pos absent, content]
      exact congrArg (fun p => Option.some (p, head.content)) sameValue.label.position
    · rw [guard, if_pos isBorder, guard, if_neg absent]
      rfl
  · rw [guard, if_neg isBorder]
    rfl

/-- The findings on borders move with the nodes. -/
theorem Border.follows : Border.rule.Follows := by
  intro ps config n n' kind akin
  have kind : n.kind = .declaration := by simpa [Border.rule] using kind
  have absent := Border.absentBorder?_akin kind akin
  show Border.check config n' = movedAll ps (Border.check config n)
  unfold Border.check
  cases found : Border.absentBorder? n with
  | none =>
    rw [found] at absent
    rw [Option.map_eq_none_iff.mp absent]
    rfl
  | some pair =>
    rw [found] at absent
    obtain ⟨pair', found', same⟩ := Option.map_eq_some_iff.mp absent
    obtain ⟨position, content⟩ := Prod.mk.inj same
    rw [found']
    dsimp only
    rw [position, content]
    cases config.styleIn Border.styles with
    | error e => rfl
    | ok style => exact congrArg Except.ok (moved_toList _ _)

/-- The findings on colours move with the nodes. -/
theorem HexColor.follows : HexColor.rule.Follows := by
  intro ps config n n' kind akin
  have kind : n.kind = .color := by simpa [HexColor.rule] using kind
  have label := akin.label
  show HexColor.check config n' = movedAll ps (HexColor.check config n)
  unfold HexColor.check
  rw [label.colour kind, label.position]
  cases config.styleIn HexColor.styles with
  | error e => rfl
  | ok style =>
    show (if _ then _ else _) = movedAll ps (if _ then _ else _)
    split
    · rfl
    · rfl

theorem PropertySpacing.complaint?_akin (label : Node.Labelled ps n n') (style : Style) :
    complaint? style n' = complaint? style n := by
  have space : n'.content = " " ↔ n.content = " " := label.content_eq_iff (by decide)
  unfold complaint?
  rw [label.kind]
  simp only [space]

/-- The findings on spaces behind property names move with the nodes. -/
theorem PropertySpacing.follows : PropertySpacing.rule.Follows := by
  intro ps config n n' kind akin
  have kind : n.kind = .declaration := by simpa [PropertySpacing.rule] using kind
  have below := akin.children (by simp [kind]) (by simp [kind])
  show PropertySpacing.check config n' = movedAll ps (PropertySpacing.check config n)
  unfold PropertySpacing.check Node.indexOf?
  rw [below.findIdx?]
  cases config.styleIn PropertySpacing.styles with
  | error e => rfl
  | ok style =>
    cases n.children.findIdx? (·.kind == .property) with
    | none => rfl
    | some index =>
      rcases below.getElem? (index + 1) with ⟨none, none'⟩ | ⟨next, next', some, some', label⟩
      · simp only [none, none']
        rfl
      · simp only [some, some', complaint?_akin label, label.position]
        exact congrArg Except.ok (moved_toList _ _)

theorem CommaSpacing.isComma_akin (label : Node.Labelled ps n n') : isComma n' = isComma n := by
  have comma : n'.content = "," ↔ n.content = "," := label.content_eq_iff (by decide)
  unfold isComma
  rw [label.kind, Bool.eq_iff_iff]
  simp only [Bool.and_eq_true, beq_iff_eq, comma]

theorem CommaSpacing.spacing?_akin (label : Node.Labelled ps n n') :
    spacing? (some n') = spacing? (some n) := by
  unfold spacing?
  by_cases space : n.kind = .space
  · have space' : n'.kind = .space := label.kind.trans space
    simpa [Option.filter, space, space', Text.unbroken] using label.blank space
  · have space' : n'.kind ≠ .space := by rwa [label.kind]
    simp [Option.filter, space, space']

/-- Related siblings are judged alike if the blanks in front of them are alike. -/
theorem CommaSpacing.report_akin (akin : Node.Akin ps ns ns') (style : Style)
    {previous previous' : Option Node} (before : spacing? previous' = spacing? previous) :
    report config style previous' ns' =
      (report config style previous ns).map (Diagnostic.moved ps) := by
  induction akin generalizing previous previous' with
  | nil => rfl
  | @cons n n' _ _ _ _ ns ns' label _ _ _ _ _ rest _ ih =>
    have after : spacing? ns'.head? = spacing? ns.head? := by
      rcases rest.head? with ⟨none, none'⟩ | ⟨m, m', some, some', labelNext⟩
      · rw [none, none']
      · rw [some, some', spacing?_akin labelNext]
    rw [report, report, List.map_append, ih (spacing?_akin label), isComma_akin label, before,
      after, label.position, moved_toList]

/-- Nothing is said about strings and blanks. -/
theorem CommaSpacing.report_leaves (style : Style) (previous : Option Node)
    (kinds : ∀ n ∈ fs, n.kind = .string ∨ n.kind = .space) :
    report config style previous (fs ++ ns) = report config style (fs.getLast?.or previous) ns := by
  induction fs generalizing previous with
  | nil => rfl
  | cons n fs ih =>
    obtain ⟨kind, kinds⟩ := List.forall_mem_cons.mp kinds
    have noComma : isComma n = false := by
      rcases kind with kind | kind <;> simp [isComma, kind]
    rw [List.cons_append, report, noComma, ih _ kinds, List.getLast?_cons]
    cases fs.getLast? <;> rfl

/-- The blank at the end of the contents of a bracket is judged alike. -/
theorem CommaSpacing.spacing?_contents (contents : Node.Contents fs fs') :
    spacing? fs'.getLast? = spacing? fs.getLast? := by
  have strings {fs : List Node} (h : ∀ n ∈ fs, n.IsString) : spacing? fs.getLast? = none := by
    cases last : fs.getLast? with
    | none => rfl
    | some n => simp [spacing?, Option.filter, (h n (List.mem_of_getLast? last)).kind]
  cases contents with
  | bare here here' => rw [strings here, strings here']
  | blank here here' space space' text =>
    rw [List.getLast?_concat, List.getLast?_concat]
    simpa [spacing?, Option.filter, space.kind, space'.kind, Text.unbroken] using text

/-- The findings on spaces at commas move with the nodes. -/
theorem CommaSpacing.follows : CommaSpacing.rule.Follows := by
  intro ps config n n' _ akin
  show CommaSpacing.check config n' = movedAll ps (CommaSpacing.check config n)
  unfold CommaSpacing.check
  cases config.styleIn CommaSpacing.styles with
  | error e => rfl
  | ok style =>
    cases akin with
    | cons label children children' contents bracket below rest =>
      have leaves := contents.leaves
      show Except.ok (report config style none n'.children) =
        movedAll ps (.ok (report config style none n.children))
      rw [children, children', report_leaves style none fun n hn => (leaves.1 n hn).1,
        report_leaves style none fun n hn => (leaves.2 n hn).1, Option.or_none, Option.or_none,
        report_akin below style (spacing?_contents contents)]
      rfl

end Rule

theorem Registry.follows_builtin : ∀ entry ∈ builtin.entries, entry.rule.Follows := by
  intro entry member
  simp only [builtin, List.mem_cons, List.not_mem_nil, or_false] at member
  rcases member with rfl | rfl | rfl | rfl
  · exact Rule.Border.follows
  · exact Rule.HexColor.follows
  · exact Rule.PropertySpacing.follows
  · exact Rule.CommaSpacing.follows

/-- No rule of the linter looks at strings or at blanks. -/
theorem Registry.kinds_builtin : ∀ entry ∈ builtin.entries,
    NodeKind.string ∉ entry.rule.kinds ∧ NodeKind.space ∉ entry.rule.kinds := by
  intro entry member
  simp only [builtin, List.mem_cons, List.not_mem_nil, or_false] at member
  rcases member with rfl | rfl | rfl | rfl <;> decide

section Check

variable {ps : List Position} {c : Config} {active : ActiveRules} {notices : List Notice}
  {n n' root root' : Node} {ns ns' : List Node}

/-- A rule that looks at a kind of nodes in a run is one of the linter. -/
theorem exists_entry_of_mem_rulesFor (resolved : resolve .builtin c = .ok (active, notices))
    {kind : NodeKind} {a : ActiveRule} (member : a ∈ active.rulesFor kind) :
    kind ∈ a.rule.kinds ∧ ∃ entry ∈ Registry.builtin.entries, a.rule = entry.rule := by
  rw [(indexed_of_resolve resolved).scan, List.mem_filter] at member
  obtain ⟨entry, registered, rfl⟩ := exists_entry_of_mem_rules resolved member.1
  exact ⟨by simpa using member.2, entry, registered, rfl⟩

theorem checkNode_akin (resolved : resolve .builtin c = .ok (active, notices))
    (akin : Node.Akin ps [n] [n']) : checkNode active n' = movedAll ps (checkNode active n) := by
  rw [checkNode, mapM_flatten_eq_collect, checkNode, mapM_flatten_eq_collect, akin.label.kind]
  apply collect_moved
  intro a member
  obtain ⟨kind, entry, registered, same⟩ := exists_entry_of_mem_rulesFor resolved member
  rw [same] at kind ⊢
  exact Registry.follows_builtin entry registered ps a.config n n' kind akin

/-- Nothing is said about the contents of urls. -/
theorem collect_leaves (resolved : resolve .builtin c = .ok (active, notices))
    (leaves : ∀ n ∈ ns, (n.kind = .string ∨ n.kind = .space) ∧ n.children = []) :
    collect (checkNode active) (Node.walkAll ns) = .ok [] := by
  have none {kind : NodeKind} (isLeaf : kind = .string ∨ kind = .space) :
      active.rulesFor kind = [] := by
    rw [List.eq_nil_iff_forall_not_mem]
    intro a member
    obtain ⟨looks, entry, registered, same⟩ := exists_entry_of_mem_rulesFor resolved member
    rw [same] at looks
    obtain ⟨noString, noSpace⟩ := Registry.kinds_builtin entry registered
    rcases isLeaf with rfl | rfl
    · exact noString looks
    · exact noSpace looks
  induction ns with
  | nil => rfl
  | cons n ns ih =>
    obtain ⟨⟨kind, children⟩, leaves⟩ := List.forall_mem_cons.mp leaves
    rw [Node.walkAll_cons, Node.walk_eq, children, collect_append, ih leaves, collect_cons,
      checkNode, none kind]
    rfl

/-- The findings about related trees are the same, up to their columns. -/
theorem collect_akin (resolved : resolve .builtin c = .ok (active, notices))
    (akin : Node.Akin ps ns ns') :
    collect (checkNode active) (Node.walkAll ns') =
      movedAll ps (collect (checkNode active) (Node.walkAll ns)) := by
  induction akin with
  | nil => rfl
  | @cons n n' _ _ cs cs' _ _ label children children' contents bracket below _ ihBelow ih =>
    have here := checkNode_akin resolved
      (.cons label children children' contents bracket below .nil)
    have skip {fs : List Node} (cs : List Node)
        (leaves : ∀ n ∈ fs, (n.kind = .string ∨ n.kind = .space) ∧ n.children = []) :
        collect (checkNode active) (Node.walkAll (fs ++ cs)) =
          collect (checkNode active) (Node.walkAll cs) := by
      rw [Node.walkAll_append, collect_append, collect_leaves resolved leaves]
      cases collect (checkNode active) (Node.walkAll cs) <;> rfl
    rw [Node.walkAll_cons, Node.walkAll_cons, Node.walk_eq, Node.walk_eq, collect_append,
      collect_append, collect_cons, collect_cons, children, children', skip cs contents.leaves.1,
      skip cs' contents.leaves.2, movedAll_join, movedAll_join, here, ihBelow, ih]

theorem traverse_akin (resolved : resolve .builtin c = .ok (active, notices))
    (akin : Node.Akin ps [root] [root']) :
    traverse active root' = movedAll ps (traverse active root) := by
  have walked (root : Node) :
      traverse active root = collect (checkNode active) (Node.walkAll [root]) := by
    rw [traverse, mapM_flatten_eq_collect, Node.preorder, Node.visit_eq_walkAll]
  rw [walked, walked, collect_akin resolved akin]

/-- Checks of two related trees give the same fault, or the same findings at their new places. -/
theorem checkTree_akin (resolved : resolve .builtin c = .ok (active, notices))
    (akin : Node.Akin ps [root] [root']) (file : Path) :
    (checkTree active file root').outcome = movedAll ps (checkTree active file root).outcome := by
  have traversed := traverse_akin resolved akin
  unfold checkTree
  rw [traversed]
  cases traverse active root with
  | error e => rfl
  | ok ds =>
    simp only [movedAll_ok, List.map_map]
    rfl

end Check

/-- Findings stay where they are if they are about other places. -/
theorem movedAll_eq_self_iff {ps : List Position} (result : CheckResult) :
    movedAll ps result.outcome = result.outcome ↔ ∀ d ∈ result.diagnostics, d.position ∉ ps := by
  have stays (d : Diagnostic) : d.moved ps = id d ↔ d.position ∉ ps := by
    constructor
    · intro same member
      have column := congrArg (·.position.column) same
      simp [Diagnostic.moved, Position.moved, member, Position.shift] at column
    · intro elsewhere
      rw [Diagnostic.moved, Position.moved, if_neg elsewhere]
      rfl
  unfold CheckResult.diagnostics
  cases result.outcome with
  | error e => simp
  | ok ds =>
    have all : ds.map (Diagnostic.moved ps) = ds.map id ↔ ∀ d ∈ ds, d.moved ps = id d :=
      List.map_inj_left
    rw [List.map_id] at all
    simp only [movedAll_ok, Except.ok.injEq, all, stays]

/-! ### Style sheets with other line endings -/

/-- The text with a carriage return in front of each line feed. -/
def Text.withReturns (source : String) : String :=
  String.ofList (crlf source.toList)

namespace Stylesheet

theorem withoutMark_of_mark {source : String} {cs : List Char}
    (h : source.toList = '\ufeff' :: cs) : withoutMark source = String.ofList cs := by
  unfold withoutMark
  rw [h]
  rfl

theorem withoutMark_of_not {source : String} (h : ∀ cs, source.toList ≠ '\ufeff' :: cs) :
    withoutMark source = source := by
  unfold withoutMark
  split
  · rename_i cs mark
    exact absurd mark (h cs)
  · rfl

/-- A byte-order mark is found in front of both texts or of neither. -/
theorem withoutMark_withReturns (source : String) :
    withoutMark (Text.withReturns source) = Text.withReturns (withoutMark source) := by
  have text : (Text.withReturns source).toList = Text.crlf source.toList := String.toList_ofList
  by_cases marked : ∃ cs, source.toList = '\ufeff' :: cs
  · obtain ⟨cs, mark⟩ := marked
    rw [mark, Text.crlf_cons (by decide)] at text
    rw [withoutMark_of_mark text, withoutMark_of_mark mark, Text.withReturns, String.toList_ofList]
  · have unmarked : ∀ cs, source.toList ≠ '\ufeff' :: cs := not_exists.mp marked
    have unmarked' : ∀ cs, (Text.withReturns source).toList ≠ '\ufeff' :: cs := by
      intro cs mark
      rw [text] at mark
      cases first : source.toList with
      | nil => simp [first] at mark
      | cons c rest =>
        rw [first] at mark
        by_cases newline : c = '\n'
        · subst newline
          cases mark
        · rw [Text.crlf_cons newline] at mark
          cases mark
          exact unmarked rest first
    rw [withoutMark_of_not unmarked, withoutMark_of_not unmarked']

theorem parse_eq_ok {source : String} {root : Node} : parse source = .ok root ↔
    ∃ ts, Token.tokenize (withoutMark source) = .ok ts ∧ ofTokens ts = .ok root :=
  bind_eq_ok

/-- The text begins in front of all line comments. -/
theorem start_moved {source : String} {ts : List Token} (h : Token.tokenize source = .ok ts) :
    Position.start.moved (Token.behindLineComments ts) = .start := by
  rw [Position.moved, if_neg]
  intro member
  obtain ⟨us, comment, t, vs, rfl, -, place⟩ := Token.mem_behindLineComments.mp member
  have tiles := (Token.tiles_of_tokenize h).1
  rw [Token.tiles_append, Token.tiles_cons, Token.tiles_cons] at tiles
  obtain ⟨-, -, some, later, -⟩ := tiles
  rw [place, ← Position.advance_append] at later
  have behind : Position.start <
      Position.start.advance (Token.joined us ++ comment.text.toList) :=
    Position.lt_advance _ (by simp [some])
  rw [← later] at behind
  exact Position.lt_irrefl _ behind

/-- A style sheet with the other line endings is read to a related tree, unless a string goes over a
    line break; then it is refused. -/
theorem parse_withReturns {source : String} {root : Node} {ts : List Token}
    (h : ofTokens ts = .ok root) (tokens : Token.tokenize (withoutMark source) = .ok ts) :
    (∃ root', parse (Text.withReturns source) = .ok root' ∧
      Node.Akin (Token.behindLineComments ts) [root] [root'] ∧ ¬ ∃ t ∈ ts, t.IsBroken) ∨
    ((∃ e, parse (Text.withReturns source) = .error e) ∧ ∃ t ∈ ts, t.IsBroken) := by
  unfold parse
  rw [withoutMark_withReturns]
  rcases Token.tokenize_crlf tokens with ⟨ts', tokens', recast, whole⟩ | ⟨⟨e, failed⟩, broken⟩
  · obtain ⟨root', read', akin⟩ := ofTokens_recast recast (start_moved tokens) h
    exact .inl ⟨root', bind_eq_ok.mpr ⟨ts', tokens', read'⟩, akin, whole⟩
  · refine .inr ⟨⟨e, ?_⟩, broken⟩
    rw [Text.withReturns, failed]
    rfl

end Stylesheet

/-- What the line endings change. A style sheet that is read with line feeds is read with carriage
    returns in front of them, too, exactly if no string in it goes over a line break; and then every
    check of the two trees comes to the same end, but for the findings about places directly behind
    line comments, which are one column further. -/
theorem checkTree_crlf {source : String} {root : Node}
    (parsed : Stylesheet.parse source = .ok root) :
    ∃ ts, Token.tokenize (Stylesheet.withoutMark source) = .ok ts ∧
      ((∃ root', Stylesheet.parse (Text.withReturns source) = .ok root') ↔
        ∀ t ∈ ts, t.kind = .string → '\n' ∉ t.text.toList) ∧
      ∀ root', Stylesheet.parse (Text.withReturns source) = .ok root' →
        ∀ c active notices file, resolve .builtin c = .ok (active, notices) →
          (checkTree active file root').outcome =
            (checkTree active file root).outcome.map
              (List.map (Diagnostic.moved (Token.behindLineComments ts))) ∧
          ((checkTree active file root').outcome = (checkTree active file root).outcome ↔
            ∀ d ∈ (checkTree active file root).diagnostics,
              d.position ∉ Token.behindLineComments ts) := by
  obtain ⟨ts, tokens, read⟩ := Stylesheet.parse_eq_ok.mp parsed
  have strings : (∀ t ∈ ts, t.kind = .string → '\n' ∉ t.text.toList) ↔ ¬ ∃ t ∈ ts, t.IsBroken := by
    simp [Token.IsBroken]
  refine ⟨ts, tokens, ?_, ?_⟩
  · rw [strings]
    rcases Stylesheet.parse_withReturns read tokens with
      ⟨root', parsed', -, whole⟩ | ⟨⟨e, failed⟩, broken⟩
    · exact ⟨fun _ => whole, fun _ => ⟨root', parsed'⟩⟩
    · refine ⟨?_, fun whole => absurd broken whole⟩
      rintro ⟨root', parsed'⟩
      rw [failed] at parsed'
      cases parsed'
  · intro root' parsed' c active notices file resolved
    rcases Stylesheet.parse_withReturns read tokens with
      ⟨other, again, akin, -⟩ | ⟨⟨e, failed⟩, -⟩
    · rw [parsed'] at again
      cases again
      have outcome := checkTree_akin resolved akin file
      refine ⟨outcome, ?_⟩
      rw [outcome, movedAll_eq_self_iff]
    · rw [failed] at parsed'
      cases parsed'

/-- Of the three findings about a style sheet with a line comment and a url over line breaks, the
    one behind the comment moves. -/
theorem checkTree_crlf_comment : ∃ root root' active notices,
    Stylesheet.parse "a\x7bb//c\n:c;d:url(\n),f(x,\ny)\x7d" = .ok root ∧
    Stylesheet.parse (Text.withReturns "a\x7bb//c\n:c;d:url(\n),f(x,\ny)\x7d") = .ok root' ∧
    resolve .builtin .default = .ok (active, notices) ∧
    (checkTree active "a.less" root).diagnostics.map (·.position) =
      [⟨1, 7⟩, ⟨3, 2⟩, ⟨3, 6⟩] ∧
    (checkTree active "a.less" root').diagnostics.map (·.position) =
      [⟨1, 8⟩, ⟨3, 2⟩, ⟨3, 6⟩] := by
  obtain ⟨root, parsed⟩ :
      ∃ root, Stylesheet.parse "a\x7bb//c\n:c;d:url(\n),f(x,\ny)\x7d" = .ok root :=
    exists_ok_of_isOk (by decide +kernel)
  obtain ⟨⟨active, notices⟩, resolved⟩ : ∃ result, resolve .builtin .default = .ok result :=
    exists_ok_of_isOk (by decide +kernel)
  obtain ⟨ts, tokens, accepted, checks⟩ := checkTree_crlf parsed
  have known : (Token.tokenize
      (Stylesheet.withoutMark "a\x7bb//c\n:c;d:url(\n),f(x,\ny)\x7d")).toOption.map (fun ts =>
        (decide (∀ t ∈ ts, t.kind = .string → '\n' ∉ t.text.toList),
          Token.behindLineComments ts)) = some (true, [⟨1, 7⟩]) := by decide +kernel
  have found : (do
      let root ← (Stylesheet.parse "a\x7bb//c\n:c;d:url(\n),f(x,\ny)\x7d").toOption
      let result ← (resolve .builtin .default).toOption
      let ds ← (checkTree result.1 "a.less" root).outcome.toOption
      return ds.map (·.position)) = some [⟨1, 7⟩, ⟨3, 2⟩, ⟨3, 6⟩] := by decide +kernel
  rw [tokens] at known
  simp only [Except.toOption, Option.map_some, Option.some.injEq, Prod.mk.injEq,
    decide_eq_true_eq] at known
  obtain ⟨root', parsed'⟩ := accepted.mpr known.1
  refine ⟨root, root', active, notices, parsed, parsed', resolved, ?_⟩
  obtain ⟨moved, -⟩ := checks root' parsed' .default active notices "a.less" resolved
  rw [parsed, resolved] at found
  unfold CheckResult.diagnostics
  rw [moved, known.2]
  cases outcome : (checkTree active "a.less" root).outcome with
  | error e => simp [Except.toOption, outcome] at found
  | ok ds =>
    have places : ds.map (·.position) = [⟨1, 7⟩, ⟨3, 2⟩, ⟨3, 6⟩] := by
      simpa [Except.toOption, outcome] using found
    refine ⟨places, ?_⟩
    have again := congrArg (List.map (Position.moved [⟨1, 7⟩])) places
    rw [List.map_map] at again
    show (ds.map (Diagnostic.moved [⟨1, 7⟩])).map (·.position) = _
    rw [List.map_map]
    exact again

/-- A string whose line break is escaped is read with a line feed, and not found fault with; with a
    carriage return and a line feed the style sheet is refused. -/
theorem parse_crlf_escaped : ∃ root active notices,
    '\r' ∉ "a\x7bb:\"x\\\ny\"\x7d".toList ∧
    Stylesheet.parse "a\x7bb:\"x\\\ny\"\x7d" = .ok root ∧
    resolve .builtin .default = .ok (active, notices) ∧
    (checkTree active "a.less" root).outcome = .ok [] ∧
    Stylesheet.parse (Text.withReturns "a\x7bb:\"x\\\ny\"\x7d") =
      .error ⟨.unterminatedString, ⟨1, 5⟩⟩ := by
  obtain ⟨root, parsed⟩ : ∃ root, Stylesheet.parse "a\x7bb:\"x\\\ny\"\x7d" = .ok root :=
    exists_ok_of_isOk (by decide +kernel)
  obtain ⟨⟨active, notices⟩, resolved⟩ : ∃ result, resolve .builtin .default = .ok result :=
    exists_ok_of_isOk (by decide +kernel)
  have found : (do
      let root ← (Stylesheet.parse "a\x7bb:\"x\\\ny\"\x7d").toOption
      let result ← (resolve .builtin .default).toOption
      (checkTree result.1 "a.less" root).outcome.toOption) = some [] := by decide +kernel
  have refused : (match Stylesheet.parse (Text.withReturns "a\x7bb:\"x\\\ny\"\x7d") with
      | .ok _ => none
      | .error e => some e) = some ⟨.unterminatedString, ⟨1, 5⟩⟩ := by decide +kernel
  rw [parsed, resolved] at found
  refine ⟨root, active, notices, by decide, parsed, resolved, ?_, ?_⟩
  · cases outcome : (checkTree active "a.less" root).outcome with
    | error e => simp [Except.toOption, outcome] at found
    | ok ds => simpa [Except.toOption, outcome] using found
  · cases again : Stylesheet.parse (Text.withReturns "a\x7bb:\"x\\\ny\"\x7d") with
    | ok _ => simp [again] at refused
    | error e => simpa [again] using refused

end SheetLint
