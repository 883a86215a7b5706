import SheetLint.Proofs.Shape

/-!
# Where nodes come from

Every node below a style sheet is made from a stretch of its tokens in one of a few ways
(`Node.Origin`). The tree is taken apart here once; what is to be said of each of its nodes follows
from the way in which the node is made.
-/

namespace SheetLint

/-- How a node is made from a stretch of the tokens `ts`. -/
inductive Node.Origin (ts : List Token) : Node → Prop
  | leaf {t : Token} {n : Node} {inSelector : Bool} (part : [t] <:+: ts)
      (made : t.leaf? inSelector = some n) : Origin ts n
  | brackets {kind : NodeKind} {o : Token} {children : List Node}
      (isPair : kind = .arguments ∨ kind = .parentheses) (part : [o] <:+: ts)
      (opening : o.isDelimiter '(' = true) : Origin ts (.branch kind o.position children)
  | call {w o : Token} {children : List Node} (part : [w, o] <:+: ts)
      (opening : o.isDelimiter '(' = true) :
      Origin ts ⟨.function, w.text, w.position, [.branch .arguments o.position children]⟩
  | property {first : Token} {more : List Token} (part : first :: more <:+: ts) :
      Origin ts (.leaf .property (Token.sourceText (first :: more)) first.position)
  | space {trivia : List Token} {n : Node} (part : trivia <:+: ts)
      (made : Statement.space? trivia = some n) : Origin ts n
  | colon {t : Token} (part : [t] <:+: ts) (isColon : t.isDelimiter ':' = true) :
      Origin ts (.leaf .colon ":" t.position)
  | value {first : Token} {rest : List Token} {nodes : List Node} (part : first :: rest <:+: ts)
      (start : first.isTrivia = false) (read : values false (first :: rest) = .ok nodes) :
      Origin ts (.branch .value first.position nodes)
  | emptyValue {p : Position} : Origin ts (.branch .value p [])
  | head {kind : NodeKind} {first : Token} {rest : List Token} {nodes : List Node}
      (isHead : kind = .selector ∨ kind = .mixinCall) (part : first :: rest <:+: ts)
      (start : first.isTrivia = false) (read : values true (first :: rest) = .ok nodes) :
      Origin ts ⟨kind, Token.sourceText (first :: rest), first.position, nodes⟩
  | declaration {us rest before after : List Token} {first colon : Token} {n : Node}
      (part : us <:+: ts) (trimmed : Token.trim us = first :: rest)
      (cut : Statement.splitColon? 0 (first :: rest) = some (before, colon, after))
      (read : Statement.declaration before colon after = .ok n) : Origin ts n
  | atRule {name : Token} {children : List Node} (part : [name] <:+: ts)
      (isAt : name.kind = .atWord) :
      Origin ts ⟨.atRule, String.ofList (name.text.toList.drop 1), name.position, children⟩
  | block {brace : Token} {body : List Node} (part : [brace] <:+: ts)
      (opening : brace.isDelimiter '\x7b' = true) : Origin ts (.branch .block brace.position body)
  | ruleset {p : Position} {selector block : Node} (place : selector.position = p) :
      Origin ts (.branch .ruleset p [selector, block])

/-- A token that stands alone is a leaf at its own place. -/
theorem exists_leaf_of_leaf? {inSelector : Bool} {t : Token} {n : Node}
    (h : t.leaf? inSelector = some n) :
    ∃ kind content, kind.isPiece = true ∧ n = .leaf kind content t.position := by
  unfold Token.leaf? at h
  cases kind : t.kind <;> simp only [kind] at h
  case comment => cases h
  case hash => split at h <;> cases h <;> exact ⟨_, _, rfl, rfl⟩
  case number =>
    cases h
    refine ⟨_, _, ?_, rfl⟩
    split <;> rfl
  all_goals
    cases h
    exact ⟨_, _, rfl, rfl⟩

section Values

variable {ts us : List Token} {inSelector : Bool} {ns : List Node}

/-- The nodes of groups come from the tokens that the groups cover. -/
theorem origin_nodesOf {d : Nat} {gs : List Group} (covers : Group.Covers gs us)
    (part : us <:+: ts) (h : Group.nodesOf inSelector d gs = .ok ns) :
    ∀ n ∈ ns, n.Everywhere (Node.Origin ts) := by
  induction covers generalizing d ns with
  | nil =>
    cases h
    simp
  | @single t _ us _ _ _ ih =>
    obtain ⟨rest, behind, rfl⟩ := Group.nodesOf_single.mp h
    have later := ih ((List.suffix_cons t us).isInfix.trans part) behind
    refine List.forall_mem_append.mpr ⟨fun n hn => ?_, later⟩
    have made : t.leaf? inSelector = some n := Option.mem_toList.mp hn
    obtain ⟨kind, content, -, rfl⟩ := exists_leaf_of_leaf? made
    have here : [t] <:+: ts := List.IsInfix.trans ⟨[], us, rfl⟩ part
    exact Node.everywhere_leaf.mpr (.leaf here made)
  | @parens o c _ _ us vs opening _ _ _ ihWithin ih =>
    obtain ⟨-, children, rest, inside, behind, rfl⟩ := Group.nodesOf_parens.mp h
    have here : [o] <:+: ts := List.IsInfix.trans ⟨[], us ++ c :: vs, rfl⟩ part
    have within := ihWithin (List.IsInfix.trans ⟨[o], c :: vs, by simp⟩ part) inside
    have later := ih (List.IsInfix.trans ⟨o :: (us ++ [c]), [], by simp⟩ part) behind
    have brackets : (Node.branch .parentheses o.position children).Everywhere (Node.Origin ts) :=
      Node.everywhere_iff.mpr ⟨.brackets (.inr rfl) here opening, within⟩
    exact List.forall_mem_cons.mpr ⟨brackets, later⟩
  | @call w o c _ _ us vs _ opening _ _ _ ihWithin ih =>
    obtain ⟨-, children, rest, inside, behind, rfl⟩ := Group.nodesOf_call.mp h
    have here : [w, o] <:+: ts := List.IsInfix.trans ⟨[], us ++ c :: vs, rfl⟩ part
    have bracket : [o] <:+: ts := List.IsInfix.trans ⟨[w], [], rfl⟩ here
    have within := ihWithin (List.IsInfix.trans ⟨[w, o], c :: vs, by simp⟩ part) inside
    have later := ih (List.IsInfix.trans ⟨w :: o :: (us ++ [c]), [], by simp⟩ part) behind
    have arguments : (Node.branch .arguments o.position children).Everywhere (Node.Origin ts) :=
      Node.everywhere_iff.mpr ⟨.brackets (.inl rfl) bracket opening, within⟩
    have function : (Node.mk .function w.text w.position
        [.branch .arguments o.position children]).Everywhere (Node.Origin ts) :=
      Node.everywhere_iff.mpr ⟨.call here opening, List.forall_mem_singleton.mpr arguments⟩
    exact List.forall_mem_cons.mpr ⟨function, later⟩

theorem origin_values (part : us <:+: ts) (h : values inSelector us = .ok ns) :
    ∀ n ∈ ns, n.Everywhere (Node.Origin ts) := by
  obtain ⟨gs, covers, nodes⟩ := covers_of_values h
  exact origin_nodesOf covers part nodes

end Values

namespace Statement

variable {ts us rest before after : List Token} {first colon name : Token} {node : Node}
  {nodes : List Node}

theorem exists_leaf_of_space? {trivia : List Token} (h : space? trivia = some node) :
    ∃ content p, node = .leaf .space content p := by
  unfold space? at h
  split at h <;> cases h
  exact ⟨_, _, rfl⟩

theorem origin_space? {trivia : List Token} (part : trivia <:+: ts) :
    ∀ n ∈ (space? trivia).toList, n.Everywhere (Node.Origin ts) := by
  intro n member
  have made : space? trivia = some n := Option.mem_toList.mp member
  obtain ⟨content, p, rfl⟩ := exists_leaf_of_space? made
  exact Node.everywhere_leaf.mpr (.space part made)

/-- The value of a declaration or an at-rule whose tokens are trimmed. -/
theorem origin_value (part : first :: rest <:+: ts) (start : first.isTrivia = false)
    (read : values false (first :: rest) = .ok nodes) :
    (Node.branch .value first.position nodes).Everywhere (Node.Origin ts) :=
  Node.everywhere_iff.mpr ⟨.value part start read, origin_values part read⟩

/-- All nodes of a declaration come from its tokens. -/
theorem origin_declaration (part : before ++ colon :: after <:+: ts)
    (isColon : colon.isDelimiter ':' = true) (here : node.Origin ts)
    (h : declaration before colon after = .ok node) : node.Everywhere (Node.Origin ts) := by
  obtain ⟨first, more, nodes, property, value, rfl⟩ := declaration_eq_ok.mp h
  have partBefore : before <:+: ts := (List.prefix_append _ _).isInfix.trans part
  have partAfter : after <:+: ts := List.IsInfix.trans ⟨before ++ [colon], [], by simp⟩ part
  have partColon : [colon] <:+: ts := List.IsInfix.trans ⟨before, after, by simp⟩ part
  have partProperty : first :: more <:+: ts := by
    rw [← property]
    exact (Token.isInfix_trim before).trans partBefore
  have propertyLeaf : (Node.leaf .property (Token.sourceText (first :: more))
      first.position).Everywhere (Node.Origin ts) :=
    Node.everywhere_leaf.mpr (.property partProperty)
  have colonLeaf : (Node.leaf .colon ":" colon.position).Everywhere (Node.Origin ts) :=
    Node.everywhere_leaf.mpr (.colon partColon isColon)
  have valueNode : (Node.branch .value (((Token.trim after).head?.map (·.position)).getD
      colon.position) nodes).Everywhere (Node.Origin ts) := by
    cases trimmed : Token.trim after with
    | nil =>
      rw [trimmed] at value
      cases value
      exact Node.everywhere_leaf.mpr .emptyValue
    | cons first more =>
      rw [trimmed] at value
      have partValue : first :: more <:+: ts := by
        rw [← trimmed]
        exact (Token.isInfix_trim after).trans partAfter
      exact origin_value partValue (Token.isTrivia_of_trim_eq_cons trimmed) value
  have blanksBefore := origin_space? ((List.drop_suffix (first :: more).length before).isInfix.trans
    partBefore)
  have blanksAfter := origin_space? ((List.takeWhile_prefix Token.isTrivia).isInfix.trans partAfter)
  refine Node.everywhere_iff.mpr ⟨here, ?_⟩
  simp only [declarationNode, Node.branch, List.forall_mem_append, List.forall_mem_singleton]
  exact ⟨⟨⟨⟨propertyLeaf, blanksBefore⟩, colonLeaf⟩, blanksAfter⟩, valueNode⟩

/-- All nodes of an at-rule come from its tokens, apart from those of its block. -/
theorem origin_atRule {block : Option Node} (isAt : name.kind = .atWord)
    (part : name :: rest <:+: ts) (inside : ∀ b ∈ block.toList, b.Everywhere (Node.Origin ts))
    (h : atRule name rest block = .ok node) : node.Everywhere (Node.Origin ts) := by
  obtain ⟨value, rfl, made⟩ := atRule_eq_ok.mp h
  have here : [name] <:+: ts := List.IsInfix.trans ⟨[], rest, rfl⟩ part
  refine Node.everywhere_iff.mpr ⟨.atRule here isAt, List.forall_mem_append.mpr ⟨?_, inside⟩⟩
  rcases made with ⟨-, rfl⟩ | ⟨first, more, nodes, trimmed, read, rfl⟩
  · simp
  · have partValue : first :: more <:+: ts := by
      rw [← trimmed]
      exact (Token.isInfix_trim rest).trans ((List.suffix_cons name rest).isInfix.trans part)
    rw [List.forall_mem_singleton]
    exact origin_value partValue (Token.isTrivia_of_trim_eq_cons trimmed) read

/-- A selector or a call. -/
theorem origin_head {kind : NodeKind} (isHead : kind = .selector ∨ kind = .mixinCall)
    (part : first :: rest <:+: ts) (start : first.isTrivia = false)
    (read : values true (first :: rest) = .ok nodes) :
    (Node.mk kind (Token.sourceText (first :: rest)) first.position nodes).Everywhere
      (Node.Origin ts) :=
  Node.everywhere_iff.mpr ⟨.head isHead part start read, origin_values part read⟩

theorem origin_withBlock {block : Node} (part : first :: rest <:+: ts)
    (start : first.isTrivia = false) (inside : block.Everywhere (Node.Origin ts))
    (h : withBlock first rest block = .ok node) : node.Everywhere (Node.Origin ts) := by
  rcases withBlock_eq_ok.mp h with ⟨isAt, read⟩ | ⟨-, nodes, read, rfl⟩
  · exact origin_atRule isAt part (by simpa using inside) read
  · have selector := origin_head (.inl rfl) part start read
    refine Node.everywhere_iff.mpr ⟨.ruleset rfl, ?_⟩
    simpa [Node.branch] using ⟨selector, inside⟩

/-- All nodes of a statement without a block come from its tokens. -/
theorem origin_withoutBlock (part : us <:+: ts) (trimmed : Token.trim us = first :: rest)
    (h : withoutBlock first rest = .ok node) : node.Everywhere (Node.Origin ts) := by
  have partHere : first :: rest <:+: ts := by
    rw [← trimmed]
    exact (Token.isInfix_trim us).trans part
  cases withoutBlock_eq_ok.mp h with
  | declaration cut read =>
    obtain ⟨split, isColon⟩ := splitColon?_eq_some cut
    exact origin_declaration (split ▸ partHere) isColon (.declaration part trimmed cut read) read
  | atRule _ isAt read => exact origin_atRule isAt partHere (by simp) read
  | call _ _ read =>
    exact origin_head (.inr rfl) partHere (Token.isTrivia_of_trim_eq_cons trimmed) read

end Statement

theorem Reader.makes_origin (ts : List Token) :
    MakesFrom ts fun n => n.Everywhere (Node.Origin ts) where
  plain _ _ _ _ part trimmed read := Statement.origin_withoutBlock part trimmed read
  block us brace first rest body node part opening trimmed inside read := by
    have partHead : first :: rest <:+: ts := by
      rw [← trimmed]
      exact (Token.isInfix_trim us).trans ((List.prefix_append us [brace]).isInfix.trans part)
    have partBrace : [brace] <:+: ts := (List.suffix_append us [brace]).isInfix.trans part
    have block : (Node.branch .block brace.position body).Everywhere (Node.Origin ts) :=
      Node.everywhere_iff.mpr ⟨.block partBrace opening, inside⟩
    exact Statement.origin_withBlock partHead (Token.isTrivia_of_trim_eq_cons trimmed) block read

/-- Every node below the root is made from the tokens. -/
theorem Stylesheet.everywhere_origin {ts : List Token} {root : Node}
    (h : Stylesheet.ofTokens ts = .ok root) :
    ∀ n ∈ root.children, n.Everywhere (Node.Origin ts) := by
  obtain ⟨body, rfl, inside⟩ := forall_statement_of_stretch (Reader.makes_origin ts) h
  exact inside

end SheetLint
