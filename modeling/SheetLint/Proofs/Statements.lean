import SheetLint.Proofs.Reading

/-!
# Statements taken apart

What it takes for the tokens of one statement to be read, and what comes of it: one inversion for
each kind of statement. What is proved about a single run goes through these; only where two runs
are compared, errors included, are the definitions of statements opened again.
-/

namespace SheetLint.Statement

variable {ts rest before after : List Token} {first colon name : Token} {node block : Node}

/-- A statement that is cut at a colon is what stands before it, the colon and what stands
    behind. -/
theorem splitColon?_eq_some {depth : Nat}
    (h : splitColon? depth ts = some (before, colon, after)) :
    ts = before ++ colon :: after ∧ colon.isDelimiter ':' = true := by
  fun_induction splitColon? depth ts generalizing before with
  | case1 => cases h
  | case2 depth t ts outer =>
    cases h
    exact ⟨rfl, outer.2⟩
  | case3 depth t ts _ inner =>
    rename_i ih
    simp only [Option.map_eq_some_iff, Prod.mk.injEq] at h
    obtain ⟨⟨front, _, _⟩, cut, rfl, rfl, rfl⟩ := h
    obtain ⟨rfl, isColon⟩ := ih cut
    exact ⟨rfl, isColon⟩

/-- The tree of a declaration whose property and value are known. -/
def declarationNode (before after : List Token) (colon first : Token) (more : List Token)
    (nodes : List Node) : Node :=
  .branch .declaration first.position <|
    [.leaf .property (Token.sourceText (first :: more)) first.position]
      ++ (space? (before.drop (first :: more).length)).toList
      ++ [.leaf .colon ":" colon.position]
      ++ (space? (after.takeWhile Token.isTrivia)).toList
      ++ [.branch .value (((Token.trim after).head?.map (·.position)).getD colon.position) nodes]

theorem declaration_eq_ok : declaration before colon after = .ok node ↔
    ∃ first more nodes, Token.trim before = first :: more ∧
      values false (Token.trim after) = .ok nodes ∧
      node = declarationNode before after colon first more nodes := by
  unfold declaration
  cases trimmed : Token.trim before with
  | nil => simp
  | cons first more =>
    simp [bind_eq_ok, pure, Except.pure, declarationNode, @eq_comm _ node]

/-- The value of an at-rule is there unless only trivia follow the name. -/
theorem atRule_eq_ok {block : Option Node} : atRule name rest block = .ok node ↔
    ∃ value, node = ⟨.atRule, String.ofList (name.text.toList.drop 1), name.position,
        value ++ block.toList⟩ ∧
      ((Token.trim rest = [] ∧ value = []) ∨
        ∃ first more nodes, Token.trim rest = first :: more ∧
          values false (first :: more) = .ok nodes ∧
          value = [.branch .value first.position nodes]) := by
  unfold atRule
  cases trimmed : Token.trim rest with
  | nil => simp [bind_eq_ok, pure, Except.pure, @eq_comm _ node]
  | cons first more =>
    simp only [bind_eq_ok, pure, Except.pure, Except.ok.injEq, reduceCtorEq, false_and, false_or,
      List.cons.injEq]
    constructor
    · rintro ⟨nodes, read, _, rfl, rfl⟩
      exact ⟨_, rfl, first, more, nodes, ⟨rfl, rfl⟩, read, rfl⟩
    · rintro ⟨value, rfl, _, _, nodes, ⟨rfl, rfl⟩, read, rfl⟩
      exact ⟨nodes, read, _, rfl, rfl⟩

/-- A block belongs to an at-rule or to a selector. -/
theorem withBlock_eq_ok : withBlock first rest block = .ok node ↔
    (first.kind = .atWord ∧ atRule first rest (some block) = .ok node) ∨
    (first.kind ≠ .atWord ∧ ∃ nodes, values true (first :: rest) = .ok nodes ∧
      node = .branch .ruleset first.position
        [⟨.selector, Token.sourceText (first :: rest), first.position, nodes⟩, block]) := by
  unfold withBlock
  by_cases isAt : first.kind = .atWord
  · simp [isAt]
  · simp [isAt, bind_eq_ok, pure, Except.pure, @eq_comm _ node]

/-- The kinds of statements without a block. -/
inductive Plain (first : Token) (rest : List Token) : Node → Prop
  | declaration {before after : List Token} {colon : Token} {node : Node}
      (cut : splitColon? 0 (first :: rest) = some (before, colon, after))
      (read : declaration before colon after = .ok node) : Plain first rest node
  | atRule {node : Node} (uncut : splitColon? 0 (first :: rest) = none)
      (isAt : first.kind = .atWord) (read : atRule first rest none = .ok node) :
      Plain first rest node
  | call {nodes : List Node} (uncut : splitColon? 0 (first :: rest) = none)
      (isCall : first.kind ≠ .atWord) (read : values true (first :: rest) = .ok nodes) :
      Plain first rest ⟨.mixinCall, Token.sourceText (first :: rest), first.position, nodes⟩

/-- A statement without a block is read in one of the plain ways. -/
theorem withoutBlock_eq_ok : withoutBlock first rest = .ok node ↔ Plain first rest node := by
  unfold withoutBlock
  constructor
  · intro h
    split at h
    · rename_i before colon after cut
      exact .declaration cut h
    · rename_i uncut
      split at h
      · rename_i isAt
        exact .atRule uncut isAt h
      · rename_i isCall
        obtain ⟨nodes, read, made⟩ := bind_eq_ok.mp h
        cases made
        exact .call uncut isCall read
  · rintro (⟨cut, read⟩ | ⟨uncut, isAt, read⟩ | ⟨uncut, isCall, read⟩)
    · simp only [cut, read]
    · simp only [uncut, if_pos isAt, read]
    · simp only [uncut, if_neg isCall, read]
      rfl

end SheetLint.Statement
