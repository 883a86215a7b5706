import SheetLint.Proofs.Comments
import SheetLint.Proofs.CarriageReturns.Stylesheets

/-!
# Style sheets without comments

A style sheet and the same tokens without comments are read with the same error, or to trees that
stand for the same text (`Stylesheet.ofTokens_uncommented`). Each station of the reader leaves
comments out in a place of its own: at the ends of a statement, in its text, around its colon and
among its values.
-/

namespace SheetLint

namespace Statement

variable {strict : Prop} {colon first name : Token} {before after rest more : List Token}
  {nodes nodes' : List Node}

/-- Comments make no space. -/
theorem space?_uncommented (trivia : List Token) :
    space? (Token.uncommented trivia) = space? trivia := by
  have blanks : (Token.uncommented trivia).filter (·.kind == .whitespace) =
      trivia.filter (·.kind == .whitespace) := by
    rw [Token.uncommented, List.filter_filter]
    apply List.filter_congr
    intro t _
    by_cases blank : t.kind = .whitespace
    · simp [Token.isComment, blank]
    · simp [blank]
  rw [space?, blanks, space?]

/-- Leaves comments out of a statement that is cut at its colon. -/
def uncommentedCut (cut : List Token × Token × List Token) : List Token × Token × List Token :=
  (Token.uncommented cut.1, cut.2.1, Token.uncommented cut.2.2)

/-- A statement is cut at the same colon without its comments. -/
theorem splitColon?_uncommented (depth : Nat) (ts : List Token) :
    splitColon? depth (Token.uncommented ts) = (splitColon? depth ts).map uncommentedCut := by
  induction ts generalizing depth with
  | nil => rfl
  | cons t ts ih =>
    cases comment : t.isComment with
    | true =>
      have noDelimiter := Token.isDelimiter_of_isTrivia (Token.isTrivia_of_isComment comment)
      rw [Token.uncommented_cons_of_comment comment, ih, splitColon?_cons (by simp [noDelimiter]),
        inside_of_neutral noDelimiter, Option.map_map]
      apply Option.map_congr
      intro cut _
      simp [uncommentedCut, prepend, Token.uncommented_cons_of_comment comment]
    | false =>
      rw [Token.uncommented_cons comment]
      by_cases isColon : depth = 0 ∧ t.isDelimiter ':' = true
      · obtain ⟨rfl, isColon⟩ := isColon
        rw [splitColon?_colon isColon, splitColon?_colon isColon]
        rfl
      · rw [splitColon?_cons isColon, splitColon?_cons isColon, ih, Option.map_map, Option.map_map]
        apply Option.map_congr
        intro cut _
        simp [uncommentedCut, prepend, Token.uncommented_cons comment]

/-- The tree of a declaration without comments differs in the nodes of its value only. -/
theorem echoes_declarationNode (trimmed : Token.trim before = first :: more)
    (start : ∀ t ∈ before.head?, t.isTrivia = false) (colon : Token) (after : List Token)
    (value : Node.Echoes strict nodes nodes') :
    Node.Echoes strict [declarationNode before after colon first more nodes]
      [declarationNode (Token.uncommented before) (Token.uncommented after) colon first
        (Token.uncommented more) nodes'] := by
  have spoken : first.isComment = false :=
    Token.isComment_of_not_isTrivia (Token.isTrivia_of_trim_eq_cons trimmed)
  have property : Token.sourceText (first :: Token.uncommented more) =
      Token.sourceText (first :: more) := by
    rw [← Token.uncommented_cons spoken, Token.sourceText_uncommented]
  have behind : space? ((Token.uncommented before).drop (first :: Token.uncommented more).length) =
      space? (before.drop (first :: more).length) := by
    rw [← Token.trim_uncommented_eq_cons trimmed, ← trimmed]
    cases before with
    | nil => rfl
    | cons b bs =>
      have noTrivia := start b rfl
      rw [Token.uncommented_cons (Token.isComment_of_not_isTrivia noTrivia),
        Token.drop_trim noTrivia, Token.drop_trim noTrivia,
        ← Token.uncommented_cons (Token.isComment_of_not_isTrivia noTrivia),
        Token.rtakeWhile_uncommented, space?_uncommented]
  have lead : space? ((Token.uncommented after).takeWhile Token.isTrivia) =
      space? (after.takeWhile Token.isTrivia) := by
    rw [Token.takeWhile_uncommented, space?_uncommented]
  have head : (Token.trim (Token.uncommented after)).head? = (Token.trim after).head? := by
    cases trimmed : Token.trim after with
    | nil => rw [Token.trim_uncommented, trimmed]; rfl
    | cons v vs => rw [Token.trim_uncommented_eq_cons trimmed]; rfl
  rw [declarationNode, declarationNode, property, behind, lead, head]
  exact ((Node.echoes_refl _).append (value.node .value "" _)).node .declaration "" first.position

/-- A declaration without its comments is read alike. -/
theorem declaration_uncommented (start : ∀ t ∈ before.head?, t.isTrivia = false)
    (free : strict → ¬ Token.CommentedCall after) :
    Agrees (fun n n' => Node.Echoes strict [n] [n']) (declaration before colon after)
      (declaration (Token.uncommented before) colon (Token.uncommented after)) := by
  unfold declaration
  cases trimmed : Token.trim before with
  | nil =>
    rw [Token.trim_uncommented, trimmed]
    exact .error _
  | cons first more =>
    rw [Token.trim_uncommented_eq_cons trimmed]
    dsimp only
    rw [Token.trim_uncommented after]
    have freeValue (holds : strict) : ¬ Token.CommentedCall (Token.trim after) := by
      intro call
      exact free holds (call.mono (Token.isInfix_trim after))
    apply (values_uncommented false freeValue).bind
    intro nodes nodes' value
    have node := echoes_declarationNode trimmed start colon after value
    rw [declarationNode, declarationNode, Token.trim_uncommented after] at node
    exact .ok node

/-- An at-rule without its comments is read alike. -/
theorem atRule_uncommented {block block' : Option Node}
    (free : strict → ¬ Token.CommentedCall rest)
    (blocks : Node.Echoes strict block.toList block'.toList) :
    Agrees (fun n n' => Node.Echoes strict [n] [n']) (atRule name rest block)
      (atRule name (Token.uncommented rest) block') := by
  have made {value value' : List Node} (echoes : Node.Echoes strict value value') :=
    (echoes.append blocks).node .atRule (String.ofList (name.text.toList.drop 1)) name.position
  unfold atRule
  cases trimmed : Token.trim rest with
  | nil =>
    rw [Token.trim_uncommented, trimmed]
    exact .ok (made (Node.echoes_refl []))
  | cons first more =>
    have spoken := Token.isComment_of_not_isTrivia (Token.isTrivia_of_trim_eq_cons trimmed)
    have freeValue (holds : strict) : ¬ Token.CommentedCall (first :: more) := by
      intro call
      exact free holds (call.mono (trimmed ▸ Token.isInfix_trim rest))
    rw [Token.trim_uncommented_eq_cons trimmed]
    dsimp only
    rw [← Token.uncommented_cons spoken more]
    apply (values_uncommented false freeValue).bind
    intro nodes nodes' value
    exact .ok (made (value.node .value "" first.position))

/-- The statement of a block, when comments are left out of its head. -/
theorem withBlock_uncommented {block block' : Node} (spoken : first.isComment = false)
    (free : strict → ¬ Token.CommentedCall (first :: rest))
    (blocks : Node.Echoes strict [block] [block']) :
    Agrees (fun n n' => Node.Echoes strict [n] [n']) (withBlock first rest block)
      (withBlock first (Token.uncommented rest) block') := by
  unfold withBlock
  by_cases isAt : first.kind = .atWord
  · rw [if_pos isAt, if_pos isAt]
    apply atRule_uncommented _ blocks
    intro holds call
    exact free holds (call.mono (List.suffix_cons first rest).isInfix)
  · rw [if_neg isAt, if_neg isAt, ← Token.uncommented_cons spoken, Token.sourceText_uncommented]
    apply (values_uncommented true free).bind
    intro nodes nodes' echoes
    have selector := echoes.node .selector (Token.sourceText (first :: rest)) first.position
    exact .ok ((selector.append blocks).node .ruleset "" first.position)

/-- A statement without a block, when comments are left out. -/
theorem withoutBlock_uncommented (start : first.isTrivia = false)
    (free : strict → ¬ Token.CommentedCall (first :: rest)) :
    Agrees (fun n n' => Node.Echoes strict [n] [n']) (withoutBlock first rest)
      (withoutBlock first (Token.uncommented rest)) := by
  have spoken := Token.isComment_of_not_isTrivia start
  have cut := splitColon?_uncommented 0 (first :: rest)
  rw [Token.uncommented_cons spoken] at cut
  unfold withoutBlock
  rw [cut]
  cases found : splitColon? 0 (first :: rest) with
  | some parts =>
    obtain ⟨before, colon, after⟩ := parts
    have split := (splitColon?_eq_some found).1
    apply declaration_uncommented
    · -- what stands before the colon begins as the statement does
      intro t ht
      cases before with
      | nil => cases ht
      | cons b bs =>
        cases split
        cases ht
        exact start
    · intro holds call
      apply free holds
      rw [split]
      exact call.mono ⟨before ++ [colon], [], by simp⟩
  | none =>
    dsimp only [Option.map_none]
    by_cases isAt : first.kind = .atWord
    · rw [if_pos isAt, if_pos isAt]
      apply atRule_uncommented _ (Node.echoes_refl [])
      intro holds call
      exact free holds (call.mono (List.suffix_cons first rest).isInfix)
    · rw [if_neg isAt, if_neg isAt, ← Token.uncommented_cons spoken, Token.sourceText_uncommented]
      apply (values_uncommented true free).bind
      intro nodes nodes' echoes
      exact .ok (echoes.node .mixinCall (Token.sourceText (first :: rest)) first.position)

end Statement

/-- The second block is the first one, without comments in its head. -/
structure OpenBlock.Uncommented (strict : Prop) (b b' : OpenBlock) : Prop where
  brace : b'.brace = b.brace
  first : b'.first = b.first
  rest : b'.rest = Token.uncommented b.rest
  spoken : b.first.isComment = false
  free : strict → ¬ Token.CommentedCall (b.first :: b.rest)
  before : Node.Echoes strict b.before.reverse b'.before.reverse

namespace Reader

variable {strict : Prop} {r r' : Reader} {t : Token} {ts us : List Token}

/-- The readers have read the same tokens, the second one without comments, and the tokens `ts` are
    to come. -/
structure Uncommented (strict : Prop) (ts : List Token) (r r' : Reader) : Prop where
  brackets : r'.brackets = r.brackets
  statement : r'.statement = Token.uncommented r.statement
  free : strict → ¬ Token.CommentedCall (r.statement.reverse ++ ts)
  done : Node.Echoes strict r.done.reverse r'.done.reverse
  blocks : List.Forall₂ (OpenBlock.Uncommented strict) r.blocks r'.blocks

theorem Uncommented.trim_eq (h : Uncommented strict ts r r') :
    Token.trim r'.statement.reverse = Token.uncommented (Token.trim r.statement.reverse) := by
  rw [h.statement, ← Token.uncommented_reverse, Token.trim_uncommented]

/-- What has been read of the statement, and what is to come, have no commented calls of their
    own. -/
theorem Uncommented.free_statement (h : Uncommented strict ts r r') (holds : strict) :
    ¬ Token.CommentedCall (Token.trim r.statement.reverse) := by
  intro call
  apply h.free holds
  exact call.mono ((Token.isInfix_trim _).trans (List.prefix_append _ _).isInfix)

theorem Uncommented.free_rest (h : Uncommented strict us r r') (part : ts <:+ us)
    (holds : strict) : ¬ Token.CommentedCall ts := by
  intro call
  apply h.free holds
  exact call.mono (part.trans (List.suffix_append _ _)).isInfix

theorem echoes_reverse_cons {n n' : Node} {ns ns' : List Node} (node : Node.Echoes strict [n] [n'])
    (before : Node.Echoes strict ns.reverse ns'.reverse) :
    Node.Echoes strict (n :: ns).reverse (n' :: ns').reverse := by
  rw [List.reverse_cons, List.reverse_cons]
  exact before.append node

/-- A token is kept in both statements. -/
theorem Uncommented.keep (h : Uncommented strict (t :: ts) r r') (spoken : t.isComment = false)
    (bs : List Position) :
    Uncommented strict ts { r with brackets := bs, statement := t :: r.statement }
      { r' with brackets := bs, statement := t :: r'.statement } where
  brackets := rfl
  statement := by rw [Token.uncommented_cons spoken, h.statement]
  free := by simpa using h.free
  done := h.done
  blocks := h.blocks

/-- A comment is kept in the first statement only. -/
theorem Uncommented.comment (h : Uncommented strict (t :: ts) r r') (comment : t.isComment = true) :
    Uncommented strict ts { r with statement := t :: r.statement } r' where
  brackets := h.brackets
  statement := by rw [Token.uncommented_cons_of_comment comment, h.statement]
  free := by simpa using h.free
  done := h.done
  blocks := h.blocks

/-- Ending a statement keeps the two readers alike. -/
theorem Uncommented.endStatement (h : Uncommented strict us r r') (part : ts <:+ us) :
    Agrees (Uncommented strict ts) r.endStatement r'.endStatement := by
  unfold Reader.endStatement
  rw [h.trim_eq]
  have free := h.free_statement
  cases trimmed : Token.trim r.statement.reverse with
  | nil => exact .ok ⟨h.brackets, rfl, h.free_rest part, h.done, h.blocks⟩
  | cons first rest =>
    have start := Token.isTrivia_of_trim_eq_cons trimmed
    rw [trimmed] at free
    rw [Token.uncommented_cons (Token.isComment_of_not_isTrivia start)]
    apply (Statement.withoutBlock_uncommented start free).bind
    intro node node' echoes
    exact .ok ⟨h.brackets, rfl, h.free_rest part, echoes_reverse_cons echoes h.done, h.blocks⟩

/-- Opening a block keeps the two readers alike. -/
theorem Uncommented.openBlock (h : Uncommented strict us r r') (part : ts <:+ us)
    (p : Position) : Agrees (Uncommented strict ts) (r.openBlock p) (r'.openBlock p) := by
  unfold Reader.openBlock
  rw [h.trim_eq, ← h.blocks.length_eq]
  have free := h.free_statement
  cases trimmed : Token.trim r.statement.reverse with
  | nil => exact .error _
  | cons first rest =>
    have spoken := Token.isComment_of_not_isTrivia (Token.isTrivia_of_trim_eq_cons trimmed)
    rw [trimmed] at free
    rw [Token.uncommented_cons spoken]
    dsimp only
    split
    · exact .error _
    · have block : OpenBlock.Uncommented strict ⟨p, first, rest, r.done⟩
          ⟨p, first, Token.uncommented rest, r'.done⟩ := ⟨rfl, rfl, rfl, spoken, free, h.done⟩
      exact .ok ⟨rfl, rfl, h.free_rest part, Node.echoes_refl [], .cons block h.blocks⟩

/-- Closing a block keeps the two readers alike. -/
theorem Uncommented.closeBlock (h : Uncommented strict ts r r') (p : Position) :
    Agrees (Uncommented strict ts) (r.closeBlock p) (r'.closeBlock p) := by
  have around := h.blocks
  unfold Reader.closeBlock
  generalize r.blocks = all at around
  generalize r'.blocks = all' at around
  cases around with
  | nil => exact .error _
  | @cons b b' blocks blocks' block outer =>
    dsimp only
    rw [block.brace, block.first, block.rest]
    have body := h.done.node .block "" b.brace
    apply (Statement.withBlock_uncommented block.spoken block.free body).bind
    intro node node' echoes
    refine .ok ⟨rfl, rfl, ?_, echoes_reverse_cons echoes block.before, outer⟩
    intro holds call
    exact h.free holds (call.mono (List.suffix_append _ _).isInfix)

/-- One token, which the second reader is given unless it is a comment. -/
theorem Uncommented.step (h : Uncommented strict (t :: ts) r r') (spoken : t.isComment = false) :
    Agrees (Uncommented strict ts) (r.step t) (r'.step t) := by
  have part := List.suffix_cons t ts
  apply step_agrees h.brackets (h.keep spoken) (h.endStatement part) (h.openBlock part)
  intro r₁ r₁' p related
  exact related.closeBlock p

theorem step_comment (comment : t.isComment = true) (r : Reader) :
    r.step t = .ok { r with statement := t :: r.statement } := by
  have kind : t.kind = .comment := by simpa [Token.isComment] using comment
  have role : t.role = .plain := by simp [Token.role, kind]
  have stepped := step_of_role r t
  simp only [role] at stepped
  exact stepped

/-- Whole runs keep the two readers alike, and a comment is read on one side only. -/
theorem Uncommented.read (h : Uncommented strict ts r r') :
    Agrees (Uncommented strict []) (r.read ts) (r'.read (Token.uncommented ts)) := by
  induction ts generalizing r r' with
  | nil => exact .ok h
  | cons t ts ih =>
    rw [read_cons]
    cases comment : t.isComment with
    | true =>
      rw [Token.uncommented_cons_of_comment comment, step_comment comment]
      exact ih (h.comment comment)
    | false =>
      rw [Token.uncommented_cons comment, read_cons]
      apply (h.step comment).bind
      intro r₁ r₁' related
      exact ih related

/-- Two readers that are alike finish with trees that echo each other. -/
theorem Uncommented.finish (h : Uncommented strict [] r r') :
    Agrees (fun n n' => Node.Echoes strict [n] [n']) r.finish r'.finish := by
  apply finish_agrees h.brackets (h.endStatement List.suffix_rfl)
  · intro last last' related
    have blocks := related.blocks
    generalize last.blocks = bs at blocks
    generalize last'.blocks = bs' at blocks
    induction blocks with
    | nil => rfl
    | cons block _ ih => rw [List.map_cons, List.map_cons, block.brace, ih]
  · intro last last' related _
    exact related.done.node .stylesheet "" .start

end Reader

namespace Stylesheet

/-- Tokens are read alike without comments: with the same error, or to trees that stand for the same
    text. The trees are equal unless comments stand between a word and an opening bracket. -/
theorem ofTokens_uncommented (ts : List Token) :
    (ofTokens (Token.uncommented ts)).map Node.text = (ofTokens ts).map Node.text ∧
      (¬ Token.CommentedCall ts → ofTokens (Token.uncommented ts) = ofTokens ts) := by
  have start : Reader.Uncommented (¬ Token.CommentedCall ts) ts .initial .initial :=
    ⟨rfl, rfl, id, Node.echoes_refl [], .nil⟩
  have agrees : Agrees (fun n n' => Node.Echoes (¬ Token.CommentedCall ts) [n] [n']) (ofTokens ts)
      (ofTokens (Token.uncommented ts)) := by
    apply start.read.bind
    intro r r' related
    exact related.finish
  generalize ofTokens ts = tree at agrees
  generalize ofTokens (Token.uncommented ts) = tree' at agrees
  cases agrees with
  | error e => exact ⟨rfl, fun _ => rfl⟩
  | @ok root root' echoes =>
    refine ⟨?_, ?_⟩
    · have texts := echoes.texts
      simp only [Node.texts, String.append_empty] at texts
      exact congrArg Except.ok texts
    · intro free
      have same := echoes.same free
      simp only [List.cons.injEq, and_true] at same
      exact congrArg Except.ok same

/-- Comments in front of a colon, behind it and in an argument leave no trace. Behind the name of a
    function they do: the name and the brackets are no call. -/
theorem ofTokens_uncommented_call :
    let ts := (Token.tokenize "a\x7bb/*(*/:/*c*/ f(1/*)*/,d)\x7d").toOption.getD []
    let us := (Token.tokenize "a\x7bb: f/*c*/(1,d)\x7d").toOption.getD []
    ¬ Token.CommentedCall ts ∧ ofTokens (Token.uncommented ts) = ofTokens ts ∧
      Token.CommentedCall us ∧ ofTokens (Token.uncommented us) ≠ ofTokens us ∧
      (ofTokens (Token.uncommented us)).map Node.text = (ofTokens us).map Node.text ∧
      (ofTokens us).toOption.map Node.text = some "ab: f(1,d)" := by
  intro ts us
  have free : ¬ Token.CommentedCall ts := by decide +kernel
  exact ⟨free, (ofTokens_uncommented ts).2 free, by decide +kernel, by decide +kernel,
    (ofTokens_uncommented us).1, by decide +kernel⟩

end Stylesheet

end SheetLint
