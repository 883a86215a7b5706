import SheetLint.Stylesheet.Value

/-!
# Statements

The trees of single statements, whose tokens are given without the trivia at the ends: rulesets and
at-rules with a block, and declarations, at-rules and calls without one.
-/

namespace SheetLint.Statement

/-- The blanks of a stretch of trivia as one leaf, if there are any. -/
def space? (trivia : List Token) : Option Node :=
  match trivia.filter (·.kind == .whitespace) with
  | [] => none
  | first :: rest =>
    some (.leaf .space (String.join ((first :: rest).map (·.text))) first.position)

/-- Cuts a statement at its first colon outside all brackets: what stands before the colon, the
    colon, and what stands behind it. Round and square brackets count alike. -/
def splitColon? (depth : Nat) : List Token → Option (List Token × Token × List Token)
  | [] => none
  | t :: ts =>
    if depth = 0 ∧ t.isDelimiter ':' then some ([], t, ts)
    else
      let inner :=
        if t.isDelimiter '(' || t.isDelimiter '[' then depth + 1
        else if t.isDelimiter ')' || t.isDelimiter ']' then depth - 1
        else depth
      (splitColon? inner ts).map fun (before, colon, after) => (t :: before, colon, after)

/-- A property with its value. The spaces around the colon are leaves of their own. -/
def declaration (before : List Token) (colon : Token) (after : List Token) :
    Except SyntaxError Node :=
  match Token.trim before with
  | [] => .error ⟨.declarationWithoutProperty, colon.position⟩
  | first :: more => do
    let property := first :: more
    let value := Token.trim after
    let start := (value.head?.map (·.position)).getD colon.position
    let nodes ← values false value
    return .branch .declaration first.position <|
      [.leaf .property (Token.sourceText property) first.position]
        ++ (space? (before.drop property.length)).toList
        ++ [.leaf .colon ":" colon.position]
        ++ (space? (after.takeWhile Token.isTrivia)).toList
        ++ [.branch .value start nodes]

/-- An at-rule: the word behind the sign, its value if there is one, and its block if there is
    one. -/
def atRule (name : Token) (rest : List Token) (block : Option Node) : Except SyntaxError Node := do
  let value ←
    match Token.trim rest with
    | [] => pure []
    | first :: more => do
      let nodes ← values false (first :: more)
      pure [Node.branch .value first.position nodes]
  return ⟨.atRule, String.ofList (name.text.toList.drop 1), name.position, value ++ block.toList⟩

/-- The statement of a block with what stands before it. -/
def withBlock (first : Token) (rest : List Token) (block : Node) : Except SyntaxError Node :=
  if first.kind = .atWord then atRule first rest (some block)
  else do
    let nodes ← values true (first :: rest)
    let selector : Node :=
      ⟨.selector, Token.sourceText (first :: rest), first.position, nodes⟩
    return .branch .ruleset first.position [selector, block]

/-- The statement of tokens that have no block: a declaration if there is a colon, else an at-rule
    or a call. -/
def withoutBlock (first : Token) (rest : List Token) : Except SyntaxError Node :=
  match splitColon? 0 (first :: rest) with
  | some (before, colon, after) => declaration before colon after
  | none =>
    if first.kind = .atWord then atRule first rest none
    else do
      let nodes ← values true (first :: rest)
      return ⟨.mixinCall, Token.sourceText (first :: rest), first.position, nodes⟩

end SheetLint.Statement
