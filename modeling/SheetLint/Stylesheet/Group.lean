import SheetLint.Token

/-!
# Token groups

A stretch of tokens with its round brackets paired. Where a bracket has no partner the grouping
ends, and what stands before it is kept: the pieces on the left of a fault are still looked at
first.
-/

namespace SheetLint

/-- A token, or what stands between a pair of round brackets. A word directly in front of an
    opening bracket belongs to the pair. -/
inductive Group where
  | single (token : Token)
  | parens (opening : Token) (inner : List Group)
  | call (word opening : Token) (inner : List Group)

namespace Group

/-- A round bracket that waits for its partner: the word in front of it, if any, and the groups
    before it, from the last to the first. -/
structure Pending where
  word : Option Token
  opening : Token
  before : List Group

/-- The group of a pair of brackets around `inner`. -/
def Pending.close (p : Pending) (inner : List Group) : Group :=
  match p.word with
  | some word => call word p.opening inner
  | none => parens p.opening inner

/-- Opens a bracket behind the groups `before`, which are listed from the last to the first. -/
def Pending.ofOpening (opening : Token) (before : List Group) : Pending :=
  match before with
  | single word :: rest =>
    if word.kind = .word then ⟨some word, opening, rest⟩ else ⟨none, opening, before⟩
  | _ => ⟨none, opening, before⟩

/-- Pairs the round brackets of some tokens. `pending` holds the brackets that are open, the
    innermost first, and `current` the groups behind the innermost, the last first. -/
def pair (pending : List Pending) (current : List Group) :
    List Token → List Group × Option SyntaxError
  | [] =>
    match pending.getLast? with
    | none => (current.reverse, none)
    | some outermost =>
      (outermost.before.reverse, some ⟨.unclosedParenthesis, outermost.opening.position⟩)
  | t :: ts =>
    if t.isDelimiter '(' then pair (.ofOpening t current :: pending) [] ts
    else if t.isDelimiter ')' then
      match pending with
      | [] => (current.reverse, some ⟨.unexpectedClosing ')', t.position⟩)
      | p :: pending => pair pending (p.close current.reverse :: p.before) ts
    else pair pending (single t :: current) ts

/-- The groups of some tokens, up to the first round bracket without a partner if there is one. -/
def ofTokens (tokens : List Token) : List Group × Option SyntaxError :=
  pair [] [] tokens

end Group

end SheetLint
