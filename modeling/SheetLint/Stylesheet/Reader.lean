import SheetLint.Stylesheet.Statement

/-!
# Reading style sheets

A style sheet is read token by token. The reader remembers the brackets that are open, the tokens
of the statement it is in, the statements of the block it is in, and the blocks around that one.
Since it is a fold, reading two texts one behind the other is reading the second from where the
first has left the reader (`Reader.read_append`).
-/

namespace SheetLint

/-- A block that is open: its brace, the tokens in front of it, and the statements before it, from
    the last to the first. -/
structure OpenBlock where
  brace : Position
  first : Token
  rest : List Token
  before : List Node

/-- What is known after a part of a style sheet. Lists run from the last element to the first. -/
structure Reader where
  brackets : List Position
  statement : List Token
  done : List Node
  blocks : List OpenBlock

namespace Reader

/-- Nothing has been read. -/
def initial : Reader := ⟨[], [], [], []⟩

/-- Ends a statement without a block. Trivia alone are no statement. -/
def endStatement (r : Reader) : Except SyntaxError Reader :=
  match Token.trim r.statement.reverse with
  | [] => .ok { r with statement := [] }
  | first :: rest => do
    let node ← Statement.withoutBlock first rest
    return { r with statement := [], done := node :: r.done }

/-- Opens a block behind the statement's tokens. -/
def openBlock (r : Reader) (brace : Position) : Except SyntaxError Reader :=
  match Token.trim r.statement.reverse with
  | [] => .error ⟨.blockWithoutSelector, brace⟩
  | first :: rest =>
    if maxNesting ≤ r.blocks.length then .error ⟨.nestingTooDeep, brace⟩
    else .ok ⟨[], [], [], ⟨brace, first, rest, r.done⟩ :: r.blocks⟩

/-- Closes the innermost block with the statements read so far. -/
def closeBlock (r : Reader) (brace : Position) : Except SyntaxError Reader :=
  match r.blocks with
  | [] => .error ⟨.unexpectedClosing '\x7d', brace⟩
  | b :: blocks => do
    let node ← Statement.withBlock b.first b.rest (.branch .block b.brace r.done.reverse)
    return ⟨[], [], node :: b.before, blocks⟩

/-- Reads one token. Round and square brackets pair with each other here, and braces and semicolons
    inside of them belong to the statement. -/
def step (r : Reader) (t : Token) : Except SyntaxError Reader :=
  match t.kind, r.brackets with
  | .delimiter '(', _ | .delimiter '[', _ =>
    .ok { r with brackets := t.position :: r.brackets, statement := t :: r.statement }
  | .delimiter ')', [] => .error ⟨.unexpectedClosing ')', t.position⟩
  | .delimiter ']', [] => .error ⟨.unexpectedClosing ']', t.position⟩
  | .delimiter ')', _ :: brackets | .delimiter ']', _ :: brackets =>
    .ok { r with brackets := brackets, statement := t :: r.statement }
  | .delimiter ';', [] => r.endStatement
  | .delimiter '\x7b', [] => r.openBlock t.position
  | .delimiter '\x7d', [] => do
    let r ← r.endStatement
    r.closeBlock t.position
  | _, _ => .ok { r with statement := t :: r.statement }

/-- Reads tokens from where the reader stands. -/
def read (r : Reader) (tokens : List Token) : Except SyntaxError Reader :=
  tokens.foldlM step r

/-- The style sheet, when there are no more tokens. -/
def finish (r : Reader) : Except SyntaxError Node :=
  match r.brackets with
  | bracket :: _ => .error ⟨.unclosedParenthesis, bracket⟩
  | [] => do
    let r ← r.endStatement
    match r.blocks with
    | b :: _ => throw ⟨.unclosedBlock, b.brace⟩
    | [] => return .branch .stylesheet .start r.done.reverse

theorem read_append (r : Reader) (ts us : List Token) :
    r.read (ts ++ us) = (do let r ← r.read ts; r.read us) := by
  simp [read, List.foldlM_append]

end Reader

/-- Reads the tree of a style sheet from its tokens. -/
def Stylesheet.ofTokens (tokens : List Token) : Except SyntaxError Node := do
  let r ← Reader.initial.read tokens
  r.finish

/-- The text without a byte-order mark at its front. -/
def Stylesheet.withoutMark (source : String) : String :=
  match source.toList with
  | '\ufeff' :: cs => String.ofList cs
  | _ => source

/-- Reads the tree of a style sheet from its text. -/
def Stylesheet.parse (source : String) : Except SyntaxError Node := do
  let tokens ← Token.tokenize (withoutMark source)
  ofTokens tokens

end SheetLint
