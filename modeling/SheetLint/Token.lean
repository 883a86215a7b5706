import SheetLint.Lexeme

/-!
# Tokens

The tokens of a style sheet are its lexemes with two changes: a sign in front of a number becomes
part of the number unless it stands behind a word or another number, and `url(` with its bare
contents is a word, a parenthesis and a string. Tokens still tile the text.
-/

namespace SheetLint

/-- The classes of tokens. -/
inductive TokenKind where
  | whitespace
  | comment
  | string
  | hash
  | atWord
  | number
  | word
  | delimiter (c : Char)
  deriving DecidableEq, Repr

/-- A token with its text and the place where the text begins. -/
structure Token where
  kind : TokenKind
  text : String
  position : Position
  deriving DecidableEq, Repr

namespace Token

/-- The token is this delimiter. -/
def isDelimiter (t : Token) (c : Char) : Bool :=
  t.kind == .delimiter c

/-- The token is a comment. -/
def isComment (t : Token) : Bool :=
  t.kind == .comment

/-- Whitespace and comments separate tokens and mean nothing else. -/
def isTrivia (t : Token) : Bool :=
  t.kind == .whitespace || t.kind == .comment

/-- A sign behind such a token is an operator and not the sign of a number. -/
def isWordLike (t : Token) : Bool :=
  t.kind == .word || t.kind == .number || t.kind == .hash || t.kind == .atWord

/-- A plus or minus that is a token of its own. -/
def isSign (t : Token) : Bool :=
  t.isDelimiter '-' || t.isDelimiter '+'

/-- The token, with these tokens in front of it from the last to the first, is the sign of a number
    at this place: it touches the number and does not continue a word. -/
def isSignOf (sign : Token) (before : List Token) (number : Position) : Bool :=
  sign.isSign && sign.position.shift 1 == number && !before.head?.any isWordLike

/-- Adds a number behind tokens that are listed from the last to the first, and joins it with a
    sign in front of it. -/
def pushNumber (number : Token) : List Token → List Token
  | sign :: before =>
    if sign.isSignOf before number.position then
      { number with text := sign.text ++ number.text, position := sign.position } :: before
    else number :: sign :: before
  | [] => [number]

/-- The tokens of `url(` with its bare contents, from the last to the first. -/
def ofUrl (text : List Char) (p : Position) : List Token :=
  let opening : List Token :=
    [⟨.delimiter '(', "(", p.shift 3⟩, ⟨.word, String.ofList (text.take 3), p⟩]
  let contents := text.drop 4
  if contents.isEmpty then opening
  else ⟨.string, String.ofList contents, p.shift 4⟩ :: opening

/-- Adds the tokens of a lexeme behind tokens that are listed from the last to the first. -/
def push (tokens : List Token) (lexeme : Lexeme) : List Token :=
  let plain (kind : TokenKind) : Token := ⟨kind, String.ofList lexeme.text, lexeme.position⟩
  match lexeme.kind with
  | .whitespace => plain .whitespace :: tokens
  | .comment => plain .comment :: tokens
  | .string => plain .string :: tokens
  | .hash => plain .hash :: tokens
  | .atWord => plain .atWord :: tokens
  | .word => plain .word :: tokens
  | .delimiter => plain (.delimiter (lexeme.text.headD ' ')) :: tokens
  | .number => pushNumber (plain .number) tokens
  | .url => ofUrl lexeme.text lexeme.position ++ tokens

/-- The tokens of a list of lexemes. -/
def ofLexemes (lexemes : List Lexeme) : List Token :=
  (lexemes.foldl push []).reverse

/-- The tokens of a text. -/
def tokenize (source : String) : Except SyntaxError (List Token) :=
  (Lexeme.split .start source.toList).map ofLexemes

/-- The text of a stretch of tokens without its comments. -/
def sourceText (tokens : List Token) : String :=
  String.join ((tokens.filter (!·.isComment)).map (·.text))

/-- A stretch of tokens without the trivia at its ends. -/
def trim (tokens : List Token) : List Token :=
  ((tokens.dropWhile isTrivia).reverse.dropWhile isTrivia).reverse

end Token

end SheetLint
