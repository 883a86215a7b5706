import SheetLint.Position
import SheetLint.Text.Escaped

/-!
# Syntax errors

Why a text is not a style sheet, and where it fails to be one.
-/

namespace SheetLint

/-- What is wrong with a text. The last cause is for readers of other notations. -/
inductive SyntaxError.Cause where
  | unterminatedComment
  | unterminatedString
  | unexpectedCharacter (c : Char)
  | unexpectedClosing (c : Char)
  | unclosedBlock
  | unclosedParenthesis
  | blockWithoutSelector
  | declarationWithoutProperty
  | nestingTooDeep
  | other (message : String)
  deriving DecidableEq, Repr

/-- The cause in words. -/
def SyntaxError.Cause.message : SyntaxError.Cause → String
  | unterminatedComment => "unterminated comment"
  | unterminatedString => "unterminated string"
  | unexpectedCharacter c => "unexpected character '" ++ String.ofList (Text.escaped c) ++ "'"
  | unexpectedClosing c => "unexpected '" ++ String.singleton c ++ "'"
  | unclosedBlock => "unclosed block"
  | unclosedParenthesis => "unclosed parenthesis"
  | blockWithoutSelector => "block without selector"
  | declarationWithoutProperty => "declaration without property"
  | nestingTooDeep => "nesting too deep"
  | other message => message

/-- A text is not a style sheet, for this cause at this place. -/
structure SyntaxError where
  cause : SyntaxError.Cause
  position : Position
  deriving DecidableEq, Repr

namespace SyntaxError

/-- The place and the cause in words. -/
def message (e : SyntaxError) : String :=
  "Syntax error at line " ++ toString e.position.line ++ ", column " ++
    toString e.position.column ++ ": " ++ e.cause.message

end SyntaxError

end SheetLint
