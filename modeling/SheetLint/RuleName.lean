import SheetLint.Text.Alphanumeric
import SheetLint.Text.Uppercase

/-!
# Rule names

Rules are named by words of letters, digits, hyphens and underscores. A name in kebab case has a
second spelling in camel case, and configurations may use either.
-/

namespace SheetLint

/-- A character that may stand in a rule name. -/
def RuleName.isNameChar (c : Char) : Bool :=
  Text.isAlphanumeric c || c == '-' || c == '_'

/-- Rule names are not empty and hold name characters only. -/
def RuleName.isValid (text : String) : Bool :=
  !text.toList.isEmpty && text.toList.all isNameChar

/-- The name of a rule, known to be well formed. -/
structure RuleName where
  text : String
  valid : RuleName.isValid text = true := by decide
  deriving DecidableEq

namespace RuleName

/-- The rule name with this text, if it is well formed. -/
def ofString? (text : String) : Option RuleName :=
  if h : isValid text = true then some ⟨text, h⟩ else none

/-- The camel-case spelling of the characters of a name. Hyphens are dropped, and the character
    behind a run of them, which `raise` announces, is put in upper case. -/
def camelChars (raise : Bool) : List Char → List Char
  | [] => []
  | c :: cs =>
    if c = '-' then camelChars true cs
    else if raise then Text.upperCase c ++ camelChars false cs
    else c :: camelChars false cs

/-- The camel-case spelling of a name: `space-around-comma` is also `spaceAroundComma`. -/
def camelCase (name : RuleName) : String :=
  String.ofList (camelChars false name.text.toList)

/-- A key of a configuration means a rule if it is one of the spellings of the rule's name. -/
def isSpelled (name : RuleName) (key : String) : Bool :=
  key == name.text || key == name.camelCase

end RuleName

end SheetLint
