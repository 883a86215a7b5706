import SheetLint.Node
import SheetLint.Stylesheet.Group

/-!
# Values

The trees of what stands in values, selectors and calls: words, numbers, colours, strings and
functions with their arguments.
-/

namespace SheetLint

/-- How deep blocks may be nested, and how deep round brackets in one value. -/
def maxNesting : Nat := 128

namespace Token

/-- The digits of a colour: three, four, six or eight hexadecimal digits. -/
def isHexColor (digits : List Char) : Bool :=
  [3, 4, 6, 8].contains digits.length &&
    digits.all fun c => c.isDigit || ('a' ≤ c && c ≤ 'f') || ('A' ≤ c && c ≤ 'F')

/-- The text of a number has no unit. -/
def isUnitless (text : List Char) : Bool :=
  text.all fun c => c.isDigit || c == '.' || c == '-' || c == '+'

/-- The leaf for a token that stands alone; comments have none. In a selector a hash is the name of
    an element and never a colour. -/
def leaf? (inSelector : Bool) (t : Token) : Option Node :=
  match t.kind with
  | .comment => none
  | .whitespace => some (.leaf .space t.text t.position)
  | .string => some (.leaf .string t.text t.position)
  | .atWord => some (.leaf .var t.text t.position)
  | .hash =>
    let digits := t.text.toList.drop 1
    if !inSelector && isHexColor digits then some (.leaf .color (String.ofList digits) t.position)
    else some (.leaf .ident t.text t.position)
  | .number =>
    some (.leaf (if isUnitless t.text.toList then .number else .dimension) t.text t.position)
  | .word => some (.leaf .ident t.text t.position)
  | .delimiter _ => some (.leaf .operator t.text t.position)

end Token

namespace Group

mutual

/-- The nodes of a group inside `depth` pairs of brackets: one, or none for a comment. -/
def nodes (inSelector : Bool) (depth : Nat) : Group → Except SyntaxError (List Node)
  | single t => .ok (t.leaf? inSelector).toList
  | parens opening inner =>
    if maxNesting ≤ depth then .error ⟨.nestingTooDeep, opening.position⟩
    else do
      let children ← nodesOf inSelector (depth + 1) inner
      return [.branch .parentheses opening.position children]
  | call word opening inner =>
    if maxNesting ≤ depth then .error ⟨.nestingTooDeep, opening.position⟩
    else do
      let children ← nodesOf inSelector (depth + 1) inner
      return [⟨.function, word.text, word.position,
        [.branch .arguments opening.position children]⟩]

/-- The nodes of some groups, one behind the other. -/
def nodesOf (inSelector : Bool) (depth : Nat) : List Group → Except SyntaxError (List Node)
  | [] => .ok []
  | g :: gs => do
    let first ← g.nodes inSelector depth
    let rest ← nodesOf inSelector depth gs
    return first ++ rest

end

end Group

/-- The nodes of some tokens of a value, a selector or a call. -/
def values (inSelector : Bool) (tokens : List Token) : Except SyntaxError (List Node) := do
  let (groups, fault) := Group.ofTokens tokens
  let nodes ← Group.nodesOf inSelector 0 groups
  match fault with
  | none => return nodes
  | some e => throw e

end SheetLint
