import SheetLint.Glob.Expression
import SheetLint.Glob.Pattern
import SheetLint.Path

/-!
# Globs

A glob describes paths. It is matched against all of a path, byte by byte.
-/

namespace SheetLint

/-- A pattern for paths, read from its text. -/
structure Glob where
  text : String
  expression : Glob.Expression

namespace Glob

/-- The bytes of a character. -/
def bytes (c : Char) : List UInt8 :=
  (String.singleton c).toUTF8.toList

/-- The ranges of bytes of a range of characters. A character beyond ASCII stands for its bytes one
    by one, so only the last byte of the first character and the first byte of the last character
    bound a range. -/
def byteRanges (range : Char × Char) : List (UInt8 × UInt8) :=
  let first := bytes range.1
  if range.1 = range.2 then first.map fun b => (b, b)
  else
    let last := bytes range.2
    first.dropLast.map (fun b => (b, b)) ++ [(first.getLastD 0, last.headD 0)] ++
      (last.drop 1).map fun b => (b, b)

/-- Which bytes the wildcards take. -/
def wild (separated : Bool) : ByteSet :=
  if separated then .allButSeparator else .all

/-- The separator of paths. -/
def slash : Expression :=
  .byte (.single ByteSet.separator)

/-- Anything that ends in a separator. -/
def directories : Expression :=
  .seq (.many .all) slash

mutual

/-- What a part describes. If `separated` is set, single wildcards do not take separators. A group
    in which nothing is left describes nothing and is dropped. -/
def partExpression? (separated : Bool) : Part → Option Expression
  | .literal c => some (.concat ((bytes c).map (.byte ∘ .single)))
  | .any => some (.byte (wild separated))
  | .star => some (.many (wild separated))
  | .leadingDirectories => some (.choice [.empty, slash, directories])
  | .trailingEntries => some (.seq slash (.many .all))
  | .innerDirectories => some (.seq slash (.choice [.empty, directories]))
  | .charClass negated ranges => some (.byte ⟨negated, ranges.flatMap byteRanges⟩)
  | .group alternatives =>
    match alternativeExpressions separated alternatives with
    | [] => none
    | choices => some (.choice choices)

/-- What the alternatives of a group describe. Those in which nothing is left are dropped. -/
def alternativeExpressions (separated : Bool) : List (List Part) → List Expression
  | [] => []
  | parts :: rest =>
    match partExpressions separated parts with
    | [] => alternativeExpressions separated rest
    | expressions => .concat expressions :: alternativeExpressions separated rest

/-- What some parts describe. -/
def partExpressions (separated : Bool) : List Part → List Expression
  | [] => []
  | part :: rest =>
    (partExpression? separated part).toList ++ partExpressions separated rest

end

/-- What a whole glob describes. Leading directories alone are everything. -/
def patternExpression (separated : Bool) : List Part → Expression
  | [.leadingDirectories] => .many .all
  | parts => .concat (partExpressions separated parts)

/-- Reads a glob whose wildcards also take separators. -/
def parse (text : String) : Except Fault Glob := do
  let parts ← parts? false text
  return ⟨text, patternExpression false parts⟩

/-- Reads a glob whose single wildcards stay between separators, and in which a bracket that is not
    closed is a character. -/
def parseSeparated (text : String) : Except Fault Glob := do
  let parts ← parts? true text
  return ⟨text, patternExpression true parts⟩

/-- The glob describes the path. -/
def describes (g : Glob) (path : Path) : Bool :=
  g.expression.matches? path.bytes

/-- The fault of a text that is not a glob, with the text. -/
def faultMessage (text : String) (fault : Fault) : String :=
  "error parsing glob '" ++ text ++ "': " ++ fault.message

end Glob

end SheetLint
