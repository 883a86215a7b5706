/-!
# Expressions over bytes

The expressions that globs stand for, and whether one describes all of a string of bytes. Matching
keeps the set of expressions that may describe the rest of the string, so its cost is bounded by
the length of the string times the size of the expression.
-/

namespace SheetLint.Glob

/-- A set of bytes: those in one of the ranges, or those in none of them. -/
structure ByteSet where
  negated : Bool
  ranges : List (UInt8 × UInt8)
  deriving DecidableEq, Repr

namespace ByteSet

/-- The byte belongs to the set. -/
def contains (s : ByteSet) (b : UInt8) : Bool :=
  s.negated != s.ranges.any fun (first, last) => first ≤ b && b ≤ last

/-- Every byte. -/
def all : ByteSet := ⟨true, []⟩

/-- One byte. -/
def single (b : UInt8) : ByteSet := ⟨false, [(b, b)]⟩

/-- The byte that separates the parts of a path. -/
def separator : UInt8 := 0x2F

/-- Every byte but the separator. -/
def allButSeparator : ByteSet := ⟨true, [(separator, separator)]⟩

end ByteSet

/-- An expression over bytes. -/
inductive Expression where
  | empty
  | byte (set : ByteSet)
  | many (set : ByteSet)
  | seq (first second : Expression)
  | alt (first second : Expression)
  deriving DecidableEq, Repr

namespace Expression

/-- The expression describes the empty string. -/
def isNullable : Expression → Bool
  | empty => true
  | byte _ => false
  | many _ => true
  | seq first second => first.isNullable && second.isNullable
  | alt first second => first.isNullable || second.isNullable

/-- One expression behind the other, without an empty one in front. -/
def join : Expression → Expression → Expression
  | empty, second => second
  | first, second => seq first second

/-- The expressions one of which describes the rest of a string that begins with this byte. -/
def step (b : UInt8) : Expression → List Expression
  | empty => []
  | byte set => if set.contains b then [empty] else []
  | many set => if set.contains b then [many set] else []
  | seq first second =>
    (first.step b).map (join · second) ++ if first.isNullable then second.step b else []
  | alt first second => first.step b ++ second.step b

/-- One of the expressions describes the string. -/
def anyMatches (states : List Expression) : List UInt8 → Bool
  | [] => states.any isNullable
  | b :: bs => anyMatches (states.flatMap (step b)).eraseDups bs

/-- The expression describes the string. -/
def matches? (e : Expression) (bytes : List UInt8) : Bool :=
  anyMatches [e] bytes

/-- The expressions one behind the other. -/
def concat : List Expression → Expression
  | [] => empty
  | [e] => e
  | e :: es => seq e (concat es)

/-- One of the expressions; no expression at all stands for the empty one. -/
def choice : List Expression → Expression
  | [] => empty
  | [e] => e
  | e :: es => alt e (choice es)

end Expression

end SheetLint.Glob
