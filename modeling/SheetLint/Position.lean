/-!
# Positions

Places in a source text, counted in lines and characters from one. Only the line feed ends a line.
-/

namespace SheetLint

/-- A place in a source text: its line and the character column in that line. -/
structure Position where
  line : Nat
  column : Nat
  deriving DecidableEq, Repr

namespace Position

/-- The first character of a text. -/
def start : Position := ⟨1, 1⟩

instance : Inhabited Position := ⟨start⟩

/-- The place behind one character. -/
def next (p : Position) (c : Char) : Position :=
  if c = '\n' then ⟨p.line + 1, 1⟩ else ⟨p.line, p.column + 1⟩

/-- The place behind a stretch of text. -/
def advance (p : Position) (cs : List Char) : Position :=
  cs.foldl next p

@[simp]
theorem advance_nil (p : Position) : p.advance [] = p := rfl

@[simp]
theorem advance_cons (p : Position) (c : Char) (cs : List Char) :
    p.advance (c :: cs) = (p.next c).advance cs := rfl

theorem advance_append (p : Position) (xs ys : List Char) :
    p.advance (xs ++ ys) = (p.advance xs).advance ys := by
  simp [advance, List.foldl_append]

/-- The place that many columns further on the same line. -/
def shift (p : Position) (columns : Nat) : Position :=
  ⟨p.line, p.column + columns⟩

/-- Reading order: earlier lines first, then earlier columns. -/
protected def le (p q : Position) : Prop :=
  p.line < q.line ∨ (p.line = q.line ∧ p.column ≤ q.column)

instance : LE Position := ⟨Position.le⟩

instance (p q : Position) : Decidable (p ≤ q) :=
  inferInstanceAs (Decidable (p.line < q.line ∨ (p.line = q.line ∧ p.column ≤ q.column)))

/-- The places in reading order. -/
def sort (ps : List Position) : List Position :=
  ps.mergeSort (fun p q => decide (p ≤ q))

/-- Line and column with a colon between them. -/
def render (p : Position) : String :=
  toString p.line ++ ":" ++ toString p.column

end Position

end SheetLint
