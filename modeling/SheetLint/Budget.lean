import SheetLint.Text.Blank

/-!
# Warning budgets

How many warnings a run may have before it fails.
-/

namespace SheetLint

/-- A bound on the number of warnings, or none. -/
inductive Budget where
  | unlimited
  | max (count : Nat)
  deriving DecidableEq, Repr

/-- Why a text is not a budget. -/
inductive BudgetError where
  | notWhole (text : String)
  | belowMinusOne (limit : Int)
  deriving DecidableEq, Repr

/-- The reason in words. -/
def BudgetError.message : BudgetError → String
  | notWhole text => "'" ++ text ++ "' is not a whole number"
  | belowMinusOne limit => toString limit ++ " is below -1"

namespace Budget

/-- No warnings at all. -/
def default : Budget := max 0

/-- The budget for a limit, where minus one stands for no bound. -/
def ofLimit? (limit : Int) : Option Budget :=
  if limit = -1 then some unlimited
  else if 0 ≤ limit then some (max limit.toNat)
  else none

/-- That many warnings are too many. -/
def isExceededBy (budget : Budget) (warnings : Nat) : Bool :=
  match budget with
  | unlimited => false
  | max count => count < warnings

/-- The value of decimal digits, at least one of which must be there. -/
def digitsValue? (cs : List Char) : Option Nat :=
  if !cs.isEmpty && cs.all Char.isDigit then
    some (cs.foldl (fun n c => 10 * n + (c.toNat - '0'.toNat)) 0)
  else none

/-- The whole number that a text of digits, perhaps behind one sign, stands for. -/
def signed? : List Char → Option Int
  | '+' :: cs => (digitsValue? cs).map fun n => (n : Int)
  | '-' :: cs => (digitsValue? cs).map fun n => -(n : Int)
  | cs => (digitsValue? cs).map fun n => (n : Int)

/-- Whole numbers are held in 64 bits. -/
def fitsWord (n : Int) : Bool :=
  Int64.minValue.toInt ≤ n && n ≤ Int64.maxValue.toInt

/-- Reads a budget from a text, in which blanks at the ends do not count. -/
def parse (text : String) : Except BudgetError Budget :=
  match (signed? (Text.trim text.toList)).filter fitsWord with
  | none => .error (.notWhole text)
  | some limit =>
    match ofLimit? limit with
    | some budget => .ok budget
    | none => .error (.belowMinusOne limit)

end Budget

end SheetLint
