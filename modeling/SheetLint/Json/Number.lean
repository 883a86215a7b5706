/-!
# Numbers in JSON

Which texts are numbers, and which of them are too large for a double.
-/

namespace SheetLint.Json

/-- How many digits stand at the front. -/
def digitCount (cs : List Char) : Nat :=
  (cs.takeWhile Char.isDigit).length

/-- The length of the whole part: a zero that stands alone, or digits that begin with another. -/
def wholeLength? : List Char → Option Nat
  | '0' :: cs => if digitCount cs = 0 then some 1 else none
  | cs => if digitCount cs = 0 then none else some (digitCount cs)

/-- The length of the fraction, which is empty or a point with digits. -/
def fractionLength? : List Char → Option Nat
  | '.' :: cs => if digitCount cs = 0 then none else some (1 + digitCount cs)
  | _ => some 0

/-- The length of a sign, which is empty or a plus or minus. -/
def signLength : List Char → Nat
  | '+' :: _ | '-' :: _ => 1
  | _ => 0

/-- The length of the exponent, which is empty or a letter, perhaps a sign, and digits. -/
def exponentLength? : List Char → Option Nat
  | 'e' :: cs | 'E' :: cs =>
    let sign := signLength cs
    let digits := digitCount (cs.drop sign)
    if digits = 0 then none else some (1 + sign + digits)
  | _ => some 0

/-- The value of some decimal digits. -/
def digitsValue (cs : List Char) : Nat :=
  cs.foldl (fun n c => 10 * n + (c.toNat - '0'.toNat)) 0

/-- The least number that a double rounds to infinity. -/
def overflowBound : Nat := Nat.pow 2 1024 - Nat.pow 2 970

/-- The number `coefficient` times ten to the power of `exponent` is too large for a double. Powers
    are computed only where the count of digits does not decide. -/
def isTooLarge (coefficient : Nat) (exponent : Int) : Bool :=
  if coefficient = 0 then false
  else
    let magnitude : Int := (Nat.toDigits 10 coefficient).length + exponent
    if magnitude < 308 then false
    else if 310 < magnitude then true
    else if 0 ≤ exponent then overflowBound ≤ coefficient * Nat.pow 10 exponent.toNat
    else overflowBound * Nat.pow 10 (-exponent).toNat ≤ coefficient

/-- The length of the number at the front of a text, if there is one and a double can hold it. -/
def numberLength? (cs : List Char) : Option Nat := do
  let sign := if cs.head? = some '-' then 1 else 0
  let whole ← wholeLength? (cs.drop sign)
  let fraction ← fractionLength? (cs.drop (sign + whole))
  let power ← exponentLength? (cs.drop (sign + whole + fraction))
  let digits := (cs.drop sign).take whole ++ (cs.drop (sign + whole + 1)).take (fraction - 1)
  let powerText := (cs.drop (sign + whole + fraction + 1)).take (power - 1)
  let powerValue : Int :=
    if powerText.head? = some '-' then -(digitsValue (powerText.drop 1))
    else digitsValue (powerText.drop (signLength powerText))
  if isTooLarge (digitsValue digits) (powerValue - (fraction - 1 : Nat)) then none
  else some (sign + whole + fraction + power)

end SheetLint.Json
