import SheetLint.Document
import SheetLint.Json.Number
import SheetLint.Toml.Lexical

/-!
# Numbers and points in time of TOML
-/

namespace SheetLint.Toml

open Scan

/-- Digits of some base with single underscores between them. -/
def digits (isDigit : Char → Bool) : Scan (List Char) := do
  let first ← satisfy isDigit
  let rest ← many (satisfy isDigit <|> (do char '_'; satisfy isDigit))
  return first :: rest

/-- A sign, perhaps none. -/
def sign : Scan (List Char) := do
  let c ← optional (satisfy (fun c => c == '+' || c == '-'))
  return c.toList

/-- A decimal whole number, without leading zeros. -/
def decimal : Scan (List Char × List Char) := do
  let s ← sign
  let cs ← (do
      let first ← satisfy (fun c => '1' ≤ c && c ≤ '9')
      let rest ← many (satisfy Char.isDigit <|> (do char '_'; satisfy Char.isDigit))
      return first :: rest)
    <|> (do char '0'; return ['0'])
  return (s, cs)

/-- The value of some digits of a base. -/
def valueOf (base : Nat) (cs : List Char) : Nat :=
  cs.foldl (fun n c => base * n + (Json.hexDigit? c).getD 0) 0

/-- A whole number must fit in 64 bits with a sign. -/
def fits (negative : Bool) (value : Nat) : Bool :=
  value < Nat.pow 2 63 || (negative && value == Nat.pow 2 63)

/-- A whole number in another base, behind a zero and a letter. -/
def based (letter : Char) (base : Nat) (isDigit : Char → Bool) : Scan (List Char) := do
  chars ['0', letter]
  let cs ← digits isDigit
  if fits false (valueOf base cs) then return '0' :: letter :: cs else refuse

/-- A whole number. -/
def integer : Scan (List Char) :=
  based 'x' 16 (fun c => (Json.hexDigit? c).isSome)
  <|> based 'o' 8 (fun c => '0' ≤ c && c ≤ '7')
  <|> based 'b' 2 (fun c => c == '0' || c == '1')
  <|> (do
    let (s, cs) ← decimal
    if fits (s == ['-']) (valueOf 10 cs) then return s ++ cs else refuse)

/-- An exponent: its sign and its digits. -/
def exponent : Scan (List Char × List Char) := do
  let _ ← satisfy (fun c => c == 'e' || c == 'E')
  let s ← sign
  let cs ← digits Char.isDigit
  return (s, cs)

/-- A point and the digits behind it. -/
def fraction : Scan (List Char) := do
  char '.'
  digits Char.isDigit

/-- A number with a fraction or an exponent. Above all doubles it is refused; below all of them it
    counts as infinite. -/
def float : Scan (List Char) := do
  let (s, whole) ← decimal
  let (part, power) ← (do
      let power ← exponent
      return ([], some power))
    <|> (do
      let part ← fraction
      let power ← optional exponent
      return (part, power))
  let (ps, pcs) := power.getD ([], ['0'])
  let magnitude : Int := valueOf 10 pcs
  let shift := (if ps == ['-'] then -magnitude else magnitude) - (part.length : Int)
  if s != ['-'] && Json.isTooLarge (valueOf 10 (whole ++ part)) shift then refuse
  else
    let point := if part.isEmpty then [] else '.' :: part
    return s ++ whole ++ point ++ (power.map fun (ps, pcs) => 'e' :: ps ++ pcs).getD []

/-- The numbers that are written as words. -/
def special : Scan (List Char) := do
  let s ← sign
  let word ← (do chars ['i', 'n', 'f']; return ['i', 'n', 'f'])
    <|> (do chars ['n', 'a', 'n']; return ['n', 'a', 'n'])
  return s ++ word

/-- A number. -/
def number : Scan Document := do
  let cs ← float <|> special <|> integer
  return .number (String.ofList cs)

/-- That many digits with a value in a range. -/
def field (count least most : Nat) : Scan (List Char × Nat) := do
  let cs ← exactly Char.isDigit count
  let value := valueOf 10 cs
  if least ≤ value ∧ value ≤ most then return (cs, value) else refuse

/-- The year has a day more in February. -/
def isLeap (year : Nat) : Bool :=
  year % 4 == 0 && (year % 100 != 0 || year % 400 == 0)

/-- The number of days of a month. -/
def daysIn (year month : Nat) : Nat :=
  if month == 2 then (if isLeap year then 29 else 28)
  else if [4, 6, 9, 11].contains month then 30
  else 31

/-- A date. -/
def date : Scan (List Char) := do
  let (ys, year) ← field 4 0 9999
  char '-'
  let (ms, month) ← field 2 1 12
  char '-'
  let (ds, _) ← field 2 1 (daysIn year month)
  return ys ++ '-' :: ms ++ '-' :: ds

/-- A time of day. A minute may have a leap second. -/
def time : Scan (List Char) := do
  let (hs, _) ← field 2 0 23
  char ':'
  let (ms, _) ← field 2 0 59
  char ':'
  let (ss, _) ← field 2 0 60
  let part ← optional (do
    char '.'
    let cs ← takeWhile1 Char.isDigit
    return '.' :: cs)
  return hs ++ ':' :: ms ++ ':' :: ss ++ part.getD []

/-- The distance of a time zone from universal time. -/
def offset : Scan (List Char) :=
  (do let c ← satisfy (fun c => c == 'Z' || c == 'z'); return [c])
  <|> (do
    let s ← satisfy (fun c => c == '+' || c == '-')
    let (hs, _) ← field 2 0 23
    char ':'
    let (ms, _) ← field 2 0 59
    return s :: hs ++ ':' :: ms)

/-- A date, a time of day, or a date with a time of day and perhaps a time zone. -/
def moment : Scan Document := do
  let cs ← (do
      let d ← date
      let rest ← optional (do
        let sep ← satisfy (fun c => c == 'T' || c == 't' || c == ' ')
        let t ← time
        let o ← optional offset
        return sep :: t ++ o.getD [])
      return d ++ rest.getD [])
    <|> time
  return .moment (String.ofList cs)

/-- A truth value. -/
def truth : Scan Document :=
  (do chars ['t', 'r', 'u', 'e']; return .bool true)
  <|> (do chars ['f', 'a', 'l', 's', 'e']; return .bool false)

end SheetLint.Toml
