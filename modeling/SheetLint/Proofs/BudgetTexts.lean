import SheetLint.Budget
import Mathlib.Data.List.DropRight
import Mathlib.Data.Nat.Digits.Defs

/-!
# Texts of budgets

A budget is written as a whole number, perhaps with a sign, and blanks around it do not count
(`Budget.Numeral`, `Text.Trims`). Numbers are held in 64 bits, so a text can fail in two ways: it is
no number that can be held, or it is one below minus one. Which of the two it is, and which budget a
text stands for, is decided by the value of the digits alone (`Budget.parse_outcome`).
-/

namespace SheetLint

namespace Text

/-- The second text is the first without the blanks at its ends. -/
structure Trims (cs inner : List Char) : Prop where
  split : ∃ lead trail, cs = lead ++ inner ++ trail ∧
    (∀ c ∈ lead, isBlank c = true) ∧ ∀ c ∈ trail, isBlank c = true
  starts : ∀ c ∈ inner.head?, isBlank c = false
  ends : ∀ c ∈ inner.getLast?, isBlank c = false

/-- Trimming cuts off the blanks at both ends and nothing else. -/
theorem trims_trim (cs : List Char) : Trims cs (trim cs) := by
  have shape : trim cs = (cs.dropWhile isBlank).rdropWhile isBlank := rfl
  refine ⟨⟨cs.takeWhile isBlank, (cs.dropWhile isBlank).rtakeWhile isBlank, ?_, ?_, ?_⟩, ?_, ?_⟩
  · rw [shape, List.append_assoc, List.rdropWhile_append_rtakeWhile,
      List.takeWhile_append_dropWhile]
  · exact fun c => List.mem_takeWhile_imp
  · exact fun c => List.mem_rtakeWhile_imp
  · intro c first
    obtain ⟨rest, made⟩ := List.head?_eq_some_iff.mp first
    obtain ⟨more, joined⟩ : c :: rest <+: cs.dropWhile isBlank :=
      made ▸ List.rdropWhile_prefix isBlank (cs.dropWhile isBlank)
    have start := List.head?_dropWhile_not isBlank cs
    simpa [← joined] using start
  · intro c last
    obtain ⟨front, made⟩ := List.getLast?_eq_some_iff.mp last
    rw [shape] at made
    have some : (cs.dropWhile isBlank).rdropWhile isBlank ≠ [] := by simp [made]
    have final := List.rdropWhile_last_not isBlank (cs.dropWhile isBlank) some
    simpa [made] using final

end Text

namespace Budget

/-- The value of decimal digits. -/
def decimal (ds : List Char) : Nat :=
  Nat.ofDigits 10 (ds.reverse.map fun d => d.toNat - '0'.toNat)

/-- The text is one or more digits, perhaps behind one sign, and this is its value. -/
inductive Numeral : List Char → Int → Prop
  | plain {ds : List Char} (some : ds ≠ []) (digits : ∀ d ∈ ds, d.isDigit = true) :
      Numeral ds (decimal ds)
  | plus {ds : List Char} (some : ds ≠ []) (digits : ∀ d ∈ ds, d.isDigit = true) :
      Numeral ('+' :: ds) (decimal ds)
  | minus {ds : List Char} (some : ds ≠ []) (digits : ∀ d ∈ ds, d.isDigit = true) :
      Numeral ('-' :: ds) (-decimal ds)

theorem foldl_eq_decimal (ds : List Char) :
    ds.foldl (fun n d => 10 * n + (d.toNat - '0'.toNat)) 0 = decimal ds := by
  rw [decimal, Nat.ofDigits_eq_foldr, List.foldr_map, List.foldr_reverse]
  simp [Nat.add_comm]

theorem digitsValue?_eq_some {ds : List Char} {n : Nat} :
    digitsValue? ds = some n ↔ ds ≠ [] ∧ (∀ d ∈ ds, d.isDigit = true) ∧ n = decimal ds := by
  rw [digitsValue?, foldl_eq_decimal, Option.ite_none_right_eq_some, Bool.and_eq_true,
    List.all_eq_true, and_assoc, Option.some.injEq, eq_comm (a := n)]
  simp

/-- The numbers that are read are the values of numerals. -/
theorem signed?_eq_some {cs : List Char} {v : Int} : signed? cs = some v ↔ Numeral cs v := by
  constructor
  · intro h
    unfold signed? at h
    split at h <;>
      simp only [Option.map_eq_some_iff, Option.bind_eq_bind, Option.bind_eq_some_iff,
        Option.pure_def, Option.some.injEq] at h <;>
      obtain ⟨_, ⟨n, read, rfl⟩, rfl⟩ := h <;>
      obtain ⟨some, digits, rfl⟩ := digitsValue?_eq_some.mp read
    · exact .plus some digits
    · exact .minus some digits
    · exact .plain some digits
  · intro h
    cases h with
    | plus some digits =>
      rw [signed?, digitsValue?_eq_some.mpr ⟨some, digits, rfl⟩]
      rfl
    | minus some digits =>
      rw [signed?, digitsValue?_eq_some.mpr ⟨some, digits, rfl⟩]
      rfl
    | plain some digits =>
      unfold signed?
      split
      · cases digits '+' List.mem_cons_self
      · cases digits '-' List.mem_cons_self
      · rw [digitsValue?_eq_some.mpr ⟨some, digits, rfl⟩]
        rfl

theorem Numeral.unique {cs : List Char} {v w : Int} (left : Numeral cs v) (right : Numeral cs w) :
    v = w :=
  Option.some.inj ((signed?_eq_some.mpr left).symm.trans (signed?_eq_some.mpr right))

theorem fitsWord_iff {v : Int} : fitsWord v = true ↔ -2 ^ 63 ≤ v ∧ v ≤ 2 ^ 63 - 1 := by
  rw [fitsWord, Bool.and_eq_true, decide_eq_true_eq, decide_eq_true_eq]
  rfl

theorem ofLimit?_natCast (n : Nat) : ofLimit? n = some (.max n) := by
  rw [ofLimit?, if_neg (by omega), if_pos (Int.natCast_nonneg n), Int.toNat_natCast]

theorem ofLimit?_of_lt {v : Int} (below : v < -1) : ofLimit? v = none := by
  rw [ofLimit?, if_neg (by omega), if_neg (by omega)]

/-- What comes of a text, by the number in it. -/
inductive Outcome (text : String) : Except BudgetError Budget → Prop
  | unlimited (numeral : Numeral (Text.trim text.toList) (-1)) : Outcome text (.ok .unlimited)
  | max {n : Nat} (numeral : Numeral (Text.trim text.toList) n) (high : (n : Int) ≤ 2 ^ 63 - 1) :
      Outcome text (.ok (.max n))
  | belowMinusOne {v : Int} (numeral : Numeral (Text.trim text.toList) v) (low : -2 ^ 63 ≤ v)
      (below : v < -1) : Outcome text (.error (.belowMinusOne v))
  | notWhole (outside : ∀ v, Numeral (Text.trim text.toList) v → v < -2 ^ 63 ∨ 2 ^ 63 - 1 < v) :
      Outcome text (.error (.notWhole text))

/-- Every text has an outcome. -/
theorem exists_outcome (text : String) : ∃ result, Outcome text result := by
  cases read : signed? (Text.trim text.toList) with
  | none =>
    refine ⟨_, .notWhole ?_⟩
    intro v numeral
    cases read.symm.trans (signed?_eq_some.mpr numeral)
  | some v =>
    have numeral := signed?_eq_some.mp read
    by_cases held : -2 ^ 63 ≤ v ∧ v ≤ 2 ^ 63 - 1
    · rcases lt_trichotomy v (-1) with below | rfl | above
      · exact ⟨_, .belowMinusOne numeral held.1 below⟩
      · exact ⟨_, .unlimited numeral⟩
      · obtain ⟨n, rfl⟩ : ∃ n : Nat, v = n := ⟨v.toNat, by omega⟩
        exact ⟨_, .max numeral held.2⟩
    · refine ⟨_, .notWhole ?_⟩
      intro w other
      have same := other.unique numeral
      omega

theorem parse_of_numeral {text : String} {v : Int} (numeral : Numeral (Text.trim text.toList) v)
    (low : -2 ^ 63 ≤ v) (high : v ≤ 2 ^ 63 - 1) :
    parse text = (ofLimit? v).elim (.error (.belowMinusOne v)) .ok := by
  rw [parse, signed?_eq_some.mpr numeral, Option.filter_some, if_pos (fitsWord_iff.mpr ⟨low, high⟩)]
  dsimp only
  cases ofLimit? v <;> rfl

/-- Parsing a text gives its outcome. -/
theorem Outcome.parse_eq {text : String} {result : Except BudgetError Budget}
    (h : Outcome text result) : parse text = result := by
  cases h with
  | unlimited numeral => exact parse_of_numeral numeral (by omega) (by omega)
  | max numeral high =>
    rw [parse_of_numeral numeral (by omega) high, ofLimit?_natCast, Option.elim_some]
  | belowMinusOne numeral low below =>
    rw [parse_of_numeral numeral low (by omega), ofLimit?_of_lt below, Option.elim_none]
  | notWhole outside =>
    have unheld : (signed? (Text.trim text.toList)).filter fitsWord = none := by
      rw [Option.filter_eq_none_iff]
      intro v read fits
      have range := fitsWord_iff.mp fits
      have excess := outside v (signed?_eq_some.mp read)
      omega
    rw [parse, unheld]

theorem parse_eq_iff {text : String} {result : Except BudgetError Budget} :
    parse text = result ↔ Outcome text result := by
  constructor
  · rintro rfl
    obtain ⟨result, outcome⟩ := exists_outcome text
    rw [outcome.parse_eq]
    exact outcome
  · exact Outcome.parse_eq

/-- A text is a budget if it is a numeral between blanks with a value from minus one to the largest
    word. Minus one is no bound, and any other value is the bound. A numeral with a value below
    minus one that can be held is refused for that, and all else for not being a number. A bound is
    exceeded by the numbers above it. -/
theorem parse_outcome (text : String) :
    let cs := Text.trim text.toList
    Text.Trims text.toList cs ∧
    ((∃ budget, parse text = .ok budget) ↔ ∃ v, Numeral cs v ∧ -1 ≤ v ∧ v ≤ 2 ^ 63 - 1) ∧
    (parse text = .ok .unlimited ↔ Numeral cs (-1)) ∧
    (∀ n, parse text = .ok (.max n) ↔ Numeral cs n ∧ (n : Int) ≤ 2 ^ 63 - 1) ∧
    (∀ e, parse text = .error e ↔
      (∃ v, Numeral cs v ∧ -2 ^ 63 ≤ v ∧ v < -1 ∧ e = .belowMinusOne v) ∨
      ((∀ v, Numeral cs v → v < -2 ^ 63 ∨ 2 ^ 63 - 1 < v) ∧ e = .notWhole text)) ∧
    (∀ v, (BudgetError.belowMinusOne v).message = toString v ++ " is below -1") ∧
    (BudgetError.notWhole text).message = "'" ++ text ++ "' is not a whole number" ∧
    ∀ n warnings, (max n).isExceededBy warnings = true ↔ n < warnings := by
  intro cs
  simp only [parse_eq_iff]
  refine ⟨Text.trims_trim text.toList, ?_, ?_, ?_, ?_, fun _ => rfl, rfl, ?_⟩
  · constructor
    · rintro ⟨budget, outcome⟩
      cases outcome with
      | unlimited numeral => exact ⟨-1, numeral, by omega, by omega⟩
      | max numeral high => exact ⟨_, numeral, by omega, high⟩
    · rintro ⟨v, numeral, low, high⟩
      rcases Int.lt_or_eq_of_le low with above | rfl
      · obtain ⟨n, rfl⟩ : ∃ n : Nat, v = n := ⟨v.toNat, by omega⟩
        exact ⟨_, .max numeral high⟩
      · exact ⟨_, .unlimited numeral⟩
  · constructor
    · rintro ⟨numeral⟩
      exact numeral
    · exact .unlimited
  · intro n
    constructor
    · intro outcome
      cases outcome with
      | max numeral high => exact ⟨numeral, high⟩
    · rintro ⟨numeral, high⟩
      exact .max numeral high
  · intro e
    constructor
    · intro outcome
      cases outcome with
      | belowMinusOne numeral low below => exact .inl ⟨_, numeral, low, below, rfl⟩
      | notWhole outside => exact .inr ⟨outside, rfl⟩
    · rintro (⟨v, numeral, low, below, rfl⟩ | ⟨outside, rfl⟩)
      · exact .belowMinusOne numeral low below
      · exact .notWhole outside
  · simp [isExceededBy]

-- the two errors meet at the smallest word
example : parse " -9223372036854775808" = .error (.belowMinusOne (-2 ^ 63)) := rfl

example : parse " -9223372036854775809" = .error (.notWhole " -9223372036854775809") := rfl

end Budget

end SheetLint
