import SheetLint.Json.Number
import Mathlib.Data.List.TakeWhile

/-!
# Numbers in a text

How long a number is depends on its own characters only: a text that cannot go on with a number does
not change its length (`Json.numberLength?_append`). The decimal digits of a natural number are a
number, unless it is too large for a double (`Json.isNumber_toString`), and they tell its value
(`Json.digitsValue_toDigits`).
-/

namespace SheetLint.Json

theorem wholeLength?_cons (c : Char) (cs : List Char) : wholeLength? (c :: cs) =
    if c = '0' then if digitCount cs = 0 then some 1 else none
    else if digitCount (c :: cs) = 0 then none else some (digitCount (c :: cs)) := by
  rw [wholeLength?.eq_def]
  split <;> simp_all

theorem fractionLength?_cons (c : Char) (cs : List Char) : fractionLength? (c :: cs) =
    if c = '.' then if digitCount cs = 0 then none else some (1 + digitCount cs) else some 0 := by
  rw [fractionLength?.eq_def]
  split <;> simp_all

theorem signLength_cons (c : Char) (cs : List Char) :
    signLength (c :: cs) = if c = '+' ∨ c = '-' then 1 else 0 := by
  rw [signLength.eq_def]
  split <;> simp_all

theorem exponentLength?_cons (c : Char) (cs : List Char) : exponentLength? (c :: cs) =
    if c = 'e' ∨ c = 'E' then
      if digitCount (cs.drop (signLength cs)) = 0 then none
      else some (1 + signLength cs + digitCount (cs.drop (signLength cs)))
    else some 0 := by
  rw [exponentLength?.eq_def]
  split <;> simp_all

section Lengths

variable {cs : List Char} {n : Nat}

theorem minusLength_le (cs : List Char) : (if cs.head? = some '-' then 1 else 0) ≤ cs.length := by
  cases cs with
  | nil => exact Nat.le_refl 0
  | cons c cs =>
    rw [List.length_cons]
    split <;> omega

theorem digitCount_le (cs : List Char) : digitCount cs ≤ cs.length :=
  (List.takeWhile_prefix _).length_le

theorem wholeLength?_le (h : wholeLength? cs = some n) : n ≤ cs.length := by
  cases cs with
  | nil => cases h
  | cons c cs =>
    have counted := digitCount_le (c :: cs)
    rw [wholeLength?_cons] at h
    split at h <;> split at h <;> cases h
    · simp
    · exact counted

/-- A whole number begins with a digit. -/
theorem isDigit_of_wholeLength? {c : Char} (h : wholeLength? (c :: cs) = some n) :
    c.isDigit = true := by
  rw [wholeLength?_cons] at h
  split at h
  · next zero =>
    rw [zero]
    rfl
  · have some : digitCount (c :: cs) ≠ 0 := (Option.ite_none_left_eq_some.mp h).1
    by_contra other
    rw [digitCount, List.takeWhile_cons, if_neg other] at some
    exact some rfl

theorem fractionLength?_le (h : fractionLength? cs = some n) : n ≤ cs.length := by
  cases cs with
  | nil =>
    cases h
    exact Nat.le_refl 0
  | cons c cs =>
    have counted := digitCount_le cs
    rw [fractionLength?_cons] at h
    split at h
    · split at h <;> cases h
      rw [List.length_cons]
      omega
    · cases h
      exact Nat.zero_le _

theorem signLength_le (cs : List Char) : signLength cs ≤ cs.length := by
  cases cs with
  | nil => exact Nat.le_refl 0
  | cons c cs =>
    rw [signLength_cons, List.length_cons]
    split <;> omega

theorem exponentLength?_le (h : exponentLength? cs = some n) : n ≤ cs.length := by
  cases cs with
  | nil =>
    cases h
    exact Nat.le_refl 0
  | cons c cs =>
    have signed := signLength_le cs
    have counted := digitCount_le (cs.drop (signLength cs))
    rw [List.length_drop] at counted
    rw [exponentLength?_cons] at h
    split at h
    · split at h <;> cases h
      rw [List.length_cons]
      omega
    · cases h
      exact Nat.zero_le _

end Lengths

/-- The characters of numbers. -/
def isNumeric (c : Char) : Bool :=
  c.isDigit || ['+', '-', '.', 'e', 'E'].contains c

/-- The text cannot go on with a number. -/
def Stops (rest : List Char) : Prop :=
  ∀ c ∈ rest.head?, isNumeric c = false

theorem stops_nil : Stops [] := by
  intro c member
  cases member

section Stops

variable {c : Char} {rest : List Char}

theorem stops_cons (other : isNumeric c = false) : Stops (c :: rest) := by
  intro d first
  cases first
  exact other

theorem Stops.ne (stops : Stops (c :: rest)) {d : Char} (numeric : isNumeric d = true) : c ≠ d := by
  rintro rfl
  rw [stops c rfl] at numeric
  cases numeric

theorem Stops.isDigit (stops : Stops (c :: rest)) : c.isDigit = false := by
  have other := stops c rfl
  rw [isNumeric, Bool.or_eq_false_iff] at other
  exact other.1

theorem digitCount_of_stops (stops : Stops rest) : digitCount rest = 0 := by
  cases rest with
  | nil => rfl
  | cons c rest =>
    rw [digitCount, List.takeWhile_cons, stops.isDigit]
    rfl

theorem digitCount_append (cs : List Char) (stops : Stops rest) :
    digitCount (cs ++ rest) = digitCount cs := by
  have none := List.length_eq_zero_iff.mp (digitCount_of_stops stops)
  rw [digitCount, digitCount, List.takeWhile_append]
  split
  · next all => rw [none, List.append_nil, all]
  · rfl

/-- A whole number ends in front of anything that stops a number. -/
theorem wholeLength?_append (cs : List Char) (stops : Stops rest) :
    wholeLength? (cs ++ rest) = wholeLength? cs := by
  cases cs with
  | nil =>
    cases rest with
    | nil => rfl
    | cons c rest =>
      rw [List.nil_append, wholeLength?_cons, if_neg (stops.ne rfl), digitCount_of_stops stops]
      rfl
  | cons c cs =>
    have counted := digitCount_append (c :: cs) stops
    rw [List.cons_append] at counted ⊢
    rw [wholeLength?_cons, wholeLength?_cons, digitCount_append cs stops, counted]

theorem fractionLength?_append (cs : List Char) (stops : Stops rest) :
    fractionLength? (cs ++ rest) = fractionLength? cs := by
  cases cs with
  | nil =>
    cases rest with
    | nil => rfl
    | cons c rest =>
      rw [List.nil_append, fractionLength?_cons, if_neg (stops.ne rfl)]
      rfl
  | cons c cs =>
    rw [List.cons_append, fractionLength?_cons, fractionLength?_cons, digitCount_append cs stops]

theorem signLength_append (cs : List Char) (stops : Stops rest) :
    signLength (cs ++ rest) = signLength cs := by
  cases cs with
  | nil =>
    cases rest with
    | nil => rfl
    | cons c rest =>
      have unsigned : ¬ (c = '+' ∨ c = '-') := not_or.mpr ⟨stops.ne rfl, stops.ne rfl⟩
      rw [List.nil_append, signLength_cons, if_neg unsigned]
      rfl
  | cons c cs => rw [List.cons_append, signLength_cons, signLength_cons]

/-- An exponent ends in front of anything that stops a number. -/
theorem exponentLength?_append (cs : List Char) (stops : Stops rest) :
    exponentLength? (cs ++ rest) = exponentLength? cs := by
  cases cs with
  | nil =>
    cases rest with
    | nil => rfl
    | cons c rest =>
      have other : ¬ (c = 'e' ∨ c = 'E') := not_or.mpr ⟨stops.ne rfl, stops.ne rfl⟩
      rw [List.nil_append, exponentLength?_cons, if_neg other]
      rfl
  | cons c cs =>
    rw [List.cons_append, exponentLength?_cons, exponentLength?_cons, signLength_append cs stops,
      List.drop_append_of_le_length (signLength_le cs), digitCount_append _ stops]

theorem head?_append_eq_minus (cs : List Char) (stops : Stops rest) :
    (cs ++ rest).head? = some '-' ↔ cs.head? = some '-' := by
  cases cs with
  | nil =>
    cases rest with
    | nil => rfl
    | cons c rest => simp [stops.ne (d := '-') rfl]
  | cons c cs => rfl

theorem slice_append {cs : List Char} {i k : Nat} (inside : k = 0 ∨ i + k ≤ cs.length) :
    ((cs ++ rest).drop i).take k = (cs.drop i).take k := by
  rcases inside with rfl | bound
  · rfl
  · rw [List.drop_append_of_le_length (by omega), List.take_append_of_le_length]
    rw [List.length_drop]
    omega

/-- What cannot go on with a number does not change its length. -/
theorem numberLength?_append (cs : List Char) (stops : Stops rest) :
    numberLength? (cs ++ rest) = numberLength? cs := by
  unfold numberLength?
  simp only [head?_append_eq_minus cs stops]
  have signBound := minusLength_le cs
  generalize (if cs.head? = some '-' then 1 else 0) = sign at signBound ⊢
  -- each part ends inside of the number, so the next part is looked for in front of `rest`
  rw [List.drop_append_of_le_length signBound, wholeLength?_append _ stops]
  cases isWhole : wholeLength? (cs.drop sign) with
  | none => rfl
  | some whole =>
    have wholeBound := wholeLength?_le isWhole
    rw [List.length_drop] at wholeBound
    simp only [Option.bind_eq_bind, Option.bind_some]
    rw [List.drop_append_of_le_length (by omega), fractionLength?_append _ stops]
    cases isFraction : fractionLength? (cs.drop (sign + whole)) with
    | none => rfl
    | some fraction =>
      have fractionBound := fractionLength?_le isFraction
      rw [List.length_drop] at fractionBound
      simp only [Option.bind_some]
      rw [List.drop_append_of_le_length (by omega), exponentLength?_append _ stops]
      cases isPower : exponentLength? (cs.drop (sign + whole + fraction)) with
      | none => rfl
      | some power =>
        have powerBound := exponentLength?_le isPower
        rw [List.length_drop] at powerBound
        simp only [Option.bind_some]
        rw [← List.drop_append_of_le_length signBound, slice_append (by omega),
          slice_append (by omega), slice_append (by omega)]

end Stops

section Numbers

variable {cs : List Char} {n : Nat}

theorem exists_parts_of_numberLength? (h : numberLength? cs = some n) :
    ∃ sign whole fraction power,
      sign = (if cs.head? = some '-' then 1 else 0) ∧
        wholeLength? (cs.drop sign) = some whole ∧
        fractionLength? (cs.drop (sign + whole)) = some fraction ∧
        exponentLength? (cs.drop (sign + whole + fraction)) = some power ∧
        n = sign + whole + fraction + power := by
  unfold numberLength? at h
  simp only [Option.bind_eq_bind, Option.bind_eq_some_iff] at h
  obtain ⟨whole, isWhole, fraction, isFraction, power, isPower, fits⟩ := h
  refine ⟨_, whole, fraction, power, rfl, isWhole, isFraction, isPower, ?_⟩
  exact (Option.some.inj (Option.ite_none_left_eq_some.mp fits).2).symm

/-- A number does not go beyond the text. -/
theorem numberLength?_le (h : numberLength? cs = some n) : n ≤ cs.length := by
  obtain ⟨sign, whole, fraction, power, signed, isWhole, isFraction, isPower, rfl⟩ :=
    exists_parts_of_numberLength? h
  have signBound : sign ≤ cs.length := signed ▸ minusLength_le cs
  have wholeBound := wholeLength?_le isWhole
  have fractionBound := fractionLength?_le isFraction
  have powerBound := exponentLength?_le isPower
  simp only [List.length_drop] at wholeBound fractionBound powerBound
  omega

/-- Numbers begin with a digit or a minus. -/
theorem exists_first_of_numberLength? (h : numberLength? cs = some n) :
    ∃ c rest, cs = c :: rest ∧ (c.isDigit = true ∨ c = '-') := by
  obtain ⟨sign, whole, fraction, power, signed, isWhole, -⟩ := exists_parts_of_numberLength? h
  cases cs with
  | nil =>
    rw [List.drop_nil] at isWhole
    cases isWhole
  | cons c rest =>
    refine ⟨c, rest, rfl, ?_⟩
    by_cases minus : c = '-'
    · exact .inr minus
    · left
      have unsigned : sign = 0 := by
        rw [signed, if_neg (by simpa using minus)]
      rw [unsigned, List.drop_zero] at isWhole
      exact isDigit_of_wholeLength? isWhole

/-- The text is a number as a whole. -/
def IsNumber (literal : String) : Prop :=
  numberLength? literal.toList = some literal.length

/-- Numbers hold nothing but the characters of numbers. -/
theorem IsNumber.isNumeric {literal : String} (h : IsNumber literal) :
    ∀ c ∈ literal.toList, Json.isNumeric c = true := by
  intro c member
  by_contra other
  rw [Bool.not_eq_true] at other
  obtain ⟨before, after, split⟩ := List.append_of_mem member
  have short : numberLength? before = some literal.length := by
    rw [← numberLength?_append before (stops_cons other), ← split]
    exact h
  have bound := numberLength?_le short
  have long := congrArg List.length split
  rw [String.length_toList, List.length_append, List.length_cons] at long
  omega

end Numbers

theorem digitsValue_toDigits (n : Nat) : digitsValue (Nat.toDigits 10 n) = n := by
  have value := Nat.ofDigitChars_ten_toDigits (n := n)
  rw [Nat.ofDigitChars_eq_foldl] at value
  exact value

/-- A whole number below the bound is not too large. -/
theorem isTooLarge_of_lt {n : Nat} (h : n < overflowBound) : isTooLarge n 0 = false := by
  unfold isTooLarge
  split
  · rfl
  · simp only [Int.add_zero]
    have few : (Nat.toDigits 10 n).length ≤ 310 := by
      rw [Nat.length_toDigits_le_iff (by decide) (by decide)]
      exact h.trans (by decide +kernel)
    have bound : ¬ overflowBound ≤ n * Nat.pow 10 0 := by
      rw [Nat.pow_eq, Nat.pow_zero]
      omega
    split
    · rfl
    · rw [if_neg (by omega), if_pos (Int.le_refl 0)]
      exact decide_eq_false bound

theorem digitCount_eq_length {ds : List Char} (digits : ∀ c ∈ ds, c.isDigit = true) :
    digitCount ds = ds.length := by
  rw [digitCount, List.takeWhile_eq_self_iff.mpr digits]

/-- Only zero is written with a zero in front. -/
theorem head?_toDigits_ne {n : Nat} (positive : 0 < n) : (Nat.toDigits 10 n).head? ≠ some '0' := by
  induction n using Nat.strongRecOn with
  | ind n ih =>
    by_cases small : n < 10
    · rw [Nat.toDigits_of_lt_base small]
      have digits : ∀ d < 10, 0 < d → [Nat.digitChar d].head? ≠ some '0' := by decide
      exact digits n small positive
    · rw [Nat.toDigits_of_base_le (by decide) (by omega), List.head?_append]
      have shorter := ih (n / 10) (by omega) (by omega)
      obtain ⟨c, cs, split⟩ :=
        List.exists_cons_of_ne_nil (Nat.toDigits_ne_nil (n := n / 10) (b := 10))
      rw [split] at shorter ⊢
      exact shorter

/-- The digits of a natural number are read as one whole number. -/
theorem wholeLength?_toDigits (n : Nat) :
    wholeLength? (Nat.toDigits 10 n) = some (Nat.toDigits 10 n).length := by
  rcases Nat.eq_zero_or_pos n with rfl | positive
  · rfl
  · have first := head?_toDigits_ne positive
    have digits : ∀ c ∈ Nat.toDigits 10 n, c.isDigit = true :=
      fun c member => Nat.isDigit_of_mem_toDigits (by decide) (by decide) member
    have counted := digitCount_eq_length digits
    obtain ⟨c, cs, split⟩ := List.exists_cons_of_ne_nil (Nat.toDigits_ne_nil (n := n) (b := 10))
    rw [split] at first counted ⊢
    rw [wholeLength?_cons, if_neg (by simpa using first), counted, if_neg (by simp)]

/-- The decimal digits of a natural number are a number, if a double can hold it. -/
theorem isNumber_toString {n : Nat} (h : n < overflowBound) : IsNumber (toString n) := by
  rw [IsNumber, Nat.toString_eq_ofList_toDigits, String.toList_ofList, String.length_ofList]
  have unsigned : (Nat.toDigits 10 n).head? ≠ some '-' := by
    intro minus
    have digit := Nat.isDigit_of_mem_toDigits (by decide) (by decide) (List.mem_of_head? minus)
    revert digit
    decide
  have small := isTooLarge_of_lt h
  simp only [numberLength?, if_neg unsigned, List.drop_zero, wholeLength?_toDigits,
    Option.bind_eq_bind, Option.bind_some, Nat.zero_add, Nat.add_zero, List.drop_length,
    fractionLength?, exponentLength?, Nat.zero_sub, List.take_zero, List.append_nil,
    List.take_length, digitsValue_toDigits]
  exact if_neg (by simp [small, digitsValue])

end SheetLint.Json
