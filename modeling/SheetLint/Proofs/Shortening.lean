import SheetLint.Json.Text
import SheetLint.Rule.HexColor
import SheetLint.Stylesheet.Value
import Mathlib.Data.List.Basic

/-!
# Colours that can be shortened

A colour of six digits can be written with three when the two digits of each channel have the same
value (`Doubled`), since `#abc` has as much red, green and blue as `#aabbcc` (`rgb`). The rule on
the length of colours compares characters and not values. So it finds the colours that can be
shortened, except for those in which a channel has a letter in both cases (`OneCase`).
-/

namespace SheetLint.Rule.HexColor

open Json (hexDigit?)

variable {c d : Char} {cs : List Char}

/-- The value of a hexadecimal digit. -/
def value (c : Char) : Nat :=
  (hexDigit? c).getD 0

/-- Hexadecimal digits, by their codes. -/
theorem hexDigit?_eq_some {v : Nat} : hexDigit? c = some v ↔
    (48 ≤ c.toNat ∧ c.toNat ≤ 57 ∧ v = c.toNat - 48) ∨
    (97 ≤ c.toNat ∧ c.toNat ≤ 102 ∧ v = c.toNat - 87) ∨
    (65 ≤ c.toNat ∧ c.toNat ≤ 70 ∧ v = c.toNat - 55) := by
  have order (a b : Char) : a ≤ b ↔ a.toNat ≤ b.toNat := Iff.rfl
  simp only [hexDigit?, order, Char.reduceToNat]
  split_ifs
  · rw [Option.some.injEq]
    omega
  · rw [Option.some.injEq]
    omega
  · rw [Option.some.injEq]
    omega
  · rw [false_iff]
    omega

/-- The characters of a colour have values. -/
theorem hexDigit?_eq_value (digit : Token.isHexColor cs = true) (member : c ∈ cs) :
    hexDigit? c = some (value c) := by
  have order (a b : Char) : a ≤ b ↔ a.toNat ≤ b.toNat := Iff.rfl
  have range := List.all_eq_true.mp (Bool.and_eq_true_iff.mp digit).2 c member
  simp only [Bool.or_eq_true, Bool.and_eq_true, decide_eq_true_eq, Char.isDigit_iff_toNat, order,
    Char.reduceToNat] at range
  obtain ⟨v, read⟩ : ∃ v, hexDigit? c = some v := by
    simp only [hexDigit?_eq_some]
    rcases range with (decimal | lower) | upper
    · exact ⟨_, .inl ⟨decimal.1, decimal.2, rfl⟩⟩
    · exact ⟨_, .inr (.inl ⟨lower.1, lower.2, rfl⟩)⟩
    · exact ⟨_, .inr (.inr ⟨upper.1, upper.2, rfl⟩)⟩
  rw [value, read, Option.getD_some]

theorem value_lt (c : Char) : value c < 16 := by
  cases read : hexDigit? c with
  | none => simp [value, read]
  | some v =>
    rw [value, read, Option.getD_some]
    rw [hexDigit?_eq_some] at read
    omega

/-- Digits of one value are the same character unless their cases differ. -/
theorem eq_iff_of_value (left : hexDigit? c = some (value c))
    (right : hexDigit? d = some (value d)) :
    c = d ↔ value c = value d ∧ c.isUpper = d.isUpper := by
  have upper (c : Char) : c.isUpper = true ↔ 65 ≤ c.toNat ∧ c.toNat ≤ 90 := decide_eq_true_iff
  constructor
  · rintro rfl
    exact ⟨rfl, rfl⟩
  · rintro ⟨same, case⟩
    rw [hexDigit?_eq_some] at left right
    rw [Bool.eq_iff_iff, upper, upper] at case
    rw [← Char.toNat_inj]
    omega

/-- The digits in pairs. The pairs of a colour of six digits are its channels. -/
def channels : List Char → List (Char × Char)
  | c :: d :: rest => (c, d) :: channels rest
  | _ => []

/-- There are six digits, and the two of each channel have one value. -/
def Doubled (digits : List Char) : Prop :=
  digits.length = 6 ∧ ∀ channel ∈ channels digits, value channel.1 = value channel.2

/-- In each channel the two digits are upper-case letters, or none of them is. -/
def OneCase (digits : List Char) : Prop :=
  ∀ channel ∈ channels digits, channel.1.isUpper = channel.2.isUpper

/-- How much of its colour a channel has. -/
def level (channel : Char × Char) : Nat :=
  16 * value channel.1 + value channel.2

/-- How much red, green and blue a colour of three or of six digits has. Each of three digits counts
    as if it were written twice. -/
def rgb (digits : List Char) : List Nat :=
  (if digits.length = 3 then digits.map fun c => (c, c) else channels digits).map level

/-- Every two characters make a channel. -/
theorem length_channels (cs : List Char) : (channels cs).length = cs.length / 2 := by
  fun_induction channels cs with
  | case1 c d rest ih =>
    simp only [List.length_cons, ih]
    omega
  | case2 cs short =>
    rcases cs with - | ⟨c, - | ⟨d, rest⟩⟩
    · rfl
    · simp
    · exact absurd rfl (short c d rest)

theorem mem_of_mem_channels {channel : Char × Char} (h : channel ∈ channels cs) :
    channel.1 ∈ cs ∧ channel.2 ∈ cs := by
  fun_induction channels cs with
  | case1 c d rest ih =>
    rcases List.mem_cons.mp h with rfl | later
    · simp
    · simp [ih later]
  | case2 => cases h

/-- A colour can be shortened if it has six characters and each channel repeats one. -/
theorem canShorten_iff : canShorten cs = true ↔
    cs.length = 6 ∧ ∀ channel ∈ channels cs, channel.1 = channel.2 := by
  unfold canShorten
  split
  · simp [channels, and_assoc]
  · next other =>
    have notSix : cs.length ≠ 6 := by
      intro six
      match cs, six with
      | [r, r', g, g', b, b'], _ => exact other r r' g g' b b' rfl
    simp [notSix]

/-- The rule sees that a colour can be shortened unless a channel mixes the cases. -/
theorem canShorten_iff_doubled (colour : Token.isHexColor cs = true) :
    canShorten cs = true ↔ Doubled cs ∧ OneCase cs := by
  have alike (channel : Char × Char) (member : channel ∈ channels cs) : channel.1 = channel.2 ↔
      value channel.1 = value channel.2 ∧ channel.1.isUpper = channel.2.isUpper := by
    obtain ⟨first, second⟩ := mem_of_mem_channels member
    exact eq_iff_of_value (hexDigit?_eq_value colour first) (hexDigit?_eq_value colour second)
  rw [canShorten_iff, Doubled, OneCase, and_assoc]
  simp only [← forall_and]
  exact and_congr_right fun _ => forall₂_congr alike

/-- A colour of six digits is doubled if one of three digits has the same amounts. -/
theorem doubled_iff (colour : Token.isHexColor cs = true) :
    Doubled cs ↔ cs.length = 6 ∧
      ∃ short, Token.isHexColor short = true ∧ short.length = 3 ∧ rgb short = rgb cs := by
  refine and_congr_right fun six => ?_
  have amounts : rgb cs = (channels cs).map level := by
    rw [rgb, if_neg (by omega)]
  constructor
  · intro doubled
    let short := (channels cs).map (·.1)
    have three : short.length = 3 := by
      rw [List.length_map, length_channels, six]
    have digits : Token.isHexColor short = true := by
      rw [Token.isHexColor, three, Bool.and_eq_true_iff, List.all_eq_true]
      refine ⟨rfl, ?_⟩
      intro c listed
      obtain ⟨channel, member, rfl⟩ := List.mem_map.mp listed
      exact List.all_eq_true.mp (Bool.and_eq_true_iff.mp colour).2 _ (mem_of_mem_channels member).1
    refine ⟨short, digits, three, ?_⟩
    rw [rgb, if_pos three, amounts, List.map_map, List.map_map]
    apply List.map_congr_left
    intro channel member
    show level (channel.1, channel.1) = level channel
    rw [level, level, doubled channel member]
  · rintro ⟨short, -, three, same⟩ channel member
    rw [rgb, if_pos three, amounts, List.map_map] at same
    -- whichever digit of the short form has the amount, it has it as seventeen times its value
    have found : level channel ∈ short.map (level ∘ fun c => (c, c)) :=
      same ▸ List.mem_map_of_mem member
    obtain ⟨c, -, equal⟩ := List.mem_map.mp found
    have equal : 16 * value c + value c = 16 * value channel.1 + value channel.2 := equal
    have first := value_lt channel.1
    have second := value_lt channel.2
    omega

variable {config : RuleConfig} {n : Node}

/-- The rule finds one fault with the node if the condition holds, and none if it does not. -/
def FaultsIf (config : RuleConfig) (n : Node) (condition : Prop) : Prop :=
  ∃ ds, check config n = .ok ds ∧ (ds.length = 1 ↔ condition) ∧ (ds = [] ↔ ¬ condition)

theorem faultsIf_isWrong {style : Style} (known : config.styleIn styles = .ok style) :
    FaultsIf config n (isWrong style n.content.toList = true) := by
  unfold FaultsIf check
  rw [known]
  by_cases wrong : isWrong style n.content.toList = true
  · exact ⟨_, if_pos wrong, by simp [wrong], by simp [wrong]⟩
  · exact ⟨_, if_neg wrong, by simp [wrong], by simp [wrong]⟩

/-- With the style `short`, a fault is found with the colours of six digits that have the amounts of
    a colour of three digits, unless a channel mixes upper and lower case. With the style `long`, a
    fault is found with the colours of three digits. -/
theorem faultsIf_doubled (colour : Token.isHexColor n.content.toList = true) :
    (Doubled n.content.toList ↔ n.content.toList.length = 6 ∧ ∃ short,
      Token.isHexColor short = true ∧ short.length = 3 ∧ rgb short = rgb n.content.toList) ∧
    (config.style = some "short" →
      FaultsIf config n (Doubled n.content.toList ∧ OneCase n.content.toList)) ∧
    (config.style = some "long" → FaultsIf config n (n.content.toList.length = 3)) := by
  refine ⟨doubled_iff colour, ?_, ?_⟩
  · intro short
    have known : config.styleIn styles = .ok .short := by
      rw [RuleConfig.styleIn, short]
      rfl
    rw [← canShorten_iff_doubled colour]
    exact faultsIf_isWrong known
  · intro long
    have known : config.styleIn styles = .ok .long := by
      rw [RuleConfig.styleIn, long]
      rfl
    rw [← beq_iff_eq]
    exact faultsIf_isWrong known

/-- A colour with channels in different cases, none of them mixed, is found. -/
theorem faultsIf_doubled_AAbb00 :
    let config : RuleConfig := ⟨⟨"hex-length", by decide⟩, true, .error, some "short"⟩
    let n : Node := .leaf .color "AAbb00" ⟨1, 8⟩
    Token.isHexColor n.content.toList = true ∧ config.style = some "short" ∧
    FaultsIf config n (Doubled n.content.toList ∧ OneCase n.content.toList) ∧
    (Doubled n.content.toList ∧ OneCase n.content.toList) ∧
    check config n = .ok [⟨config.rule, .error, ⟨1, 8⟩,
      "#AAbb00 should be written in the short-form format.", none⟩] := by
  intro config n
  have colour : Token.isHexColor n.content.toList = true := by decide
  have doubled : Doubled n.content.toList ∧ OneCase n.content.toList := by
    rw [← canShorten_iff_doubled colour]
    decide
  exact ⟨colour, rfl, (faultsIf_doubled colour).2.1 rfl, doubled, by decide⟩

/-- A letter in both cases hides that a colour can be shortened: `#aAbBcC` is the colour `#abc`. -/
theorem not_faultsIf_aAbBcC :
    let config : RuleConfig := ⟨⟨"hex-length", by decide⟩, true, .error, some "short"⟩
    let n : Node := .leaf .color "aAbBcC" ⟨1, 8⟩
    Token.isHexColor n.content.toList = true ∧ Doubled n.content.toList ∧
    rgb n.content.toList = rgb "abc".toList ∧
    check config n = .ok [] ∧ ¬ FaultsIf config n (Doubled n.content.toList) := by
  intro config n
  have colour : Token.isHexColor n.content.toList = true := by decide
  have doubled : Doubled n.content.toList :=
    (doubled_iff colour).mpr ⟨by decide, "abc".toList, by decide, by decide, by decide⟩
  have unseen : check config n = .ok [] := by decide
  refine ⟨colour, doubled, by decide, unseen, ?_⟩
  rintro ⟨ds, checked, found, -⟩
  rw [unseen] at checked
  cases checked
  exact absurd (found.mpr doubled) (by decide)

end SheetLint.Rule.HexColor
