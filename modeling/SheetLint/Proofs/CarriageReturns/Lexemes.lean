import SheetLint.Proofs.Tiling

/-!
# Lexemes with carriage returns

A text can end its lines with a line feed alone or with a carriage return in front of it. What this
does to the lexemes of a text (`Lexeme.split_crlf`): most lexemes get the carriage returns of their
own line feeds; a line comment and the bare contents of a url take the carriage return that stands
behind them, so that the blanks behind them begin one column later; and a string with a line feed in
it is no string any more.
-/

namespace SheetLint

namespace Text

/-- The text with a carriage return in front of each line feed. -/
def crlf (cs : List Char) : List Char :=
  cs.flatMap fun c => if c = '\n' then ['\r', '\n'] else [c]

variable {c : Char} {cs xs ys : List Char} {test : Char → Bool}

@[simp]
theorem crlf_nil : crlf [] = [] := rfl

@[simp]
theorem crlf_newline (cs : List Char) : crlf ('\n' :: cs) = '\r' :: '\n' :: crlf cs := rfl

theorem crlf_cons (h : c ≠ '\n') (cs : List Char) : crlf (c :: cs) = c :: crlf cs := by
  simp [crlf, h]

theorem crlf_append (xs ys : List Char) : crlf (xs ++ ys) = crlf xs ++ crlf ys :=
  List.flatMap_append

/-- Text on one line stays as it is. -/
theorem crlf_of_line (line : '\n' ∉ cs) : crlf cs = cs := by
  induction cs with
  | nil => rfl
  | cons c cs ih =>
    rw [List.mem_cons, not_or] at line
    rw [crlf_cons (Ne.symm line.1), ih line.2]

theorem mem_crlf (h : c ≠ '\r') : c ∈ crlf cs ↔ c ∈ cs := by
  induction cs with
  | nil => simp
  | cons d cs ih =>
    by_cases newline : d = '\n'
    · subst newline
      simp [h, ih]
    · simp [crlf_cons newline, ih]

/-- A stretch of characters that may contain line breaks is found again. -/
theorem takeWhile_crlf (newline : test '\n' = true) (return' : test '\r' = true)
    (cs : List Char) : (crlf cs).takeWhile test = crlf (cs.takeWhile test) := by
  induction cs with
  | nil => rfl
  | cons c cs ih =>
    by_cases isNewline : c = '\n'
    · subst isNewline
      simp [newline, return', ih]
    · rw [crlf_cons isNewline, List.takeWhile_cons, List.takeWhile_cons]
      split
      · rw [ih, crlf_cons isNewline]
      · rfl

/-- Dropping a stretch of characters that goes over line breaks commutes with the line endings. -/
theorem dropWhile_crlf (newline : test '\n' = true) (return' : test '\r' = true)
    (cs : List Char) : (crlf cs).dropWhile test = crlf (cs.dropWhile test) := by
  induction cs with
  | nil => rfl
  | cons c cs ih =>
    by_cases isNewline : c = '\n'
    · subst isNewline
      simp [newline, return', ih]
    · rw [crlf_cons isNewline, List.dropWhile_cons, List.dropWhile_cons]
      split
      · exact ih
      · rw [crlf_cons isNewline]

/-- A stretch of characters that goes on to the end of a line at most takes a carriage return from
    there, if it goes as far as that. -/
theorem span_crlf (test : Char → Bool) (newline : test '\n' = false) (return' : test '\r' = true)
    (cs : List Char) :
    (∃ more, cs.dropWhile test = '\n' :: more ∧
      (crlf cs).takeWhile test = cs.takeWhile test ++ ['\r'] ∧
      (crlf cs).dropWhile test = '\n' :: crlf more) ∨
    ((∀ c ∈ (cs.dropWhile test).head?, c ≠ '\n') ∧
      (crlf cs).takeWhile test = cs.takeWhile test ∧
      (crlf cs).dropWhile test = crlf (cs.dropWhile test)) := by
  induction cs with
  | nil => exact .inr ⟨by simp, rfl, rfl⟩
  | cons c cs ih =>
    by_cases isNewline : c = '\n'
    · subst isNewline
      left
      exact ⟨cs, by simp [newline], by simp [newline, return'], by simp [newline, return']⟩
    · rw [crlf_cons isNewline]
      by_cases goesOn : test c = true
      · rw [List.takeWhile_cons_of_pos goesOn, List.takeWhile_cons_of_pos goesOn,
          List.dropWhile_cons_of_pos goesOn, List.dropWhile_cons_of_pos goesOn]
        rcases ih with ⟨more, stops, taken, dropped⟩ | ⟨stops, taken, dropped⟩
        · exact .inl ⟨more, stops, by rw [taken]; rfl, dropped⟩
        · exact .inr ⟨stops, by rw [taken], dropped⟩
      · rw [List.takeWhile_cons_of_neg goesOn, List.takeWhile_cons_of_neg goesOn,
          List.dropWhile_cons_of_neg goesOn, List.dropWhile_cons_of_neg goesOn]
        exact .inr ⟨by simpa using isNewline, rfl, (crlf_cons isNewline cs).symm⟩

theorem newline_notMem_takeWhile (test : Char → Bool) (newline : test '\n' = false)
    (cs : List Char) : '\n' ∉ cs.takeWhile test := by
  intro found
  have := List.mem_takeWhile_imp found
  rw [newline] at this
  cases this

/-- A text is a line, and then it is over or goes on with a line feed. -/
theorem exists_line (cs : List Char) : ∃ line rest, cs = line ++ rest ∧ '\n' ∉ line ∧
    (rest = [] ∨ ∃ more, rest = '\n' :: more) := by
  induction cs with
  | nil => exact ⟨[], [], rfl, by simp, .inl rfl⟩
  | cons c cs ih =>
    by_cases newline : c = '\n'
    · subst newline
      exact ⟨[], '\n' :: cs, rfl, by simp, .inr ⟨cs, rfl⟩⟩
    · obtain ⟨line, rest, rfl, noBreak, ends⟩ := ih
      exact ⟨c :: line, rest, rfl, by simp [Ne.symm newline, noBreak], ends⟩

/-- The text is over, or it goes on with the end of a line. -/
def LineEnd (cs : List Char) : Prop :=
  ∀ c ∈ cs.head?, c = '\n' ∨ c = '\r'

theorem lineEnd_crlf (ends : ys = [] ∨ ∃ more, ys = '\n' :: more) :
    LineEnd ys ∧ LineEnd (crlf ys) := by
  rcases ends with rfl | ⟨more, rfl⟩
  · exact ⟨by simp [LineEnd], by simp [LineEnd]⟩
  · exact ⟨by simp [LineEnd], by simp [LineEnd]⟩

theorem takeWhile_append_lineEnd (test : Char → Bool) (newline : test '\n' = false)
    (return' : test '\r' = false) (ends : LineEnd ys) :
    (xs ++ ys).takeWhile test = xs.takeWhile test := by
  induction xs with
  | nil =>
    cases ys with
    | nil => rfl
    | cons y ys => rcases ends y rfl with rfl | rfl <;> simp [newline, return']
  | cons x xs ih => rw [List.cons_append, List.takeWhile_cons, List.takeWhile_cons, ih]

theorem head?_any_append_lineEnd (test : Char → Bool) (newline : test '\n' = false)
    (return' : test '\r' = false) (ends : LineEnd ys) :
    (xs ++ ys).head?.any test = xs.head?.any test := by
  cases xs with
  | cons x xs => rfl
  | nil =>
    cases ys with
    | nil => rfl
    | cons y ys => rcases ends y rfl with rfl | rfl <;> simp [newline, return']

end Text

open Text (crlf)

/-- A carriage return does not change the place behind the line break. -/
theorem Position.advance_crlf (p : Position) (cs : List Char) :
    p.advance (crlf cs) = p.advance cs := by
  induction cs generalizing p with
  | nil => rfl
  | cons c cs ih =>
    by_cases newline : c = '\n'
    · subst newline
      rw [Text.crlf_newline, advance_cons, advance_cons, advance_cons, ih]
      rfl
    · rw [Text.crlf_cons newline, advance_cons, advance_cons, ih]

namespace Lexeme

open Text (LineEnd)

variable {c quote : Char} {cs xs ys rest text : List Char} {kind : LexemeKind} {n : Nat}
  {test : Char → Bool}

theorem drop_spanLength (test : Char → Bool) (cs : List Char) :
    cs.drop (spanLength test cs) = cs.dropWhile test := by
  conv_lhs => rw [← List.takeWhile_append_dropWhile (p := test) (l := cs)]
  rw [spanLength, List.drop_left']
  rw [List.takeWhile_append_dropWhile]

theorem spanLength_le (test : Char → Bool) (cs : List Char) : spanLength test cs ≤ cs.length :=
  (List.takeWhile_prefix test).length_le

theorem unitLength_le (cs : List Char) : unitLength cs ≤ cs.length := by
  unfold unitLength
  split
  · simp
  · exact spanLength_le _ _

theorem fractionLength_le (cs : List Char) : fractionLength cs ≤ cs.length := by
  unfold fractionLength
  split
  · rename_i cs
    have := spanLength_le Char.isDigit cs
    split
    · simp
    · rw [List.length_cons]
      omega
  · simp

theorem numberLength_le (cs : List Char) : numberLength cs ≤ cs.length := by
  unfold numberLength
  dsimp only
  have whole := spanLength_le Char.isDigit cs
  have fraction := fractionLength_le (cs.drop (spanLength Char.isDigit cs))
  have unit := unitLength_le (cs.drop (spanLength Char.isDigit cs +
    fractionLength (cs.drop (spanLength Char.isDigit cs))))
  rw [List.length_drop] at fraction unit
  omega

theorem pointNumberLength_le (cs : List Char) : pointNumberLength cs ≤ cs.length := by
  unfold pointNumberLength
  dsimp only
  have digits := spanLength_le Char.isDigit cs
  have unit := unitLength_le (cs.drop (spanLength Char.isDigit cs))
  rw [List.length_drop] at unit
  omega

/-- A lexeme that is written on one line ends before the text does. -/
theorem Written.length_le (h : Written c cs kind n) : n ≤ cs.length := by
  cases h with
  | delimiter => exact Nat.zero_le _
  | hash => exact spanLength_le _ cs
  | atWord => exact spanLength_le _ cs
  | number => exact numberLength_le cs
  | pointNumber => exact pointNumberLength_le cs
  | flag => exact spanLength_le _ cs
  | word => exact spanLength_le _ cs

theorem spanLength_append (test : Char → Bool) (newline : test '\n' = false)
    (return' : test '\r' = false) (ends : LineEnd ys) :
    spanLength test (xs ++ ys) = spanLength test xs := by
  rw [spanLength, Text.takeWhile_append_lineEnd test newline return' ends, spanLength]

/-- A unit ends at the end of its line. -/
theorem unitLength_append (ends : LineEnd ys) : unitLength (xs ++ ys) = unitLength xs := by
  cases xs with
  | nil =>
    cases ys with
    | nil => rfl
    | cons y ys => rcases ends y rfl with rfl | rfl <;> rfl
  | cons x xs =>
    by_cases percent : x = '%'
    · subst percent
      rfl
    · have other (cs : List Char) : unitLength (x :: cs) = spanLength Char.isAlpha (x :: cs) := by
        unfold unitLength
        split
        · rename_i same
          exact absurd (List.cons.inj same).1 percent
        · rfl
      rw [List.cons_append, other, other, ← List.cons_append]
      exact spanLength_append _ rfl rfl ends

/-- A fraction ends at the end of its line. -/
theorem fractionLength_append (ends : LineEnd ys) :
    fractionLength (xs ++ ys) = fractionLength xs := by
  cases xs with
  | nil =>
    cases ys with
    | nil => rfl
    | cons y ys => rcases ends y rfl with rfl | rfl <;> rfl
  | cons x xs =>
    by_cases point : x = '.'
    · subst point
      rw [List.cons_append, fractionLength, fractionLength, spanLength_append _ rfl rfl ends]
    · have other (cs : List Char) : fractionLength (x :: cs) = 0 := by
        unfold fractionLength
        split
        · rename_i same
          exact absurd (List.cons.inj same).1 point
        · rfl
      rw [List.cons_append, other, other]

theorem numberLength_append (ends : LineEnd ys) : numberLength (xs ++ ys) = numberLength xs := by
  have whole := spanLength_le Char.isDigit xs
  have fraction := fractionLength_le (xs.drop (spanLength Char.isDigit xs))
  rw [List.length_drop] at fraction
  unfold numberLength
  dsimp only
  rw [spanLength_append _ rfl rfl ends, List.drop_append_of_le_length whole,
    fractionLength_append ends, List.drop_append_of_le_length (by omega), unitLength_append ends]

theorem pointNumberLength_append (ends : LineEnd ys) :
    pointNumberLength (xs ++ ys) = pointNumberLength xs := by
  unfold pointNumberLength
  dsimp only
  rw [spanLength_append _ rfl rfl ends, List.drop_append_of_le_length (spanLength_le _ _),
    unitLength_append ends]

/-- The letters of a url are looked for on one line. -/
theorem opensUrl_append (ends : LineEnd ys) : opensUrl c (xs ++ ys) = opensUrl c xs := by
  rw [Bool.eq_iff_iff, opensUrl_iff, opensUrl_iff]
  apply and_congr_right'
  constructor
  · rintro ⟨r, l, rest, found, hr, hl⟩
    rcases xs with - | ⟨x, - | ⟨y, - | ⟨z, xs⟩⟩⟩
    · have found : ys = r :: l :: '(' :: rest := found
      rcases ends r (by rw [found]; rfl) with rfl | rfl <;> simp at hr
    · have found : ys = l :: '(' :: rest := (List.cons.inj found).2
      rcases ends l (by rw [found]; rfl) with rfl | rfl <;> simp at hl
    · have found : ys = '(' :: rest := (List.cons.inj (List.cons.inj found).2).2
      rcases ends '(' (by rw [found]; rfl) with bracket | bracket <;> cases bracket
    · cases found
      exact ⟨r, l, xs, rfl, hr, hl⟩
  · rintro ⟨r, l, rest, rfl, hr, hl⟩
    exact ⟨r, l, rest ++ ys, rfl, hr, hl⟩

/-- The end of a line, and all that follows it, is no part of a lexeme that is written on one
    line. -/
theorem classify_append (ends : LineEnd ys) (noBlank : isSpace c = false)
    (noQuote : ¬ (c = '"' ∨ c = '\''))
    (noComment : c = '/' → ∀ d ∈ xs.head?, d ≠ '*' ∧ d ≠ '/') (noUrl : opensUrl c xs = false) :
    classify c (xs ++ ys) = classify c xs := by
  by_cases slash : c = '/'
  · subst slash
    have noComment' : ∀ d ∈ (xs ++ ys).head?, d ≠ '*' ∧ d ≠ '/' := by
      cases xs with
      | cons x xs => exact noComment rfl
      | nil =>
        intro d hd
        rcases ends d hd with rfl | rfl <;> decide
    rw [classify_slash noComment', classify_slash (noComment rfl)]
  · have noUrl' : opensUrl c (xs ++ ys) = false := by rw [opensUrl_append ends, noUrl]
    have blank : ¬ isSpace c = true := by simp [noBlank]
    unfold classify
    rw [if_neg blank, if_neg blank, if_neg slash, if_neg slash, if_neg noQuote, if_neg noQuote]
    simp only [noUrl, noUrl', spanLength_append isNameChar rfl rfl ends,
      spanLength_append Char.isDigit rfl rfl ends, spanLength_append isFlagChar rfl rfl ends,
      spanLength_append isWordChar rfl rfl ends, spanLength_append (· == '-') rfl rfl ends,
      numberLength_append ends, pointNumberLength_append ends,
      Text.head?_any_append_lineEnd Char.isAlpha rfl rfl ends,
      List.drop_append_of_le_length (spanLength_le (· == '-') xs),
      Text.head?_any_append_lineEnd isWordStart rfl rfl ends, Bool.false_eq_true, if_false]

/-! ### The first lexeme of a text -/

/-- The text begins with a lexeme, and `rest` stands behind it. -/
def Cuts (cs : List Char) (kind : LexemeKind) (text rest : List Char) : Prop :=
  ∃ c ds n, cs = c :: ds ∧ classify c ds = .ok (kind, n) ∧ text = c :: ds.take n ∧ rest = ds.drop n

theorem Cuts.split (h : Cuts cs kind text rest) (p : Position) :
    split p cs = (split (p.advance text) rest).map (⟨kind, text, p⟩ :: ·) := by
  obtain ⟨c, ds, n, rfl, classified, rfl, rfl⟩ := h
  exact split_cons_ok classified

/-- A text that is not empty and has lexemes begins with the first of them. -/
theorem cuts_of_split {p : Position} {ls : List Lexeme} (h : split p (c :: cs) = .ok ls) :
    ∃ kind text rest more, Cuts (c :: cs) kind text rest ∧ rest.length < (c :: cs).length ∧
      split (p.advance text) rest = .ok more ∧ ls = ⟨kind, text, p⟩ :: more := by
  cases classified : classify c cs with
  | error cause =>
    rw [Lexeme.split, classified] at h
    cases h
  | ok found =>
    obtain ⟨kind, n⟩ := found
    rw [split_cons_ok classified] at h
    cases behind : split (p.advance (c :: cs.take n)) (cs.drop n) with
    | error e =>
      rw [behind] at h
      cases h
    | ok more =>
      rw [behind] at h
      cases h
      refine ⟨kind, _, _, more, ⟨c, cs, n, rfl, classified, rfl, rfl⟩, ?_, behind, rfl⟩
      rw [List.length_drop, List.length_cons]
      omega

theorem classify_blank (blank : isSpace c = true) (cs : List Char) :
    classify c cs = .ok (.whitespace, spanLength isSpace cs) := by
  unfold classify
  rw [if_pos blank]

theorem classify_string (isQuote : quote = '"' ∨ quote = '\'') (cs : List Char) :
    classify quote cs = match stringLength quote cs with
      | some n => .ok (.string, n)
      | none => .error .unterminatedString := by
  have noBlank : ¬ isSpace quote = true := by rcases isQuote with rfl | rfl <;> decide
  have noSlash : quote ≠ '/' := by rcases isQuote with rfl | rfl <;> decide
  unfold classify
  exact (if_neg noBlank).trans ((if_neg noSlash).trans (if_pos isQuote))

theorem classify_url (opens : opensUrl c cs = true) :
    classify c cs = .ok (.url, 3 + urlContentsLength (cs.drop 3)) := by
  obtain ⟨letter, -⟩ := opensUrl_iff.mp opens
  unfold classify
  dsimp only
  rw [if_pos opens]
  rcases letter with rfl | rfl <;> rfl

theorem cuts_blank (cs : List Char) (blank : cs.head?.any isSpace = true) :
    Cuts cs .whitespace (cs.takeWhile isSpace) (cs.dropWhile isSpace) := by
  cases cs with
  | nil => cases blank
  | cons c cs =>
    have blank : isSpace c = true := blank
    refine ⟨c, cs, spanLength isSpace cs, rfl, classify_blank blank cs, ?_, ?_⟩
    · rw [take_spanLength, List.takeWhile_cons_of_pos blank]
    · rw [drop_spanLength, List.dropWhile_cons_of_pos blank]

theorem cuts_block {xs ys : List Char} (closed : blockCommentLength (xs ++ ys) = some xs.length) :
    Cuts ('/' :: '*' :: (xs ++ ys)) .comment ('/' :: '*' :: xs) ys := by
  refine ⟨'/', _, xs.length + 1, rfl, ?_, ?_, ?_⟩
  · unfold classify
    rw [if_neg (by decide), if_pos rfl]
    simp only [closed]
  · rw [List.take_succ_cons, List.take_left]
  · rw [List.drop_succ_cons, List.drop_left]

theorem cuts_line (cs : List Char) :
    Cuts ('/' :: '/' :: cs) .comment ('/' :: '/' :: cs.takeWhile (· != '\n'))
      (cs.dropWhile (· != '\n')) := by
  refine ⟨'/', _, spanLength (· != '\n') cs + 1, rfl, ?_, ?_, ?_⟩
  · unfold classify
    rw [if_neg (by decide), if_pos rfl]
    rfl
  · rw [List.take_succ_cons, take_spanLength]
  · rw [List.drop_succ_cons, drop_spanLength]

theorem cuts_string {xs ys : List Char} (isQuote : quote = '"' ∨ quote = '\'')
    (closed : stringLength quote (xs ++ ys) = some xs.length) :
    Cuts (quote :: (xs ++ ys)) .string (quote :: xs) ys := by
  refine ⟨quote, _, xs.length, rfl, ?_, ?_, ?_⟩
  · rw [classify_string isQuote, closed]
  · rw [List.take_left]
  · rw [List.drop_left]

theorem cuts_url {r l : Char} (opens : opensUrl c (r :: l :: '(' :: cs) = true) :
    Cuts (c :: r :: l :: '(' :: cs) .url
      (c :: r :: l :: '(' :: cs.take (urlContentsLength cs)) (cs.drop (urlContentsLength cs)) := by
  refine ⟨c, _, 3 + urlContentsLength cs, rfl, ?_, ?_, ?_⟩
  · exact classify_url opens
  · rw [Nat.add_comm]
    rfl
  · rw [Nat.add_comm]
    rfl

theorem blockCommentLength_cons (open' : ∀ rest, c = '*' → cs = '/' :: rest → False) :
    blockCommentLength (c :: cs) = (blockCommentLength cs).map (· + 1) := by
  rw [blockCommentLength]
  intro rest star slash
  exact open' rest star slash

/-- A block comment is closed at the same place, with a carriage return for each of its lines. -/
theorem blockCommentLength_crlf (h : blockCommentLength cs = some n) :
    blockCommentLength (crlf cs) = some (crlf (cs.take n)).length := by
  fun_induction blockCommentLength cs generalizing n with
  | case1 cs =>
    cases h
    rfl
  | case2 c cs open' ih =>
    obtain ⟨m, found, rfl⟩ := Option.map_eq_some_iff.mp h
    rw [List.take_succ_cons]
    by_cases newline : c = '\n'
    · subst newline
      rw [Text.crlf_newline, Text.crlf_newline, blockCommentLength_cons (by simp),
        blockCommentLength_cons (by simp), ih found]
      rfl
    · -- a slash behind a star would have ended the comment before, too
      have stillOpen : ∀ rest, c = '*' → crlf cs = '/' :: rest → False := by
        intro rest star slash
        cases cs with
        | nil => cases slash
        | cons d cs =>
          by_cases isBreak : d = '\n'
          · subst isBreak
            cases slash
          · rw [Text.crlf_cons isBreak] at slash
            exact open' cs star (by rw [(List.cons.inj slash).1])
      rw [Text.crlf_cons newline, Text.crlf_cons newline, blockCommentLength_cons stillOpen,
        ih found]
      rfl
  | case3 => cases h

theorem stringLength_quote (quote : Char) (cs : List Char) :
    stringLength quote (quote :: cs) = some 1 := by
  unfold stringLength
  rw [if_pos rfl]

theorem stringLength_escape (d : Char) (cs : List Char) (h : '\\' ≠ quote) :
    stringLength quote ('\\' :: d :: cs) = (stringLength quote cs).map (· + 2) := by
  rw [stringLength, if_neg h, if_pos rfl]

theorem stringLength_break (cs : List Char) (h : '\n' ≠ quote) :
    stringLength quote ('\n' :: cs) = none := by
  unfold stringLength
  rw [if_neg h, if_neg (by decide), if_pos rfl]

theorem stringLength_cons (cs : List Char) (noQuote : c ≠ quote) (noEscape : c ≠ '\\')
    (noBreak : c ≠ '\n') : stringLength quote (c :: cs) = (stringLength quote cs).map (· + 1) := by
  conv_lhs => unfold stringLength
  rw [if_neg noQuote, if_neg noEscape, if_neg noBreak]

/-- A string does not go beyond the text. -/
theorem stringLength_le (h : stringLength quote cs = some n) : n ≤ cs.length := by
  fun_induction stringLength quote cs generalizing n with
  | case1 => cases h
  | case2 cs =>
    cases h
    simp
  | case3 => cases h
  | case4 d cs _ ih =>
    obtain ⟨m, found, rfl⟩ := Option.map_eq_some_iff.mp h
    have := ih found
    simp only [List.length_cons]
    omega
  | case5 => cases h
  | case6 c cs _ _ _ ih =>
    obtain ⟨m, found, rfl⟩ := Option.map_eq_some_iff.mp h
    have := ih found
    simp only [List.length_cons]
    omega

/-- A string with a line feed in it, which is an escaped one, does not end any more. -/
theorem stringLength_crlf (isQuote : quote = '"' ∨ quote = '\'')
    (h : stringLength quote cs = some n) :
    stringLength quote (crlf cs) = if '\n' ∈ cs.take n then none else some n := by
  have quoteBreak : '\n' ≠ quote := by rcases isQuote with rfl | rfl <;> decide
  fun_induction stringLength quote cs generalizing n with
  | case1 => cases h
  | case2 cs =>
    cases h
    rw [Text.crlf_cons (Ne.symm quoteBreak), stringLength_quote]
    simp [quoteBreak]
  | case3 => cases h
  | case4 d cs noQuote ih =>
    obtain ⟨m, found, rfl⟩ := Option.map_eq_some_iff.mp h
    rw [List.take_succ_cons, List.take_succ_cons, Text.crlf_cons (by decide)]
    by_cases newline : d = '\n'
    · -- the carriage return is the escaped character, and the line feed stands alone
      subst newline
      rw [Text.crlf_newline, stringLength_escape _ _ noQuote, stringLength_break _ quoteBreak]
      simp
    · rw [Text.crlf_cons newline, stringLength_escape _ _ noQuote, ih found]
      by_cases torn : '\n' ∈ cs.take m
      · simp [torn]
      · simp [torn, Ne.symm newline]
  | case5 => cases h
  | case6 c cs noQuote noEscape noBreak ih =>
    obtain ⟨m, found, rfl⟩ := Option.map_eq_some_iff.mp h
    rw [List.take_succ_cons, Text.crlf_cons noBreak, stringLength_cons _ noQuote noEscape noBreak,
      ih found]
    by_cases torn : '\n' ∈ cs.take m
    · simp [torn]
    · simp [torn, Ne.symm noBreak]

/-- Whether a url is quoted does not depend on line breaks. -/
theorem opensQuoted_crlf (cs : List Char) : opensQuoted (crlf cs) = opensQuoted cs := by
  have trimmed : Text.trimStart (crlf cs) = crlf (Text.trimStart cs) :=
    Text.dropWhile_crlf rfl rfl cs
  unfold opensQuoted
  rw [trimmed]
  cases Text.trimStart cs with
  | nil => rfl
  | cons c rest =>
    by_cases newline : c = '\n'
    · subst newline
      rfl
    · rw [Text.crlf_cons newline]

/-- A comment that goes on to the end of its line. -/
def isLineComment (kind : LexemeKind) (text : List Char) : Bool :=
  kind == .comment && text.take 2 == ['/', '/']

/-- Only blanks and comments may go over a line break. -/
def OnLine (kind : LexemeKind) (text : List Char) : Prop :=
  kind ≠ .whitespace → kind ≠ .comment → '\n' ∉ text

/-- What becomes of the first lexeme of a text: it keeps its text, up to line breaks in it; it takes
    a carriage return from the line break behind it; or it is a string that is torn apart by one. -/
inductive Turns (cs : List Char) (kind : LexemeKind) (text rest : List Char) : Prop
  | whole (cuts : Cuts (crlf cs) kind (crlf text) (crlf rest)) (line : OnLine kind text)
      (last : isLineComment kind text = true → rest = [])
  | longer (more : List Char) (open' : isLineComment kind text = true ∨ kind = .url)
      (line : OnLine kind text) (breaks : rest = '\n' :: more)
      (cuts : Cuts (crlf cs) kind (text ++ ['\r']) ('\n' :: crlf more))
  | torn (isString : kind = .string) (breaks : '\n' ∈ text)
      (fails : ∀ p, ∃ e, split p (crlf cs) = .error e)

/-- A line comment takes a carriage return from the line break behind it. -/
theorem turns_line (cs : List Char) :
    Turns ('/' :: '/' :: cs) .comment ('/' :: '/' :: cs.takeWhile (· != '\n'))
      (cs.dropWhile (· != '\n')) := by
  have cuts : Cuts (crlf ('/' :: '/' :: cs)) _ _ _ := cuts_line (crlf cs)
  rcases Text.span_crlf (· != '\n') rfl rfl cs with
    ⟨more, stops, taken, dropped⟩ | ⟨stops, taken, dropped⟩
  · rw [taken, dropped] at cuts
    exact .longer more (.inl rfl) (by simp [OnLine]) stops cuts
  · have line : crlf ('/' :: '/' :: cs.takeWhile (· != '\n')) =
        '/' :: '/' :: cs.takeWhile (· != '\n') :=
      Text.crlf_of_line (by simpa using Text.newline_notMem_takeWhile (· != '\n') rfl cs)
    rw [taken, dropped, ← line] at cuts
    refine .whole cuts (by simp [OnLine]) fun _ => ?_
    cases ends : cs.dropWhile (· != '\n') with
    | nil => rfl
    | cons c rest =>
      have isBreak := List.head?_dropWhile_not (· != '\n') cs
      rw [ends] at isBreak stops
      exact absurd (by simpa using isBreak) (stops c rfl)

/-- The bare contents of a url take a carriage return from the line break behind them. -/
theorem turns_url {r l : Char} (opens : opensUrl c (r :: l :: '(' :: cs) = true) :
    Turns (c :: r :: l :: '(' :: cs) .url
      (c :: r :: l :: '(' :: cs.take (urlContentsLength cs)) (cs.drop (urlContentsLength cs)) := by
  obtain ⟨hc, r', l', _, same, hr, hl⟩ := opensUrl_iff.mp opens
  cases same
  have letters (xs : List Char) :
      crlf (c :: r :: l :: '(' :: xs) = c :: r :: l :: '(' :: crlf xs := by
    rcases hc with rfl | rfl <;> rcases hr with rfl | rfl <;> rcases hl with rfl | rfl <;> rfl
  have opens' : opensUrl c (r :: l :: '(' :: crlf cs) = true :=
    opensUrl_iff.mpr ⟨hc, r, l, crlf cs, rfl, hr, hl⟩
  have noBreak : '\n' ∉ [c, r, l, '('] := by
    rcases hc with rfl | rfl <;> rcases hr with rfl | rfl <;> rcases hl with rfl | rfl <;> decide
  have cuts := cuts_url opens'
  rw [← letters] at cuts
  by_cases quoted : opensQuoted cs = true
  · have none : urlContentsLength cs = 0 := by rw [urlContentsLength, if_pos quoted]
    have none' : urlContentsLength (crlf cs) = 0 := by
      rw [urlContentsLength, opensQuoted_crlf, if_pos quoted]
    rw [none', List.take_zero, List.drop_zero] at cuts
    rw [none, List.take_zero, List.drop_zero]
    refine .whole ?_ (fun _ _ => by simpa using noBreak) (by simp [isLineComment])
    rw [letters []]
    exact cuts
  · have bare : urlContentsLength cs = spanLength (fun c => c != ')' && c != '\n') cs := by
      rw [urlContentsLength, if_neg quoted]
    have bare' : urlContentsLength (crlf cs) =
        spanLength (fun c => c != ')' && c != '\n') (crlf cs) := by
      rw [urlContentsLength, opensQuoted_crlf, if_neg quoted]
    rw [bare', take_spanLength, drop_spanLength] at cuts
    rw [bare, take_spanLength, drop_spanLength]
    have noBreakInside := Text.newline_notMem_takeWhile (fun c => c != ')' && c != '\n') rfl cs
    have line :
        OnLine .url (c :: r :: l :: '(' :: cs.takeWhile fun c => c != ')' && c != '\n') := by
      intro _ _
      rw [show c :: r :: l :: '(' :: cs.takeWhile (fun c => c != ')' && c != '\n') =
        [c, r, l, '('] ++ cs.takeWhile fun c => c != ')' && c != '\n' from rfl, List.mem_append]
      exact not_or.mpr ⟨noBreak, noBreakInside⟩
    rcases Text.span_crlf (fun c => c != ')' && c != '\n') rfl rfl cs with
      ⟨more, stops, taken, dropped⟩ | ⟨stops, taken, dropped⟩
    · rw [taken, dropped] at cuts
      exact .longer more (.inr rfl) line stops cuts
    · rw [taken, dropped, ← Text.crlf_of_line noBreakInside, ← letters (cs.takeWhile _)] at cuts
      exact .whole cuts line (by simp [isLineComment])

/-- A block comment gets the carriage returns of its own line feeds. -/
theorem turns_block (closed : blockCommentLength cs = some n) :
    Turns ('/' :: '*' :: cs) .comment ('/' :: '*' :: cs.take n) (cs.drop n) := by
  refine .whole ?_ (by simp [OnLine]) (by simp [isLineComment])
  have parts : crlf cs = crlf (cs.take n) ++ crlf (cs.drop n) := by
    rw [← Text.crlf_append, List.take_append_drop]
  have closed' := blockCommentLength_crlf closed
  rw [parts] at closed'
  have cuts := cuts_block closed'
  rw [← parts] at cuts
  exact cuts

/-- A string keeps its text, or it is torn apart by a line break in it. -/
theorem turns_string (isQuote : quote = '"' ∨ quote = '\'')
    (closed : stringLength quote (xs ++ ys) = some xs.length) :
    Turns (quote :: (xs ++ ys)) .string (quote :: xs) ys := by
  have quoteBreak : quote ≠ '\n' := by rcases isQuote with rfl | rfl <;> decide
  have closed' := stringLength_crlf isQuote closed
  rw [List.take_left] at closed'
  by_cases breaks : '\n' ∈ xs
  · rw [if_pos breaks] at closed'
    refine .torn rfl (List.mem_cons_of_mem _ breaks) fun p => ⟨⟨.unterminatedString, p⟩, ?_⟩
    have classified : classify quote (crlf (xs ++ ys)) = .error .unterminatedString := by
      rw [classify_string isQuote, closed']
    rw [Text.crlf_cons quoteBreak, Lexeme.split, classified]
  · rw [if_neg breaks, Text.crlf_append, Text.crlf_of_line breaks] at closed'
    have oneLine : '\n' ∉ quote :: xs := by simp [Ne.symm quoteBreak, breaks]
    have cuts := cuts_string isQuote closed'
    rw [← List.cons_append, ← Text.crlf_of_line oneLine, ← Text.crlf_append] at cuts
    exact .whole cuts (fun _ _ => oneLine) (by simp [isLineComment])

/-- A stretch of whitespace gets the carriage returns of its own line feeds. -/
theorem turns_blank (cs : List Char) (blank : isSpace c = true) :
    Turns (c :: cs) .whitespace ((c :: cs).takeWhile isSpace) ((c :: cs).dropWhile isSpace) := by
  refine .whole ?_ (by simp [OnLine]) (by simp [isLineComment])
  have blank' : (crlf (c :: cs)).head?.any isSpace = true := by
    by_cases newline : c = '\n'
    · subst newline
      rfl
    · rw [Text.crlf_cons newline]
      exact blank
  have cuts := cuts_blank _ blank'
  rw [Text.takeWhile_crlf rfl rfl, Text.dropWhile_crlf rfl rfl] at cuts
  exact cuts

/-- A lexeme that is written on one line keeps its text. -/
theorem turns_written (isWritten : kind.isWritten = true) (noBlank : isSpace c = false)
    (noQuote : ¬ (c = '"' ∨ c = '\''))
    (noComment : c = '/' → ∀ d ∈ cs.head?, d ≠ '*' ∧ d ≠ '/') (noUrl : opensUrl c cs = false)
    (h : classify c cs = .ok (kind, n)) : Turns (c :: cs) kind (c :: cs.take n) (cs.drop n) := by
  have noBreak : c ≠ '\n' := by
    rintro rfl
    cases noBlank
  obtain ⟨line, rest, rfl, oneLine, ends⟩ := Text.exists_line cs
  obtain ⟨ends, ends'⟩ := Text.lineEnd_crlf ends
  have noCommentLine : c = '/' → ∀ d ∈ line.head?, d ≠ '*' ∧ d ≠ '/' := by
    intro slash d hd
    apply noComment slash d
    rw [List.head?_append, hd]
    rfl
  rw [opensUrl_append ends] at noUrl
  rw [classify_append ends noBlank noQuote noCommentLine noUrl] at h
  have bound := (written_of_classify noBlank noQuote noCommentLine noUrl h).length_le
  have h' := classify_append ends' noBlank noQuote noCommentLine noUrl
  rw [h] at h'
  rw [List.take_append_of_le_length bound, List.drop_append_of_le_length bound]
  have text : '\n' ∉ c :: line.take n := by
    rw [List.mem_cons, not_or]
    exact ⟨Ne.symm noBreak, fun found => oneLine (List.mem_of_mem_take found)⟩
  have behind : '\n' ∉ line.drop n := fun found => oneLine (List.mem_of_mem_drop found)
  refine .whole ⟨c, line ++ crlf rest, n, ?_, h', ?_, ?_⟩ (fun _ _ => text) ?_
  · rw [Text.crlf_cons noBreak, Text.crlf_append, Text.crlf_of_line oneLine]
  · rw [Text.crlf_of_line text, List.take_append_of_le_length bound]
  · rw [Text.crlf_append, Text.crlf_of_line behind, List.drop_append_of_le_length bound]
  · intro comment
    simp only [isLineComment, Bool.and_eq_true, beq_iff_eq] at comment
    rw [comment.1] at isWritten
    cases isWritten

/-- What becomes of the first lexeme. -/
theorem turns_of_cuts (h : Cuts cs kind text rest) : Turns cs kind text rest := by
  obtain ⟨c, ds, n, rfl, classified, rfl, rfl⟩ := h
  cases class_of_classify classified with
  | blank isBlank =>
    have turns := turns_blank ds isBlank
    rw [List.takeWhile_cons_of_pos isBlank, List.dropWhile_cons_of_pos isBlank] at turns
    rw [take_spanLength, drop_spanLength]
    exact turns
  | block slash star closed =>
    subst slash star
    exact turns_block closed
  | line slash again =>
    subst slash again
    rw [List.take_succ_cons, List.drop_succ_cons, take_spanLength, drop_spanLength]
    exact turns_line _
  | string isQuote closed =>
    obtain ⟨xs, ys, rfl, rfl⟩ : ∃ xs ys, ds = xs ++ ys ∧ n = xs.length :=
      ⟨ds.take n, ds.drop n, (List.take_append_drop n ds).symm,
        (List.length_take_of_le (stringLength_le closed)).symm⟩
    rw [List.take_left, List.drop_left]
    exact turns_string isQuote closed
  | url opens =>
    obtain ⟨r, l, more, rfl, -⟩ := opensUrl_cases opens
    have turns := turns_url opens
    rw [Nat.add_comm]
    exact turns
  | written isWritten noBlank noQuote noComment noUrl =>
    exact turns_written isWritten noBlank noQuote noComment noUrl classified

/-! ### All lexemes -/

/-- A url stands on one line. -/
theorem url_onLine_of_split {p : Position} {ls : List Lexeme} (h : split p cs = .ok ls) :
    ∀ l ∈ ls, l.kind = .url → '\n' ∉ l.text := by
  intro l member isUrl
  obtain ⟨c, ds, n, classified, text⟩ := classify_of_mem_split h member
  rw [isUrl] at classified
  have line : OnLine .url l.text := by
    cases turns_of_cuts ⟨c, ds, n, rfl, classified, text, rfl⟩ with
    | whole _ line _ => exact line
    | longer _ _ line _ _ => exact line
    | torn isString _ _ => cases isString
  exact line (by decide) (by decide)

/-- The lexemes of a text, and those of the text with the other line breaks. -/
inductive Recast : List Lexeme → List Lexeme → Prop
  | nil : Recast [] []
  | whole {l : Lexeme} {ls ls' : List Lexeme} (line : OnLine l.kind l.text)
      (last : isLineComment l.kind l.text = true → ls = []) (rest : Recast ls ls') :
      Recast (l :: ls) ({ l with text := crlf l.text } :: ls')
  | longer {l b : Lexeme} {cs : List Char} {ls ls' : List Lexeme}
      (open' : isLineComment l.kind l.text = true ∨ l.kind = .url) (line : OnLine l.kind l.text)
      (blank : b.kind = .whitespace) (text : b.text = '\n' :: cs) (rest : Recast ls ls') :
      Recast (l :: b :: ls) ({ l with text := l.text ++ ['\r'] } ::
        { b with text := '\n' :: crlf cs, position := b.position.shift 1 } :: ls')

theorem Recast.onLine {ls ls' : List Lexeme} (h : Recast ls ls') :
    ∀ l ∈ ls, OnLine l.kind l.text := by
  induction h with
  | nil => exact List.forall_mem_nil _
  | whole line _ _ ih => exact List.forall_mem_cons.mpr ⟨line, ih⟩
  | longer _ line blank _ _ ih =>
    refine List.forall_mem_cons.mpr ⟨line, List.forall_mem_cons.mpr ⟨?_, ih⟩⟩
    intro noBlank
    exact absurd blank noBlank

/-- A text begins with blanks if it begins with a line feed. -/
theorem cuts_newline (more : List Char) (h : Cuts ('\n' :: more) kind text rest) :
    kind = .whitespace ∧ text = '\n' :: more.takeWhile isSpace ∧ rest = more.dropWhile isSpace := by
  obtain ⟨c, ds, n, same, classified, rfl, rfl⟩ := h
  cases same
  rw [classify_blank rfl] at classified
  cases classified
  exact ⟨rfl, by rw [take_spanLength], by rw [drop_spanLength]⟩

/-- A text has lexemes with the other line breaks, too, unless a string is torn apart. -/
theorem split_crlf {p : Position} {ls : List Lexeme} (h : split p cs = .ok ls) :
    (∃ ls', split p (crlf cs) = .ok ls' ∧ Recast ls ls') ∨
    ((∃ e, split p (crlf cs) = .error e) ∧ ∃ l ∈ ls, l.kind = .string ∧ '\n' ∈ l.text) := by
  -- a lexeme that grows takes the blanks behind it along, so the induction is on the length
  induction length : cs.length using Nat.strong_induction_on generalizing p cs ls with
  | h size ih =>
    subst length
    cases cs with
    | nil =>
      rw [split_nil] at h
      cases h
      exact .inl ⟨[], split_nil p, .nil⟩
    | cons c cs =>
      obtain ⟨kind, text, rest, more, cuts, shorter, behind, rfl⟩ := cuts_of_split h
      cases turns_of_cuts cuts with
      | torn isString breaks fails =>
        exact .inr ⟨fails p, ⟨kind, text, p⟩, List.mem_cons_self, isString, breaks⟩
      | whole cuts' line last =>
        have step := cuts'.split p
        rw [Position.advance_crlf] at step
        rcases ih _ shorter behind rfl with ⟨more', split', recast⟩ | ⟨⟨e, failed⟩, torn⟩
        · left
          rw [split'] at step
          refine ⟨_, step, .whole line ?_ recast⟩
          intro comment
          have nothing : rest = [] := last comment
          rw [nothing, split_nil] at behind
          cases behind
          rfl
        · right
          rw [failed] at step
          obtain ⟨l, member, isTorn⟩ := torn
          exact ⟨⟨e, step⟩, l, List.mem_cons_of_mem _ member, isTorn⟩
      | longer after open' line breaks cuts' =>
        subst breaks
        obtain ⟨kindBlank, blanks, beyond, more, cutsBlank, shorterBlank, behind, rfl⟩ :=
          cuts_of_split behind
        obtain ⟨rfl, rfl, rfl⟩ := cuts_newline after cutsBlank
        have step := cuts'.split p
        have place : p.advance (text ++ ['\r']) = (p.advance text).shift 1 := by
          rw [Position.advance_append]
          rfl
        have blanksBehind := cuts_blank ('\n' :: crlf after) rfl
        rw [List.takeWhile_cons_of_pos rfl, List.dropWhile_cons_of_pos rfl,
          Text.takeWhile_crlf rfl rfl, Text.dropWhile_crlf rfl rfl] at blanksBehind
        have stepBlank := blanksBehind.split ((p.advance text).shift 1)
        -- the line feed takes the column back, so what follows the blanks is where it was
        have backAgain :
            ((p.advance text).shift 1).advance ('\n' :: crlf (after.takeWhile isSpace)) =
            (p.advance text).advance ('\n' :: after.takeWhile isSpace) := by
          rw [Position.advance_cons, Position.advance_cons, Position.advance_crlf]
          rfl
        rw [backAgain] at stepBlank
        rw [place, stepBlank] at step
        rcases ih _ (Nat.lt_trans shorterBlank shorter) behind rfl with
          ⟨more', split', recast⟩ | ⟨⟨e, failed⟩, torn⟩
        · left
          rw [split'] at step
          exact ⟨_, step, .longer open' line rfl rfl recast⟩
        · right
          rw [failed] at step
          obtain ⟨l, member, isTorn⟩ := torn
          exact ⟨⟨e, step⟩, l, List.mem_cons_of_mem _ (List.mem_cons_of_mem _ member), isTorn⟩

end Lexeme

end SheetLint
