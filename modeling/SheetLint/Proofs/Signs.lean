import SheetLint.Proofs.Tiling

/-!
# The signs of numbers

A plus or a minus in front of a number becomes part of the number, unless it stands behind a word, a
number, a hash or an at-word: there it stays a token of its own (`Token.tokenize_signs`). No lexeme
of a number has a sign, so this is decided among the tokens: a number takes the last token away
again if that is a sign with nothing like a word in front of it. Since the tokens so far tile the
text, such a sign always touches the number (`Token.Covered.position_behind_sign`). The law is an
invariant of the tokens so far (`Token.Made`), which are listed from the last to the first.
-/

namespace SheetLint

namespace Lexeme

variable {p : Position} {c : Char} {cs : List Char} {n : Nat} {ls : List Lexeme}

/-- The characters that can be the sign of a number. -/
def isSignChar (c : Char) : Bool :=
  c == '-' || c == '+'

theorem classify_plus (cs : List Char) : classify '+' cs = .ok (.delimiter, 0) := rfl

/-- A hyphen leads a word or stands alone; a longer run of hyphens must lead a word. -/
theorem classify_hyphen (cs : List Char) : classify '-' cs =
    if (cs.drop (spanLength (· == '-') cs)).head?.any isWordStart then
      .ok (.word, spanLength isWordChar cs)
    else if spanLength (· == '-') cs = 0 then .ok (.delimiter, 0)
    else .error (.unexpectedCharacter '-') := rfl

/-- A number does not begin with a sign. -/
theorem isSignChar_of_number (h : classify c cs = .ok (.number, n)) : isSignChar c = false := by
  by_contra sign
  rw [isSignChar, Bool.not_eq_false, Bool.or_eq_true, beq_iff_eq, beq_iff_eq] at sign
  rcases sign with rfl | rfl
  · rw [classify_hyphen] at h
    split at h
    · cases h
    · split at h <;> cases h
  · rw [classify_plus] at h
    cases h

/-- No lexeme of a number begins with a sign. -/
theorem unsigned_of_split (h : split p cs = .ok ls) :
    ∀ l ∈ ls, l.kind = .number → l.text.head?.any isSignChar = false := by
  intro l member isNumber
  obtain ⟨c, ds, n, classified, text⟩ := classify_of_mem_split h member
  rw [isNumber] at classified
  rw [text]
  exact isSignChar_of_number classified

/-- What is known of a lexeme by its class: its form, the letters in front of a url, and that a
    number has no sign. -/
structure Apt (l : Lexeme) : Prop where
  form : l.WellFormed
  url : l.kind = .url → l.OpensUrl
  unsigned : l.kind = .number → l.text.head?.any isSignChar = false

theorem apt_of_split (h : split p cs = .ok ls) : ∀ l ∈ ls, l.Apt := fun l member =>
  ⟨wellFormed_of_split h l member, opensUrl_of_split h l member, unsigned_of_split h l member⟩

end Lexeme

namespace Token

variable {t sign number : Token} {before news tokens ts : List Token} {lexeme : Lexeme}
  {cs : List Char} {source : String}

/-- The text begins with a plus or a minus. -/
def isSigned (t : Token) : Bool :=
  t.text.toList.head?.any Lexeme.isSignChar

theorem WellFormed.text_of_isSign (form : t.WellFormed) (isSign : t.isSign = true) :
    ∃ c, t.text.toList = [c] ∧ Lexeme.isSignChar c = true := by
  simp only [Token.isSign, isDelimiter, Bool.or_eq_true, beq_iff_eq] at isSign
  rcases isSign with kind | kind <;> simp only [WellFormed, kind] at form
  · exact ⟨'-', form, rfl⟩
  · exact ⟨'+', form, rfl⟩

/-- Behind a sign the text goes on in the next column, so that a sign touches whatever follows. -/
theorem Covered.position_behind_sign (h : Covered cs (sign :: before)) (form : sign.WellFormed)
    (isSign : sign.isSign = true) : sign.position.shift 1 = Position.start.advance cs := by
  obtain ⟨ds, rfl, start, -⟩ := h.tail
  obtain ⟨c, signText, isSignChar⟩ := form.text_of_isSign isSign
  have line : '\n' ∉ [c] := by
    rw [List.mem_singleton]
    rintro rfl
    cases isSignChar
  rw [Position.advance_append, ← start, signText, Position.advance_eq_shift _ line]
  rfl

/-- What holds of a token if it is a number: behind something like a word it has no sign, and if it
    has none although a sign stands in front of it, something like a word stands in front of that.
    The tokens `before` it are listed from the last to the first. -/
structure Attaches (t : Token) (before : List Token) : Prop where
  detached : t.kind = .number → t.isSigned = true → before.head?.any isWordLike = false
  operator : t.kind = .number → t.isSigned = false → before.head?.any isSign = true →
    before.tail.head?.any isWordLike = true

theorem attaches_of_kind (other : t.kind ≠ .number) : Attaches t before :=
  ⟨fun kind => absurd kind other, fun kind => absurd kind other⟩

/-- Each of the tokens, listed from the last to the first, stands rightly behind those before it. -/
def AllAttach (tokens : List Token) : Prop :=
  ∀ t before, t :: before <:+ tokens → Attaches t before

theorem AllAttach.cons (h : AllAttach tokens) (here : Attaches t tokens) :
    AllAttach (t :: tokens) := by
  intro u before suffix
  rcases List.suffix_cons_iff.mp suffix with same | within
  · cases same
    exact here
  · exact h u before within

theorem AllAttach.tail (h : AllAttach (t :: tokens)) : AllAttach tokens :=
  fun u before suffix => h u before (suffix.trans (List.suffix_cons t tokens))

theorem AllAttach.append (h : AllAttach tokens) (others : ∀ t ∈ news, t.kind ≠ .number) :
    AllAttach (news ++ tokens) := by
  induction news with
  | nil => exact h
  | cons t news ih =>
    obtain ⟨other, others⟩ := List.forall_mem_cons.mp others
    exact (ih others).cons (attaches_of_kind other)

/-- The tokens of the text `cs`, which has been read so far, listed from the last to the first. -/
structure Made (cs : List Char) (tokens : List Token) : Prop where
  covered : Covered cs tokens
  forms : ∀ t ∈ tokens, t.WellFormed
  attach : AllAttach tokens

theorem made_nil : Made [] [] where
  covered := covered_nil
  forms := List.forall_mem_nil _
  attach := by
    intro t before suffix
    cases List.suffix_nil.mp suffix

/-- A number takes a sign away or is put behind it: both ways the law holds for the number, and the
    tokens below have not changed. -/
theorem Made.pushNumber (h : Made cs tokens) (place : number.position = Position.start.advance cs)
    (unsigned : number.isSigned = false) : AllAttach (pushNumber number tokens) := by
  obtain ⟨covered, forms, attach⟩ := h
  have noSign : ¬ number.isSigned = true := by simp [unsigned]
  cases tokens with
  | nil =>
    exact attach.cons ⟨fun _ signed => absurd signed noSign, fun _ _ isSign => by cases isSign⟩
  | cons sign before =>
    have form := forms sign List.mem_cons_self
    rw [Token.pushNumber]
    by_cases joins : sign.isSignOf before number.position = true
    · rw [if_pos joins]
      rw [isSignOf, Bool.and_eq_true, Bool.and_eq_true, Bool.not_eq_true'] at joins
      obtain ⟨c, text, isSignChar⟩ := form.text_of_isSign joins.1.1
      have signed : isSigned { number with
          text := sign.text ++ number.text, position := sign.position } = true := by
        simpa [isSigned, text] using isSignChar
      -- what stood in front of the sign now stands in front of the number
      apply attach.tail.cons
      exact ⟨fun _ _ => joins.2, fun _ unsigned => by rw [signed] at unsigned; cases unsigned⟩
    · rw [if_neg joins]
      apply attach.cons
      refine ⟨fun _ signed => absurd signed noSign, ?_⟩
      intro _ _ isSign
      have isSign : sign.isSign = true := isSign
      have touches := covered.position_behind_sign form isSign
      rw [← place] at touches
      simpa [isSignOf, isSign, touches] using joins

theorem kind_of_mem_ofUrl {text : List Char} {p : Position} :
    ∀ t ∈ ofUrl text p, t.kind ≠ .number := by
  unfold ofUrl
  dsimp only
  split <;> simp

/-- One more lexeme has been read. -/
theorem Made.push (h : Made cs tokens) (place : lexeme.position = Position.start.advance cs)
    (apt : lexeme.Apt) : Made (cs ++ lexeme.text) (push tokens lexeme) where
  covered := h.covered.push place apt.form.text_ne_nil apt.url
  forms := wellFormed_push h.forms apt.form
  attach := by
    unfold Token.push
    dsimp only
    cases kind : lexeme.kind with
    | number => exact h.pushNumber place (by simpa [isSigned] using apt.unsigned kind)
    | url => exact h.attach.append kind_of_mem_ofUrl
    | _ => exact h.attach.cons (attaches_of_kind (by simp))

theorem Made.foldl_push {ls : List Lexeme} (h : Made cs tokens)
    (placed : Lexeme.Placed (Position.start.advance cs) ls) (apt : ∀ l ∈ ls, l.Apt) :
    Made (cs ++ (ls.map (·.text)).flatten) (ls.foldl Token.push tokens) := by
  induction ls generalizing cs tokens with
  | nil => simpa using h
  | cons l ls ih =>
    obtain ⟨place, placed⟩ := placed
    obtain ⟨here, later⟩ := List.forall_mem_cons.mp apt
    rw [← Position.advance_append] at placed
    simpa using ih (h.push place here) placed later

/-- The law holds of all tokens of a text. -/
theorem allAttach_of_tokenize (h : tokenize source = .ok ts) : AllAttach ts.reverse := by
  obtain ⟨ls, split, rfl⟩ := tokenize_eq_ok.mp h
  rw [List.reverse_reverse]
  exact (made_nil.foldl_push (Lexeme.placed_of_split split) (Lexeme.apt_of_split split)).attach

theorem reverse_take_succ {i : Nat} (hi : i < ts.length) :
    (ts.take (i + 1)).reverse = ts[i] :: (ts.take i).reverse := by
  rw [← List.take_append_getElem hi, List.reverse_append]
  rfl

theorem AllAttach.attaches (h : AllAttach ts.reverse) {i : Nat} (hi : i < ts.length) :
    Attaches ts[i] (ts.take i).reverse := by
  apply h
  rw [← reverse_take_succ hi]
  exact List.reverse_suffix.mpr (List.take_prefix _ _)

/-- Signs are attached exactly: a number with a sign does not stand behind something like a word,
    and a sign that is left in front of a number without one does. -/
theorem tokenize_signs (h : tokenize source = .ok ts) {i : Nat} (hi : i < ts.length) :
    (ts[i].kind = .number → ts[i].isSigned = true → i = 0 ∨ ts[i - 1].isWordLike = false) ∧
      ∀ next : i + 1 < ts.length, ts[i].isSign = true → ts[i + 1].kind = .number →
        ts[i + 1].isSigned = false → 0 < i ∧ ts[i - 1].isWordLike = true := by
  have attach := allAttach_of_tokenize h
  refine ⟨?_, ?_⟩
  · intro kind signed
    have free := (attach.attaches hi).detached kind signed
    cases i with
    | zero => exact .inl rfl
    | succ j =>
      rw [reverse_take_succ (by omega)] at free
      exact .inr free
  · intro next isSign kind unsigned
    have claimed := (attach.attaches next).operator kind unsigned
    rw [reverse_take_succ hi] at claimed
    have claimed := claimed isSign
    cases i with
    | zero => cases claimed
    | succ j =>
      rw [List.tail_cons, reverse_take_succ (by omega)] at claimed
      exact ⟨Nat.succ_pos j, claimed⟩

/-- The minus between two numbers stays apart. Behind the plus, which belongs to the word, a minus
    is free again, and so is one behind the bracket of a url. -/
theorem tokenize_signs_mixed :
    let ts : List Token :=
      [⟨.number, "1px", ⟨1, 1⟩⟩, ⟨.delimiter '-', "-", ⟨1, 4⟩⟩, ⟨.number, "2", ⟨1, 5⟩⟩,
        ⟨.whitespace, " ", ⟨1, 6⟩⟩, ⟨.word, "a", ⟨1, 7⟩⟩, ⟨.delimiter '+', "+", ⟨1, 8⟩⟩,
        ⟨.number, "-3", ⟨1, 9⟩⟩, ⟨.whitespace, " ", ⟨1, 11⟩⟩, ⟨.word, "url", ⟨1, 12⟩⟩,
        ⟨.delimiter '(', "(", ⟨1, 15⟩⟩, ⟨.delimiter ')', ")", ⟨1, 16⟩⟩,
        ⟨.number, "-.5", ⟨1, 17⟩⟩]
    tokenize "1px-2 a+-3 url()-.5" = .ok ts ∧
      (ts[1].isSign = true ∧ ts[2].isSigned = false ∧ ts[0].isWordLike = true) ∧
      (ts[6].isSigned = true ∧ ts[5].isWordLike = false) ∧
      (ts[11].isSigned = true ∧ ts[10].isWordLike = false) := by
  intro ts
  have tokens : tokenize "1px-2 a+-3 url()-.5" = .ok ts := by decide +kernel
  have unsigned : ts[2].isSigned = false := by decide +kernel
  have signed : ts[6].isSigned = true ∧ ts[11].isSigned = true := by decide +kernel
  have operator := (tokenize_signs tokens (i := 1) (by decide)).2 (by decide) rfl rfl unsigned
  have behindPlus := (tokenize_signs tokens (i := 6) (by decide)).1 rfl signed.1
  have behindBracket := (tokenize_signs tokens (i := 11) (by decide)).1 rfl signed.2
  refine ⟨tokens, ⟨rfl, unsigned, operator.2⟩, ⟨signed.1, ?_⟩, signed.2, ?_⟩
  · exact behindPlus.resolve_left (by decide)
  · exact behindBracket.resolve_left (by decide)

end Token

end SheetLint
