import SheetLint.Token
import Mathlib.Data.List.TakeWhile

/-!
# The texts of tokens

What the text of a token looks like, by the class of the token: a delimiter is one character, a hash
and an at-word begin with their signs, whitespace is blank, and no token is empty. Lexemes begin in
one of six ways (`Lexeme.Class`).
-/

namespace SheetLint

/-- A lexeme of such a class stands on one line, and no line feed plays a part in it. -/
def LexemeKind.isWritten : LexemeKind → Bool
  | .hash | .atWord | .number | .word | .delimiter => true
  | .whitespace | .comment | .string | .url => false

namespace Lexeme

/-- The text of a lexeme is of the form that its class promises. -/
def WellFormed (l : Lexeme) : Prop :=
  match l.kind with
  | .whitespace => l.text ≠ [] ∧ ∀ c ∈ l.text, isSpace c = true
  | .hash => ∃ cs, l.text = '#' :: cs
  | .atWord => ∃ cs, l.text = '@' :: cs
  | .delimiter => ∃ c, l.text = [c]
  | _ => l.text ≠ []

theorem take_spanLength (test : Char → Bool) (cs : List Char) :
    cs.take (spanLength test cs) = cs.takeWhile test :=
  (List.prefix_iff_eq_take.mp (List.takeWhile_prefix test)).symm

variable {c : Char} {cs : List Char} {kind : LexemeKind} {n : Nat}

/-- The lexemes that stand on one line, and how far they go. -/
inductive Written (c : Char) (cs : List Char) : LexemeKind → Nat → Prop
  | delimiter : Written c cs .delimiter 0
  | hash (isHash : c = '#') : Written c cs .hash (spanLength isNameChar cs)
  | atWord (isAt : c = '@') : Written c cs .atWord (spanLength isNameChar cs)
  | number : Written c cs .number (numberLength cs)
  | pointNumber : Written c cs .number (pointNumberLength cs)
  | flag : Written c cs .word (spanLength isFlagChar cs)
  | word : Written c cs .word (spanLength isWordChar cs)

theorem Written.isWritten (h : Written c cs kind n) : kind.isWritten = true := by
  cases h <;> rfl

theorem classify_slash (noComment : ∀ d ∈ cs.head?, d ≠ '*' ∧ d ≠ '/') :
    classify '/' cs = .ok (.delimiter, 0) := by
  unfold classify
  rw [if_neg (by decide), if_pos rfl]
  split
  · exact absurd rfl (noComment '*' rfl).1
  · exact absurd rfl (noComment '/' rfl).2
  · rfl

/-- What begins neither with a blank nor as a comment, a string or a url is a lexeme that stands on
    one line, or its first character is out of place. -/
theorem classify_of_plain (noBlank : isSpace c = false) (noQuote : ¬ (c = '"' ∨ c = '\''))
    (noComment : c = '/' → ∀ d ∈ cs.head?, d ≠ '*' ∧ d ≠ '/') (noUrl : opensUrl c cs = false) :
    (∃ kind n, classify c cs = .ok (kind, n) ∧ Written c cs kind n) ∨
      classify c cs = .error (.unexpectedCharacter c) := by
  by_cases slash : c = '/'
  · subst slash
    exact .inl ⟨_, _, classify_slash (noComment rfl), .delimiter⟩
  have blank : ¬ isSpace c = true := by simp [noBlank]
  unfold classify
  rw [if_neg blank, if_neg slash, if_neg noQuote]
  by_cases hash : c = '#'
  · rw [if_pos hash]
    exact .inl ⟨_, _, rfl, .hash hash⟩
  rw [if_neg hash]
  by_cases sign : c = '@'
  · rw [if_pos sign]
    split
    · exact .inl ⟨_, _, rfl, .delimiter⟩
    · exact .inl ⟨_, _, rfl, .atWord sign⟩
  rw [if_neg sign]
  by_cases digit : c.isDigit = true
  · rw [if_pos digit]
    exact .inl ⟨_, _, rfl, .number⟩
  rw [if_neg digit]
  by_cases point : c = '.'
  · rw [if_pos point]
    split
    · exact .inl ⟨_, _, rfl, .delimiter⟩
    · exact .inl ⟨_, _, rfl, .pointNumber⟩
  rw [if_neg point]
  by_cases mark : c = '!'
  · rw [if_pos mark]
    split
    · exact .inl ⟨_, _, rfl, .flag⟩
    · exact .inl ⟨_, _, rfl, .delimiter⟩
  rw [if_neg mark]
  by_cases hyphen : c = '-'
  · rw [if_pos hyphen]
    dsimp only
    split
    · exact .inl ⟨_, _, rfl, .word⟩
    split
    · exact .inl ⟨_, _, rfl, .delimiter⟩
    · exact .inr rfl
  rw [if_neg hyphen, noUrl, if_neg Bool.false_ne_true]
  by_cases word : isWordStart c = true
  · rw [if_pos word]
    exact .inl ⟨_, _, rfl, .word⟩
  rw [if_neg word]
  split
  · exact .inl ⟨_, _, rfl, .delimiter⟩
  · exact .inr rfl

theorem written_of_classify (noBlank : isSpace c = false) (noQuote : ¬ (c = '"' ∨ c = '\''))
    (noComment : c = '/' → ∀ d ∈ cs.head?, d ≠ '*' ∧ d ≠ '/') (noUrl : opensUrl c cs = false)
    (h : classify c cs = .ok (kind, n)) : Written c cs kind n := by
  rcases classify_of_plain noBlank noQuote noComment noUrl with ⟨kind', n', eq, written⟩ | eq
  · rw [eq] at h
    cases h
    exact written
  · rw [eq] at h
    cases h

/-- The ways to begin a lexeme, and how far it goes. -/
inductive Class (c : Char) (cs : List Char) : LexemeKind → Nat → Prop
  | blank (isBlank : isSpace c = true) : Class c cs .whitespace (spanLength isSpace cs)
  | block {rest : List Char} {n : Nat} (slash : c = '/') (star : cs = '*' :: rest)
      (closed : blockCommentLength rest = some n) : Class c cs .comment (n + 1)
  | line {rest : List Char} (slash : c = '/') (again : cs = '/' :: rest) :
      Class c cs .comment (spanLength (· != '\n') rest + 1)
  | string {n : Nat} (quote : c = '"' ∨ c = '\'') (closed : stringLength c cs = some n) :
      Class c cs .string n
  | url (opens : opensUrl c cs = true) : Class c cs .url (3 + urlContentsLength (cs.drop 3))
  | written {kind : LexemeKind} {n : Nat} (isWritten : kind.isWritten = true)
      (noBlank : isSpace c = false) (noQuote : ¬ (c = '"' ∨ c = '\''))
      (noComment : c = '/' → ∀ d ∈ cs.head?, d ≠ '*' ∧ d ≠ '/') (noUrl : opensUrl c cs = false) :
      Class c cs kind n

/-- Every lexeme begins in one of these ways. -/
theorem class_of_classify (h : classify c cs = .ok (kind, n)) : Class c cs kind n := by
  have whole := h
  unfold classify at h
  by_cases isBlank : isSpace c = true
  · rw [if_pos isBlank] at h
    cases h
    exact .blank isBlank
  rw [if_neg isBlank] at h
  by_cases quote : c = '"' ∨ c = '\''
  · have noSlash : c ≠ '/' := by rcases quote with rfl | rfl <;> decide
    rw [if_neg noSlash, if_pos quote] at h
    split at h <;> cases h
    exact .string quote ‹_›
  have written (noComment : c = '/' → ∀ d ∈ cs.head?, d ≠ '*' ∧ d ≠ '/')
      (noUrl : opensUrl c cs = false) : Class c cs kind n := by
    have noBlank : isSpace c = false := by simpa using isBlank
    have form := written_of_classify noBlank quote noComment noUrl whole
    exact .written form.isWritten noBlank quote noComment noUrl
  by_cases slash : c = '/'
  · rw [if_pos slash] at h
    split at h
    · split at h <;> cases h
      exact .block slash rfl ‹_›
    · cases h
      exact .line slash rfl
    · rename_i noStar noSlash
      apply written
      · intro _ d hd
        obtain ⟨rest, rfl⟩ := List.head?_eq_some_iff.mp hd
        refine ⟨?_, ?_⟩
        · rintro rfl
          exact noStar rest rfl
        · rintro rfl
          exact noSlash rest rfl
      · simp [opensUrl, slash]
  by_cases url : opensUrl c cs = true
  · have letter : c = 'u' ∨ c = 'U' := by
      simp only [opensUrl, Bool.and_eq_true, Bool.or_eq_true, beq_iff_eq] at url
      exact url.1
    have made : n = 3 + urlContentsLength (cs.drop 3) ∧ kind = .url := by
      rcases letter with rfl | rfl <;> simp [url] at h <;> simp [h]
    obtain ⟨rfl, rfl⟩ := made
    exact .url url
  · exact written (fun isSlash => absurd isSlash slash) (by simpa using url)

theorem Written.wellFormed (h : Written c cs kind n) (p : Position) :
    WellFormed ⟨kind, c :: cs.take n, p⟩ := by
  cases h with
  | delimiter => exact ⟨c, rfl⟩
  | hash isHash => exact ⟨_, by rw [isHash]⟩
  | atWord isAt => exact ⟨_, by rw [isAt]⟩
  | number => exact List.cons_ne_nil _ _
  | pointNumber => exact List.cons_ne_nil _ _
  | flag => exact List.cons_ne_nil _ _
  | word => exact List.cons_ne_nil _ _

/-- The class of a lexeme is told by its text. -/
theorem wellFormed_of_classify (p : Position) (h : classify c cs = .ok (kind, n)) :
    WellFormed ⟨kind, c :: cs.take n, p⟩ := by
  cases class_of_classify h with
  | blank isBlank =>
    refine ⟨List.cons_ne_nil _ _, ?_⟩
    rw [take_spanLength]
    exact List.forall_mem_cons.mpr ⟨isBlank, fun c hc => List.mem_takeWhile_imp hc⟩
  | block => exact List.cons_ne_nil _ _
  | line => exact List.cons_ne_nil _ _
  | string => exact List.cons_ne_nil _ _
  | url => exact List.cons_ne_nil _ _
  | written _ noBlank noQuote noComment noUrl =>
    exact (written_of_classify noBlank noQuote noComment noUrl h).wellFormed p

/-- Each lexeme of a text has the class of what begins with its first character. -/
theorem classify_of_mem_split {p : Position} {cs : List Char} {lexemes : List Lexeme} {l : Lexeme}
    (h : split p cs = .ok lexemes) (member : l ∈ lexemes) :
    ∃ c ds n, classify c ds = .ok (l.kind, n) ∧ l.text = c :: ds.take n := by
  fun_induction split p cs generalizing lexemes with
  | case1 => cases h; cases member
  | case2 => cases h
  | case3 => cases h
  | case4 p c cs kind n classified text rest hrest =>
    rename_i ih
    cases h
    rcases List.mem_cons.mp member with rfl | later
    · exact ⟨c, cs, n, classified, rfl⟩
    · exact ih hrest later

theorem wellFormed_of_split {p : Position} {cs : List Char} {lexemes : List Lexeme}
    (h : split p cs = .ok lexemes) : ∀ l ∈ lexemes, l.WellFormed := by
  intro l member
  obtain ⟨c, ds, n, classified, text⟩ := classify_of_mem_split h member
  have form := wellFormed_of_classify l.position classified
  rw [← text] at form
  exact form

end Lexeme

namespace Token

/-- The text of a token is of the form that its class promises. -/
def WellFormed (t : Token) : Prop :=
  match t.kind with
  | .whitespace => t.text.toList ≠ [] ∧ ∀ c ∈ t.text.toList, Lexeme.isSpace c = true
  | .hash => ∃ cs, t.text.toList = '#' :: cs
  | .atWord => ∃ cs, t.text.toList = '@' :: cs
  | .delimiter c => t.text.toList = [c]
  | _ => t.text.toList ≠ []

variable {t : Token} {tokens : List Token}

theorem WellFormed.text_ne_nil (h : t.WellFormed) : t.text.toList ≠ [] := by
  unfold WellFormed at h
  split at h
  · exact h.1
  · obtain ⟨cs, text⟩ := h
    simp [text]
  · obtain ⟨cs, text⟩ := h
    simp [text]
  · simp [h]
  · exact h

/-- A number stays a number when it takes a sign. -/
theorem wellFormed_pushNumber {number : Token} (kind : number.kind = .number)
    (text : number.text.toList ≠ []) (h : ∀ t ∈ tokens, t.WellFormed) :
    ∀ t ∈ pushNumber number tokens, t.WellFormed := by
  have wellFormed {t : Token} (kind : t.kind = .number) (text : t.text.toList ≠ []) :
      t.WellFormed := by
    simpa [WellFormed, kind] using text
  unfold pushNumber
  split
  · rename_i sign before
    obtain ⟨_, hbefore⟩ := List.forall_mem_cons.mp h
    split
    · exact List.forall_mem_cons.mpr ⟨wellFormed kind (by simp [text]), hbefore⟩
    · exact List.forall_mem_cons.mpr ⟨wellFormed kind text, h⟩
  · simpa using wellFormed kind text

theorem wellFormed_ofUrl {text : List Char} (p : Position) (h : text ≠ []) :
    ∀ t ∈ ofUrl text p, t.WellFormed := by
  unfold ofUrl
  dsimp only
  split
  · simp [WellFormed, h]
  · rename_i contents
    simp only [List.isEmpty_iff] at contents
    simp [WellFormed, h, contents]

/-- A lexeme of the right form makes tokens of the right form. -/
theorem wellFormed_push {lexeme : Lexeme} (h : ∀ t ∈ tokens, t.WellFormed)
    (form : lexeme.WellFormed) : ∀ t ∈ push tokens lexeme, t.WellFormed := by
  unfold Lexeme.WellFormed at form
  unfold push
  dsimp only
  cases kind : lexeme.kind <;> simp only [kind] at form ⊢
  case number => exact wellFormed_pushNumber rfl (by simpa using form) h
  case url => exact List.forall_mem_append.mpr ⟨wellFormed_ofUrl _ form, h⟩
  case delimiter =>
    obtain ⟨c, text⟩ := form
    exact List.forall_mem_cons.mpr ⟨by simp [WellFormed, text], h⟩
  all_goals exact List.forall_mem_cons.mpr ⟨by simpa [WellFormed] using form, h⟩

theorem wellFormed_foldl_push {lexemes : List Lexeme} (h : ∀ t ∈ tokens, t.WellFormed)
    (forms : ∀ l ∈ lexemes, l.WellFormed) :
    ∀ t ∈ lexemes.foldl push tokens, t.WellFormed := by
  induction lexemes generalizing tokens with
  | nil => exact h
  | cons l lexemes ih =>
    obtain ⟨form, forms⟩ := List.forall_mem_cons.mp forms
    exact ih (wellFormed_push h form) forms

/-- A text has tokens if it has lexemes, and they are pushed one after the other. -/
theorem tokenize_eq_ok {source : String} : tokenize source = .ok tokens ↔
    ∃ ls, Lexeme.split .start source.toList = .ok ls ∧ tokens = (ls.foldl push []).reverse := by
  unfold tokenize
  cases Lexeme.split .start source.toList with
  | error e => simp [Except.map]
  | ok ls => simp [Except.map, ofLexemes, eq_comm]

/-- The tokens of a text are of the forms that their classes promise. -/
theorem wellFormed_of_tokenize {source : String} (h : tokenize source = .ok tokens) :
    ∀ t ∈ tokens, t.WellFormed := by
  obtain ⟨ls, split, rfl⟩ := tokenize_eq_ok.mp h
  intro t ht
  have nothing : ∀ t ∈ ([] : List Token), t.WellFormed := by simp
  exact wellFormed_foldl_push nothing (Lexeme.wellFormed_of_split split) t (List.mem_reverse.mp ht)

end Token

end SheetLint
