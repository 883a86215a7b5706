import SheetLint.Proofs.CarriageReturns.Lexemes

/-!
# Tokens with carriage returns

What becomes of the tokens of a text when its lines end with a carriage return and a line feed
(`Token.tokenize_crlf`). Tokens keep their kinds, and they keep their texts except for line breaks
in blanks and comments. A token directly behind a line comment begins one column later. The bare
contents of a url may change, and so may the place of the blanks behind them.
-/

namespace SheetLint

namespace Text

variable {s s' u u' : List Char}

/-- The text without its line breaks. -/
def unbroken (s : List Char) : List Char :=
  s.filter fun c => c != '\n' && c != '\r'

/-- Two texts that differ in line breaks only, and each of them has one if they differ. -/
structure Rebroken (s s' : List Char) : Prop where
  unbroken : unbroken s' = unbroken s
  breaks : s' = s ∨ ('\n' ∈ s ∧ '\n' ∈ s')

theorem rebroken_refl (s : List Char) : Rebroken s s :=
  ⟨rfl, .inl rfl⟩

/-- Texts that differ in line breaks only can be put behind each other. -/
theorem Rebroken.append (left : Rebroken s s') (right : Rebroken u u') :
    Rebroken (s ++ u) (s' ++ u') := by
  refine ⟨?_, ?_⟩
  · have same := congrArg₂ (· ++ ·) left.unbroken right.unbroken
    simpa [Text.unbroken] using same
  · rcases left.breaks with rfl | ⟨here, here'⟩
    · rcases right.breaks with rfl | ⟨there, there'⟩
      · exact .inl rfl
      · exact .inr ⟨List.mem_append_right _ there, List.mem_append_right _ there'⟩
    · exact .inr ⟨List.mem_append_left _ here, List.mem_append_left _ here'⟩

/-- A text differs from the one with the other line endings in line breaks only. -/
theorem rebroken_crlf (s : List Char) : Rebroken s (crlf s) := by
  refine ⟨?_, ?_⟩
  · induction s with
    | nil => rfl
    | cons c s ih =>
      by_cases newline : c = '\n'
      · subst newline
        exact ih
      · rw [crlf_cons newline]
        have same := congrArg (unbroken [c] ++ ·) ih
        simpa [unbroken, ← List.filter_append] using same
  · by_cases breaks : '\n' ∈ s
    · exact .inr ⟨breaks, (mem_crlf (by decide)).mpr breaks⟩
    · exact .inl (crlf_of_line breaks)

end Text

/-- The place one column further if it is one of `ps`, and else the place itself. -/
def Position.moved (ps : List Position) (p : Position) : Position :=
  if p ∈ ps then p.shift 1 else p

namespace Token

variable {ps : List Position} {t t' o o' : Token} {ts ts' us us' ss ss' acc acc' : List Token}

/-- A comment that goes on to the end of its line. -/
def isLineComment (t : Token) : Bool :=
  t.kind == .comment && t.text.toList.take 2 == ['/', '/']

/-- The places of the tokens that stand directly behind line comments. -/
def behindLineComments : List Token → List Position
  | c :: t :: ts =>
    if c.isLineComment then t.position :: behindLineComments (t :: ts)
    else behindLineComments (t :: ts)
  | _ => []

/-- The tokens say the same, up to line breaks in blanks and comments. -/
structure Alike (t t' : Token) : Prop where
  kind : t'.kind = t.kind
  text : t.isTrivia = false → t'.text = t.text
  blank : t.kind = .whitespace → Text.Rebroken t.text.toList t'.text.toList

/-- The tokens are alike, and the second stands one column further if the first is at one of the
    places `ps`. -/
structure Same (ps : List Position) (t t' : Token) : Prop extends Alike t t' where
  position : t'.position = t.position.moved ps

/-- The contents behind an opening bracket that the two texts have instead of each other: strings,
    and blanks behind them or none. -/
inductive Contents : List Token → List Token → Prop
  | bare {ss ss' : List Token} (strings : ∀ s ∈ ss, s.kind = .string)
      (strings' : ∀ s ∈ ss', s.kind = .string) : Contents ss ss'
  | blank {ss ss' : List Token} {b b' : Token} (strings : ∀ s ∈ ss, s.kind = .string)
      (strings' : ∀ s ∈ ss', s.kind = .string) (kind : b.kind = .whitespace)
      (alike : Alike b b') : Contents (ss ++ [b]) (ss' ++ [b'])

/-- The tokens of two texts that differ in line breaks only. -/
inductive Recast (ps : List Position) : List Token → List Token → Prop
  | nil : Recast ps [] []
  | keep {t t' : Token} {ts ts' : List Token} (same : Same ps t t') (rest : Recast ps ts ts') :
      Recast ps (t :: ts) (t' :: ts')
  | fill {o o' : Token} {ss ss' ts ts' : List Token} (same : Same ps o o')
      (opening : o.isDelimiter '(' = true) (text : '(' ∈ o.text.toList)
      (contents : Contents ss ss') (rest : Recast ps ts ts') :
      Recast ps (o :: (ss ++ ts)) (o' :: (ss' ++ ts'))

theorem Alike.isTrivia_eq (h : Alike t t') : t'.isTrivia = t.isTrivia := by
  rw [isTrivia, h.kind, isTrivia]

theorem Alike.isDelimiter_eq (h : Alike t t') (c : Char) : t'.isDelimiter c = t.isDelimiter c := by
  rw [isDelimiter, h.kind, isDelimiter]

theorem Alike.isSign_eq (h : Alike t t') : t'.isSign = t.isSign := by
  rw [isSign, h.isDelimiter_eq, h.isDelimiter_eq, isSign]

theorem Alike.isWordLike_eq (h : Alike t t') : t'.isWordLike = t.isWordLike := by
  rw [isWordLike, h.kind, isWordLike]

theorem alike_refl (t : Token) : Alike t t :=
  ⟨rfl, fun _ => rfl, fun _ => Text.rebroken_refl _⟩

/-- All comments are alike. -/
theorem alike_comment (kind : t.kind = .comment) (kind' : t'.kind = .comment) : Alike t t' := by
  refine ⟨kind'.trans kind.symm, ?_, ?_⟩
  · simp [isTrivia, kind]
  · simp [kind]

theorem alike_whitespace (kind : t.kind = .whitespace) (kind' : t'.kind = .whitespace)
    (text : Text.Rebroken t.text.toList t'.text.toList) : Alike t t' := by
  refine ⟨kind'.trans kind.symm, ?_, fun _ => text⟩
  simp [isTrivia, kind]

/-- Contents are strings and blanks. -/
theorem Contents.kinds (h : Contents ss ss') :
    (∀ s ∈ ss, s.kind = .string ∨ s.kind = .whitespace) ∧
      ∀ s ∈ ss', s.kind = .string ∨ s.kind = .whitespace := by
  cases h with
  | bare strings strings' =>
    exact ⟨fun s hs => .inl (strings s hs), fun s hs => .inl (strings' s hs)⟩
  | blank strings strings' kind alike =>
    refine ⟨?_, ?_⟩
    · intro s hs
      rcases List.mem_append.mp hs with hs | hs
      · exact .inl (strings s hs)
      · rw [List.mem_singleton.mp hs]
        exact .inr kind
    · intro s hs
      rcases List.mem_append.mp hs with hs | hs
      · exact .inl (strings' s hs)
      · rw [List.mem_singleton.mp hs, alike.kind]
        exact .inr kind

theorem Recast.append (left : Recast ps ts ts') (right : Recast ps us us') :
    Recast ps (ts ++ us) (ts' ++ us') := by
  induction left with
  | nil => exact right
  | keep same _ ih => exact .keep same ih
  | fill same opening text contents _ ih =>
    have joint := Recast.fill same opening text contents ih
    simpa only [List.cons_append, List.append_assoc] using joint

/-- A token is the first one behind a line comment, or the list goes on. -/
theorem mem_behindLineComments {p : Position} : p ∈ behindLineComments ts ↔
    ∃ us c t vs, ts = us ++ c :: t :: vs ∧ c.isLineComment = true ∧ t.position = p := by
  constructor
  · intro member
    fun_induction behindLineComments ts with
    | case1 c t ts comment ih =>
      rcases List.mem_cons.mp member with rfl | member
      · exact ⟨[], c, t, ts, rfl, comment, rfl⟩
      · obtain ⟨us, d, u, vs, split, found⟩ := ih member
        exact ⟨c :: us, d, u, vs, by rw [split]; rfl, found⟩
    | case2 c t ts _ ih =>
      obtain ⟨us, d, u, vs, split, found⟩ := ih member
      exact ⟨c :: us, d, u, vs, by rw [split]; rfl, found⟩
    | case3 => cases member
  · rintro ⟨us, c, t, vs, rfl, comment, rfl⟩
    induction us with
    | nil =>
      rw [List.nil_append, behindLineComments, if_pos comment]
      exact List.mem_cons_self
    | cons d us ih =>
      obtain ⟨e, rest, more⟩ : ∃ e rest, us ++ c :: t :: vs = e :: rest := by
        cases us <;> exact ⟨_, _, rfl⟩
      rw [List.cons_append, more, behindLineComments, ← more]
      split
      · exact List.mem_cons_of_mem _ ih
      · exact ih

/-- Where the places of tokens are distinct, a token is at a place behind a line comment exactly if
    it stands behind one itself. -/
theorem mem_behindLineComments_iff (distinct : (ts.map (·.position)).Nodup)
    (split : ts = us ++ t :: us') :
    t.position ∈ behindLineComments ts ↔ us.getLast?.any isLineComment = true := by
  rw [mem_behindLineComments]
  constructor
  · rintro ⟨vs, c, u, vs', split', comment, place⟩
    rw [split, List.map_append, List.map_cons, List.nodup_middle, List.nodup_cons,
      ← List.map_append] at distinct
    have elsewhere : u ∉ us ++ us' := by
      intro member
      apply distinct.1
      rw [← place]
      exact List.mem_map_of_mem member
    rw [List.mem_append, not_or] at elsewhere
    have parts : us ++ t :: us' = (vs ++ [c]) ++ u :: vs' := by
      rw [← split, split', List.append_assoc]
      rfl
    rw [(List.append_cons_inj_of_notMem elsewhere.1 elsewhere.2).mp parts |>.1]
    simpa using comment
  · intro comment
    obtain ⟨c, last, isComment⟩ := (Option.any_eq_true _ _).mp comment
    obtain ⟨vs, rfl⟩ := List.getLast?_eq_some_iff.mp last
    refine ⟨vs, c, t, us', ?_, isComment, rfl⟩
    rw [split, List.append_assoc]
    rfl

/-! ### Tokens as they are made -/

/-- The place of a token in front of which the tokens `ts` stand, from the last to the first: one
    column further behind a line comment. -/
def placeBehind (ts : List Token) (p : Position) : Position :=
  if ts.head?.any isLineComment then p.shift 1 else p

/-- The tokens of two texts that differ in line breaks only, as they are made: they are listed from
    the last to the first, and each is placed by the one in front of it. Only whitespace stands
    behind a line comment. -/
inductive Turned : List Token → List Token → Prop
  | nil : Turned [] []
  | keep {t t' : Token} {ts ts' : List Token} (alike : Alike t t')
      (place : t'.position = placeBehind ts t.position)
      (behind : ts.head?.any isLineComment = true → t.kind = .whitespace) (rest : Turned ts ts') :
      Turned (t :: ts) (t' :: ts')
  | fill {o o' : Token} {ss ss' ts ts' : List Token} (alike : Alike o o')
      (place : o'.position = placeBehind ts o.position) (opening : o.isDelimiter '(' = true)
      (text : '(' ∈ o.text.toList) (contents : Contents ss ss') (rest : Turned ts ts') :
      Turned (ss.reverse ++ o :: ts) (ss'.reverse ++ o' :: ts')

theorem placeBehind_of_not (head : acc.head?.any isLineComment = false) (p : Position) :
    placeBehind acc p = p := by
  rw [placeBehind, head]
  rfl

/-- A token that is put behind anything but a line comment stays where it is. -/
theorem Turned.cons (h : Turned acc acc') (head : acc.head?.any isLineComment = false)
    (alike : Alike t t') (place : t'.position = t.position) : Turned (t :: acc) (t' :: acc') := by
  refine .keep alike ?_ ?_ h
  · rw [placeBehind_of_not head, place]
  · rw [head]
    intro comment
    cases comment

/-- The last token of an opened bracket with its contents is neither a sign nor a word. -/
theorem head?_any_fill {test : Token → Bool} (inside : ∀ s ∈ ss, test s = false)
    (opening : test o = false) : (ss.reverse ++ o :: ts).head?.any test = false := by
  cases last : ss.reverse with
  | nil => exact opening
  | cons s rest => exact inside s (List.mem_reverse.mp (last ▸ List.mem_cons_self))

theorem Contents.isSign_eq_false (h : Contents ss ss') :
    (∀ s ∈ ss, s.isSign = false) ∧ ∀ s ∈ ss', s.isSign = false := by
  have noSign {s : Token} (kind : s.kind = .string ∨ s.kind = .whitespace) : s.isSign = false := by
    rcases kind with kind | kind <;> simp [isSign, isDelimiter, kind]
  exact ⟨fun s hs => noSign (h.kinds.1 s hs), fun s hs => noSign (h.kinds.2 s hs)⟩

theorem Contents.isWordLike_eq_false (h : Contents ss ss') :
    (∀ s ∈ ss, s.isWordLike = false) ∧ ∀ s ∈ ss', s.isWordLike = false := by
  have noWord {s : Token} (kind : s.kind = .string ∨ s.kind = .whitespace) :
      s.isWordLike = false := by
    rcases kind with kind | kind <;> simp [isWordLike, kind]
  exact ⟨fun s hs => noWord (h.kinds.1 s hs), fun s hs => noWord (h.kinds.2 s hs)⟩

theorem isTrivia_of_isSign (h : t.isSign = true) : t.isTrivia = false := by
  simp only [isSign, isDelimiter, Bool.or_eq_true, beq_iff_eq] at h
  rcases h with kind | kind <;> simp [isTrivia, kind]

theorem isSign_of_opening (opening : o.isDelimiter '(' = true) : o.isSign = false := by
  simp only [isDelimiter, beq_iff_eq] at opening
  simp [isSign, isDelimiter, opening]

theorem isWordLike_of_opening (opening : o.isDelimiter '(' = true) : o.isWordLike = false := by
  simp only [isDelimiter, beq_iff_eq] at opening
  simp [isWordLike, opening]

theorem Turned.isWordLike_head (h : Turned ts ts') :
    ts'.head?.any isWordLike = ts.head?.any isWordLike := by
  cases h with
  | nil => rfl
  | keep alike place behind rest => exact alike.isWordLike_eq
  | fill alike place opening text contents rest =>
    have noWord := isWordLike_of_opening opening
    rw [head?_any_fill contents.isWordLike_eq_false.1 noWord,
      head?_any_fill contents.isWordLike_eq_false.2 (alike.isWordLike_eq.trans noWord)]

theorem pushNumber_of_not (number : Token) (head : acc.head?.any isSign = false) :
    pushNumber number acc = number :: acc := by
  cases acc with
  | nil => rfl
  | cons sign before =>
    rw [pushNumber, if_neg]
    rw [isSignOf, show sign.isSign = false from head]
    simp

/-- A number takes its sign in both texts or in none. -/
theorem Turned.pushNumber (h : Turned acc acc') (head : acc.head?.any isLineComment = false)
    (number : Token) : Turned (pushNumber number acc) (pushNumber number acc') := by
  have apart : Turned (number :: acc) (number :: acc') := h.cons head (alike_refl number) rfl
  cases h with
  | nil => exact apart
  | @keep sign sign' before before' alike place behind rest =>
    by_cases isSign : sign.isSign = true
    · -- a sign is no whitespace, so it does not stand behind a line comment and has not moved
      have noComment : before.head?.any isLineComment = false := by
        rw [Bool.eq_false_iff]
        intro comment
        have noTrivia := isTrivia_of_isSign isSign
        simp [isTrivia, behind comment] at noTrivia
      rw [placeBehind_of_not noComment] at place
      rw [Token.pushNumber, Token.pushNumber, isSignOf, isSignOf, alike.isSign_eq, place,
        rest.isWordLike_head]
      split
      · rw [alike.text (isTrivia_of_isSign isSign)]
        exact rest.cons noComment ⟨rfl, fun _ => rfl, fun _ => Text.rebroken_refl _⟩ rfl
      · exact apart
    · rw [Bool.not_eq_true] at isSign
      have noSign : (sign :: before).head?.any Token.isSign = false := isSign
      have noSign' : (sign' :: before').head?.any Token.isSign = false :=
        alike.isSign_eq.trans isSign
      rw [pushNumber_of_not _ noSign, pushNumber_of_not _ noSign']
      exact apart
  | fill alike place opening text contents rest =>
    have noSign := isSign_of_opening opening
    rw [pushNumber_of_not _ (head?_any_fill contents.isSign_eq_false.1 noSign),
      pushNumber_of_not _ (head?_any_fill contents.isSign_eq_false.2
        (alike.isSign_eq.trans noSign))]
    exact apart

theorem Turned.ofUrl (h : Turned acc acc') (head : acc.head?.any isLineComment = false)
    (text : List Char) (p : Position) : Turned (ofUrl text p ++ acc) (ofUrl text p ++ acc') := by
  have word := h.cons head (alike_refl ⟨.word, String.ofList (text.take 3), p⟩) rfl
  have opening := word.cons rfl (alike_refl ⟨.delimiter '(', "(", p.shift 3⟩) rfl
  unfold Token.ofUrl
  dsimp only
  split
  · exact opening
  · exact opening.cons rfl (alike_refl _) rfl

/-- A lexeme that stays as it is makes the same tokens. -/
theorem Turned.push_same (h : Turned acc acc') (head : acc.head?.any isLineComment = false)
    (l : Lexeme) : Turned (push acc l) (push acc' l) := by
  have plain (t : Token) : Turned (t :: acc) (t :: acc') := h.cons head (alike_refl t) rfl
  unfold Token.push
  dsimp only
  cases l.kind with
  | url => exact h.ofUrl head l.text l.position
  | number => exact h.pushNumber head _
  | _ => exact plain _

/-- A lexeme that gets the carriage returns of its own line feeds. -/
theorem Turned.push_crlf (h : Turned acc acc') (head : acc.head?.any isLineComment = false)
    {l : Lexeme} (line : Lexeme.OnLine l.kind l.text) :
    Turned (push acc l) (push acc' { l with text := Text.crlf l.text }) := by
  by_cases blank : l.kind = .whitespace
  · unfold Token.push
    simp only [blank]
    refine h.cons head (alike_whitespace rfl rfl ?_) rfl
    simpa using Text.rebroken_crlf l.text
  · by_cases comment : l.kind = .comment
    · unfold Token.push
      simp only [comment]
      exact h.cons head (alike_comment rfl rfl) rfl
    · rw [Text.crlf_of_line (line blank comment)]
      exact h.push_same head l

/-- Only a line comment puts a line comment on top. -/
theorem isLineComment_head_push {l : Lexeme}
    (h : (push acc l).head?.any isLineComment = true) :
    Lexeme.isLineComment l.kind l.text = true := by
  have number (n : Token) (kind : n.kind = .number) :
      (Token.pushNumber n acc).head?.any isLineComment = false := by
    unfold Token.pushNumber
    repeat' split
    all_goals simp [isLineComment, kind]
  have url (text : List Char) (p : Position) :
      (Token.ofUrl text p ++ acc).head?.any isLineComment = false := by
    unfold Token.ofUrl
    dsimp only
    split <;> rfl
  unfold push at h
  dsimp only at h
  cases kind : l.kind <;> rw [kind] at h
  case number =>
    rw [number _ rfl] at h
    cases h
  case url =>
    rw [url] at h
    cases h
  case comment => simpa [isLineComment, Lexeme.isLineComment] using h
  all_goals cases h

/-- A line comment that takes a carriage return from the line break behind it. -/
theorem Turned.push_line (h : Turned acc acc') (head : acc.head?.any isLineComment = false)
    {l b : Lexeme} {cs : List Char} (comment : Lexeme.isLineComment l.kind l.text = true)
    (blank : b.kind = .whitespace) (text : b.text = '\n' :: cs) :
    Turned (push (push acc l) b) (push (push acc' { l with text := l.text ++ ['\r'] })
      { b with text := '\n' :: Text.crlf cs, position := b.position.shift 1 }) := by
  simp only [Lexeme.isLineComment, Bool.and_eq_true, beq_iff_eq] at comment
  have first : Turned (push acc l) (push acc' { l with text := l.text ++ ['\r'] }) := by
    unfold Token.push
    simp only [comment.1]
    exact h.cons head (alike_comment rfl rfl) rfl
  have behind : (push acc l).head?.any isLineComment = true := by
    unfold Token.push
    simp [comment.1, isLineComment, comment.2]
  unfold Token.push at first behind ⊢
  simp only [blank, text]
  refine .keep (alike_whitespace rfl rfl ?_) ?_ (fun _ => rfl) first
  · simpa using (Text.rebroken_refl ['\n']).append (Text.rebroken_crlf cs)
  · rw [placeBehind, if_pos behind]

/-- The bare contents of a url that take a carriage return from the line break behind them. -/
theorem Turned.push_url (h : Turned acc acc') (head : acc.head?.any isLineComment = false)
    {l b : Lexeme} {cs : List Char} (url : l.kind = .url) (opens : l.OpensUrl)
    (blank : b.kind = .whitespace) (text : b.text = '\n' :: cs) :
    Turned (push (push acc l) b) (push (push acc' { l with text := l.text ++ ['\r'] })
      { b with text := '\n' :: Text.crlf cs, position := b.position.shift 1 }) := by
  obtain ⟨letters, contents, same, three, -⟩ := opens
  have word := h.cons head (alike_refl ⟨.word, String.ofList letters, l.position⟩) rfl
  have alike : Alike ⟨.whitespace, String.ofList b.text, b.position⟩
      ⟨.whitespace, String.ofList ('\n' :: Text.crlf cs), b.position.shift 1⟩ := by
    refine alike_whitespace rfl rfl ?_
    rw [text]
    simpa using (Text.rebroken_refl ['\n']).append (Text.rebroken_crlf cs)
  have fill {ss : List Token} (strings : ∀ s ∈ ss, s.kind = .string) {s' : Token}
      (string' : s'.kind = .string) := Turned.fill
    (alike_refl ⟨.delimiter '(', "(", l.position.shift 3⟩) rfl rfl (by simp)
    (Contents.blank strings (List.forall_mem_singleton.mpr string') rfl alike) word
  unfold Token.push
  simp only [url, blank]
  rw [same, List.append_assoc, List.cons_append, ofUrl_eq three, ofUrl_eq three,
    if_neg (List.append_ne_nil_of_right_ne_nil _ (List.cons_ne_nil _ _))]
  split
  · exact fill (List.forall_mem_nil _) rfl
  · exact fill (List.forall_mem_singleton.mpr rfl) rfl

/-- All tokens of two texts are made alike. -/
theorem Turned.foldl_push {ls ls' : List Lexeme} (recast : Lexeme.Recast ls ls')
    (h : Turned acc acc') (last : acc.head?.any isLineComment = true → ls = [])
    (urls : ∀ l ∈ ls, l.kind = .url → l.OpensUrl) :
    Turned (ls.foldl push acc) (ls'.foldl push acc') := by
  -- as long as there is something to add, no line comment is on top
  have noComment {l : Lexeme} {ls : List Lexeme} {acc : List Token}
      (last : acc.head?.any isLineComment = true → l :: ls = []) :
      acc.head?.any isLineComment = false := by
    rw [Bool.eq_false_iff]
    intro comment
    cases last comment
  induction recast generalizing acc acc' with
  | nil => exact h
  | whole line lastLine rest ih =>
    refine ih (h.push_crlf (noComment last) line) ?_ (List.forall_mem_cons.mp urls).2
    intro comment
    exact lastLine (isLineComment_head_push comment)
  | @longer l b cs ls ls' open' line blank text rest ih =>
    obtain ⟨url, urls⟩ := List.forall_mem_cons.mp urls
    have top : (push (push acc l) b).head?.any isLineComment = true → ls = [] := by
      intro comment
      have isComment := isLineComment_head_push comment
      rw [blank] at isComment
      cases isComment
    rcases open' with comment | isUrl
    · exact ih (h.push_line (noComment last) comment blank text) top
        (List.forall_mem_cons.mp urls).2
    · exact ih (h.push_url (noComment last) isUrl (url isUrl) blank text) top
        (List.forall_mem_cons.mp urls).2

/-- Once all tokens are made, the places behind line comments are known. -/
theorem Turned.recast (h : Turned acc acc')
    (marked : ∀ us t ts, acc = us ++ t :: ts →
      (t.position ∈ ps ↔ ts.head?.any isLineComment = true)) :
    Recast ps acc.reverse acc'.reverse := by
  have same {t t' : Token} {ts : List Token} (alike : Alike t t')
      (place : t'.position = placeBehind ts t.position)
      (mark : t.position ∈ ps ↔ ts.head?.any isLineComment = true) : Same ps t t' := by
    refine ⟨alike, ?_⟩
    rw [place, placeBehind, Position.moved]
    simp only [mark]
  induction h with
  | nil => exact .nil
  | @keep t t' ts ts' alike place _ rest ih =>
    have before := ih fun us u vs split => marked (t :: us) u vs (by rw [split]; rfl)
    have here := Recast.keep (same alike place (marked [] t ts rfl)) .nil
    simpa only [List.reverse_cons] using before.append here
  | @fill o o' ss ss' ts ts' alike place opening text contents rest ih =>
    have before := ih fun us u vs split =>
      marked (ss.reverse ++ o :: us) u vs (by rw [split, List.append_assoc]; rfl)
    have here := Recast.fill (same alike place (marked ss.reverse o ts rfl)) opening text contents
      .nil
    simpa using before.append here

/-- A string that goes over a line break. -/
def IsBroken (t : Token) : Prop :=
  t.kind = .string ∧ '\n' ∈ t.text.toList

/-- A number is no string and takes none away. -/
theorem exists_isBroken_pushNumber {number : Token} (kind : number.kind = .number) :
    (∃ t ∈ Token.pushNumber number acc, t.IsBroken) ↔ ∃ t ∈ acc, t.IsBroken := by
  have other {t : Token} (h : t.kind ≠ .string) : ¬ t.IsBroken := fun broken => h broken.1
  have noString : ¬ number.IsBroken := other (by simp [kind])
  cases acc with
  | nil => simp [Token.pushNumber, noString]
  | cons sign before =>
    rw [Token.pushNumber]
    split
    · rename_i joins
      rw [isSignOf, Bool.and_assoc, Bool.and_eq_true, isSign, Bool.or_eq_true, isDelimiter,
        isDelimiter, beq_iff_eq, beq_iff_eq] at joins
      have noSign : ¬ sign.IsBroken := by
        apply other
        rcases joins.1 with minus | plus
        · simp [minus]
        · simp [plus]
      simp [noSign, other, kind]
    · simp [noString]

/-- A string over a line break makes such a token, and nothing else does as long as urls stand on
    one line. -/
theorem exists_isBroken_push {l : Lexeme} (url : l.kind = .url → '\n' ∉ l.text) :
    (∃ t ∈ push acc l, t.IsBroken) ↔
      (l.kind = .string ∧ '\n' ∈ l.text) ∨ ∃ t ∈ acc, t.IsBroken := by
  unfold push
  dsimp only
  cases kind : l.kind with
  | number => simpa using exists_isBroken_pushNumber rfl
  | url =>
    have line : '\n' ∉ l.text.drop 4 := fun found => url kind (List.mem_of_mem_drop found)
    unfold Token.ofUrl
    dsimp only
    split
    · simp [IsBroken]
    · simp [IsBroken, line]
  | _ => simp [IsBroken]

theorem exists_isBroken_foldl (acc : List Token) {ls : List Lexeme}
    (urls : ∀ l ∈ ls, l.kind = .url → '\n' ∉ l.text) :
    (∃ t ∈ ls.foldl push acc, t.IsBroken) ↔
      (∃ l ∈ ls, l.kind = .string ∧ '\n' ∈ l.text) ∨ ∃ t ∈ acc, t.IsBroken := by
  induction ls generalizing acc with
  | nil => simp
  | cons l ls ih =>
    obtain ⟨url, urls⟩ := List.forall_mem_cons.mp urls
    rw [List.foldl_cons, ih _ urls, exists_isBroken_push url]
    simp only [List.mem_cons, exists_eq_or_imp, or_assoc]
    exact or_left_comm

/-- A text with the other line breaks has related tokens, unless a string goes over a line break. -/
theorem tokenize_crlf {source : String} (h : tokenize source = .ok ts) :
    (∃ ts', tokenize (String.ofList (Text.crlf source.toList)) = .ok ts' ∧
      Recast (behindLineComments ts) ts ts' ∧ ¬ ∃ t ∈ ts, t.IsBroken) ∨
    ((∃ e, tokenize (String.ofList (Text.crlf source.toList)) = .error e) ∧
      ∃ t ∈ ts, t.IsBroken) := by
  have distinct := (tiles_of_tokenize h).1.nodup
  obtain ⟨ls, split, made⟩ := tokenize_eq_ok.mp h
  have broken : (∃ t ∈ ts, t.IsBroken) ↔ ∃ l ∈ ls, l.kind = .string ∧ '\n' ∈ l.text := by
    have all := exists_isBroken_foldl [] (Lexeme.url_onLine_of_split split)
    simpa [made] using all
  rcases Lexeme.split_crlf split with ⟨ls', split', recast⟩ | ⟨⟨e, failed⟩, torn⟩
  · left
    have turned : Turned ts.reverse (ls'.foldl push []) := by
      rw [made, List.reverse_reverse]
      exact Turned.foldl_push recast .nil nofun (Lexeme.opensUrl_of_split split)
    refine ⟨(ls'.foldl push []).reverse, ?_, ?_, ?_⟩
    · exact tokenize_eq_ok.mpr ⟨ls', by rwa [String.toList_ofList], rfl⟩
    · have marked (us : List Token) (t : Token) (vs : List Token)
          (apart : ts.reverse = us ++ t :: vs) :
          t.position ∈ behindLineComments ts ↔ vs.head?.any isLineComment = true := by
        have parts : ts = vs.reverse ++ t :: us.reverse := by
          have := congrArg List.reverse apart
          simpa using this
        rw [mem_behindLineComments_iff distinct parts, List.getLast?_reverse]
      have related := turned.recast marked
      rwa [List.reverse_reverse] at related
    · rw [broken]
      rintro ⟨l, member, isString, breaks⟩
      exact recast.onLine l member (by simp [isString]) (by simp [isString]) breaks
  · right
    refine ⟨⟨e, ?_⟩, broken.mpr torn⟩
    unfold tokenize
    rw [String.toList_ofList, failed]
    rfl

end Token

end SheetLint
