import SheetLint.Proofs.Flattening
import SheetLint.Proofs.CarriageReturns.Nodes

/-!
# Style sheets with carriage returns

A style sheet whose tokens are related to those of another is read to a related tree
(`Stylesheet.ofTokens_recast`). The stations are those of the reader: the ends of a statement are
trimmed alike, it is cut at the same colon, and each step leaves related readers related.
-/

namespace SheetLint

/-- What a stretch loses at its end, when something stands in front of it. -/
theorem rdropWhile_append {α : Type} (test : α → Bool) (xs ys : List α) :
    (xs ++ ys).rdropWhile test =
      if ys.rdropWhile test = [] then xs.rdropWhile test else xs ++ ys.rdropWhile test := by
  unfold List.rdropWhile
  rw [List.reverse_append, List.dropWhile_append]
  by_cases empty : ys.reverse.dropWhile test = []
  · simp [empty]
  · simp [empty]

/-- The elements that are taken from the end reach the first list only if the test holds of the
    whole second one. -/
theorem rtakeWhile_append {α : Type} (test : α → Bool) (xs ys : List α) :
    (xs ++ ys).rtakeWhile test =
      if ys.rdropWhile test = [] then xs.rtakeWhile test ++ ys else ys.rtakeWhile test := by
  have parts (zs : List α) : zs.rdropWhile test ++ zs.rtakeWhile test = zs :=
    List.rdropWhile_append_rtakeWhile
  apply List.append_cancel_left
  show (xs ++ ys).rdropWhile test ++ _ = (xs ++ ys).rdropWhile test ++ _
  rw [parts, rdropWhile_append]
  by_cases empty : ys.rdropWhile test = []
  · rw [if_pos empty, if_pos empty, ← List.append_assoc, parts]
  · rw [if_neg empty, if_neg empty, List.append_assoc, parts]

theorem rtakeWhile_singleton {α : Type} (test : α → Bool) (x : α) :
    [x].rtakeWhile test = if test x then [x] else [] := by
  unfold List.rtakeWhile
  by_cases h : test x = true
  · simp [h]
  · simp [h]

namespace Token

variable {ps : List Position} {t t' first first' : Token} {ts ts' ss ss' rest rest' : List Token}

theorem isTrivia_of_whitespace (kind : t.kind = .whitespace) : t.isTrivia = true := by
  simp [isTrivia, kind]

theorem isTrivia_of_opening (opening : t.isDelimiter '(' = true) : t.isTrivia = false := by
  rw [Bool.eq_false_iff]
  intro trivia
  rw [isDelimiter_of_isTrivia trivia] at opening
  cases opening

theorem Recast.eq_nil_iff (h : Recast ps ts ts') : ts' = [] ↔ ts = [] := by
  cases h <;> simp

/-- The first tokens are related, and so are those behind them unless a bracket opens there. -/
theorem Recast.of_cons (h : Recast ps (t :: ts) rest') :
    ∃ t' ts', rest' = t' :: ts' ∧ Same ps t t' ∧
      (t.isDelimiter '(' = false → Recast ps ts ts') := by
  cases h with
  | keep same rest => exact ⟨_, _, rfl, same, fun _ => rest⟩
  | fill same opening text contents rest =>
    refine ⟨_, _, rfl, same, ?_⟩
    intro noOpening
    rw [opening] at noOpening
    cases noOpening

/-- Trivia in front are related one by one, and what follows them is related. -/
theorem Recast.span (h : Recast ps ts ts') :
    List.Forall₂ (Same ps) (ts.takeWhile isTrivia) (ts'.takeWhile isTrivia) ∧
      Recast ps (ts.dropWhile isTrivia) (ts'.dropWhile isTrivia) := by
  induction h with
  | nil => exact ⟨.nil, .nil⟩
  | @keep t t' ts ts' same rest ih =>
    by_cases trivia : t.isTrivia = true
    · have trivia' : t'.isTrivia = true := same.isTrivia_eq.trans trivia
      rw [List.takeWhile_cons_of_pos trivia, List.takeWhile_cons_of_pos trivia',
        List.dropWhile_cons_of_pos trivia, List.dropWhile_cons_of_pos trivia']
      exact ⟨.cons same ih.1, ih.2⟩
    · have trivia' : ¬ t'.isTrivia = true := by rwa [same.isTrivia_eq]
      rw [List.takeWhile_cons_of_neg trivia, List.takeWhile_cons_of_neg trivia',
        List.dropWhile_cons_of_neg trivia, List.dropWhile_cons_of_neg trivia']
      exact ⟨.nil, .keep same rest⟩
  | @fill o o' ss ss' ts ts' same opening text contents rest _ =>
    have noTrivia : ¬ o.isTrivia = true := by simp [isTrivia_of_opening opening]
    have noTrivia' : ¬ o'.isTrivia = true := by rwa [same.isTrivia_eq]
    rw [List.takeWhile_cons_of_neg noTrivia, List.takeWhile_cons_of_neg noTrivia',
      List.dropWhile_cons_of_neg noTrivia, List.dropWhile_cons_of_neg noTrivia']
    exact ⟨.nil, .fill same opening text contents rest⟩

/-- Contents without the blanks at their end are contents. -/
theorem Contents.rdropWhile (h : Contents ss ss') :
    Contents (ss.rdropWhile isTrivia) (ss'.rdropWhile isTrivia) := by
  have kept {ss : List Token} (strings : ∀ s ∈ ss, s.kind = .string) :
      ss.rdropWhile isTrivia = ss := by
    rw [List.rdropWhile_eq_self_iff]
    intro some trivia
    have kind := strings _ (List.getLast_mem some)
    simp [isTrivia, kind] at trivia
  cases h with
  | bare strings strings' =>
    rw [kept strings, kept strings']
    exact .bare strings strings'
  | blank strings strings' kind alike =>
    have trivia := isTrivia_of_whitespace kind
    have trivia' := alike.isTrivia_eq.trans trivia
    rw [List.rdropWhile_concat_pos _ _ _ trivia, List.rdropWhile_concat_pos _ _ _ trivia',
      kept strings, kept strings']
    exact .bare strings strings'

theorem rdropWhile_cons_of_not (noTrivia : t.isTrivia = false) (ts : List Token) :
    (t :: ts).rdropWhile isTrivia = t :: ts.rdropWhile isTrivia := by
  rw [← List.singleton_append, rdropWhile_append]
  split
  · rename_i empty
    rw [List.rdropWhile_singleton, noTrivia, empty]
    rfl
  · rfl

/-- Related tokens are related without the trivia at their ends. -/
theorem Recast.rdropWhile (h : Recast ps ts ts') :
    Recast ps (ts.rdropWhile isTrivia) (ts'.rdropWhile isTrivia) := by
  induction h with
  | nil => exact .nil
  | @keep t t' ts ts' same rest ih =>
    rw [show t :: ts = [t] ++ ts from rfl, show t' :: ts' = [t'] ++ ts' from rfl,
      rdropWhile_append, rdropWhile_append]
    by_cases empty : ts.rdropWhile isTrivia = []
    · rw [if_pos empty, if_pos (ih.eq_nil_iff.mpr empty), List.rdropWhile_singleton,
        List.rdropWhile_singleton, same.isTrivia_eq]
      split
      · exact .nil
      · exact .keep same .nil
    · rw [if_neg empty, if_neg (ih.eq_nil_iff.not.mpr empty)]
      exact .keep same ih
  | @fill o o' ss ss' ts ts' same opening text contents rest ih =>
    have noTrivia := isTrivia_of_opening opening
    rw [rdropWhile_cons_of_not noTrivia, rdropWhile_cons_of_not (same.isTrivia_eq.trans noTrivia),
      rdropWhile_append, rdropWhile_append]
    by_cases empty : ts.rdropWhile isTrivia = []
    · rw [if_pos empty, if_pos (ih.eq_nil_iff.mpr empty)]
      have cut := Recast.fill same opening text contents.rdropWhile .nil
      rwa [List.append_nil, List.append_nil] at cut
    · rw [if_neg empty, if_neg (ih.eq_nil_iff.not.mpr empty)]
      exact .fill same opening text contents ih

/-- Related stretches are trimmed to related ones. -/
theorem Recast.trim (h : Recast ps ts ts') : Recast ps (trim ts) (trim ts') :=
  h.span.2.rdropWhile

theorem Recast.of_trim_eq_cons (h : Recast ps ts ts') (trimmed : Token.trim ts = first :: rest) :
    ∃ first' rest', Token.trim ts' = first' :: rest' ∧
      Recast ps (first :: rest) (first' :: rest') := by
  have both := h.trim
  rw [trimmed] at both
  obtain ⟨first', rest', trimmed', -, -⟩ := both.of_cons
  exact ⟨first', rest', trimmed', trimmed' ▸ both⟩

/-- What is left behind a trimmed stretch that does not begin with trivia. -/
theorem drop_trim (start : first.isTrivia = false) (rest : List Token) :
    (first :: rest).drop (Token.trim (first :: rest)).length =
      (first :: rest).rtakeWhile isTrivia := by
  have trimmed : Token.trim (first :: rest) = (first :: rest).rdropWhile isTrivia := by
    rw [Token.trim, List.dropWhile_cons_of_neg (by simp [start])]
    rfl
  have parts : (first :: rest).rdropWhile isTrivia ++ (first :: rest).rtakeWhile isTrivia =
      first :: rest := List.rdropWhile_append_rtakeWhile
  have behind : ((first :: rest).rdropWhile isTrivia ++ (first :: rest).rtakeWhile isTrivia).drop
      ((first :: rest).rdropWhile isTrivia).length = (first :: rest).rtakeWhile isTrivia :=
    List.drop_left
  rwa [parts, ← trimmed] at behind

/-- The texts of related tokens are related. -/
theorem akin_spoken (h : Recast ps ts ts') : Text.Akin (spoken ts) (spoken ts') := by
  induction h with
  | nil => exact .inl rfl
  | @keep t t' ts ts' same rest ih =>
    rw [spoken_cons t, spoken_cons t']
    refine .append ?_ ih
    by_cases comment : t.kind = .comment
    · have comment' : t'.kind = .comment := same.kind.trans comment
      exact .inl (by simp [spoken, isComment, comment, comment'])
    · have spoken' : t'.isComment = false := by simp [isComment, same.kind, comment]
      rw [spoken_singleton (by simp [isComment, comment]), spoken_singleton spoken']
      by_cases blank : t.kind = .whitespace
      · exact (same.blank blank).akin
      · exact .inl (by rw [same.text (by simp [isTrivia, comment, blank])])
  | @fill o o' ss ss' ts ts' same opening text contents rest _ =>
    have noTrivia := isTrivia_of_opening opening
    have said {o : Token} (noTrivia : o.isTrivia = false) (text : '(' ∈ o.text.toList)
        (us : List Token) : Text.Odd (spoken (o :: us)) := by
      rw [isTrivia, Bool.or_eq_false_iff] at noTrivia
      rw [spoken_cons, spoken_singleton noTrivia.2]
      exact .inr (List.mem_append_left _ text)
    exact .inr ⟨said noTrivia text _,
      said (same.isTrivia_eq.trans noTrivia) (same.text noTrivia ▸ text) _⟩

theorem akin_sourceText (h : Recast ps ts ts') :
    Text.Akin (sourceText ts).toList (sourceText ts').toList := by
  rw [toList_sourceText, toList_sourceText]
  exact akin_spoken h

end Token

/-! ### Statements -/

namespace Statement

variable {ps : List Position} {t t' colon colon' first first' name name' : Token}
  {ss ts ts' before before' after after' rest rest' trivia trivia' : List Token}
  {node block block' : Node} {depth : Nat}

/-- How many brackets are open behind a token. -/
def inside (depth : Nat) (t : Token) : Nat :=
  if t.isDelimiter '(' || t.isDelimiter '[' then depth + 1
  else if t.isDelimiter ')' || t.isDelimiter ']' then depth - 1
  else depth

/-- Puts tokens in front of a statement that is cut at a colon. -/
def prepend (us : List Token) (cut : List Token × Token × List Token) :
    List Token × Token × List Token :=
  (us ++ cut.1, cut.2)

theorem splitColon?_colon (isColon : t.isDelimiter ':' = true) :
    splitColon? 0 (t :: ts) = some ([], t, ts) := by
  rw [splitColon?, if_pos ⟨rfl, isColon⟩]

theorem splitColon?_cons (other : ¬ (depth = 0 ∧ t.isDelimiter ':' = true)) :
    splitColon? depth (t :: ts) = (splitColon? (inside depth t) ts).map (prepend [t]) := by
  rw [splitColon?, if_neg other]
  rfl

theorem inside_of_neutral (neutral : ∀ c, t.isDelimiter c = false) : inside depth t = depth := by
  simp [inside, neutral]

/-- Tokens that are no delimiters stay in front of the colon. -/
theorem splitColon?_append (neutral : ∀ s ∈ ss, ∀ c, s.isDelimiter c = false) :
    splitColon? depth (ss ++ ts) = (splitColon? depth ts).map (prepend ss) := by
  induction ss with
  | nil =>
    show splitColon? depth ts = _
    cases splitColon? depth ts <;> rfl
  | cons s ss ih =>
    obtain ⟨here, neutral⟩ := List.forall_mem_cons.mp neutral
    rw [List.cons_append, splitColon?_cons (by simp [here]), inside_of_neutral here, ih neutral,
      Option.map_map]
    rfl

/-- A colon is not found inside of brackets, so that there is a closing one before it. -/
theorem rdropWhile_of_splitColon? (h : splitColon? (depth + 1) ts = some (before, colon, after)) :
    before.rdropWhile Token.isTrivia ≠ [] := by
  rw [Ne, List.rdropWhile_eq_nil_iff]
  intro all
  induction ts generalizing before with
  | nil => cases h
  | cons t ts ih =>
    rw [splitColon?_cons (by simp)] at h
    obtain ⟨⟨front, behind⟩, cut, same⟩ := Option.map_eq_some_iff.mp h
    cases same
    obtain ⟨trivia, all⟩ := List.forall_mem_cons.mp all
    rw [inside_of_neutral (Token.isDelimiter_of_isTrivia trivia)] at cut
    exact ih cut all

/-- Two statements are cut at related colons, or neither has a colon. -/
inductive Cloven (ps : List Position) : Option (List Token × Token × List Token) →
    Option (List Token × Token × List Token) → Prop
  | uncut : Cloven ps none none
  | cut {before before' after after' : List Token} {colon colon' : Token}
      (front : Token.Recast ps before before')
      (trail : List.Forall₂ (Token.Same ps) (before.rtakeWhile Token.isTrivia)
        (before'.rtakeWhile Token.isTrivia))
      (same : Token.Same ps colon colon') (behind : Token.Recast ps after after') :
      Cloven ps (some (before, colon, after)) (some (before', colon', after'))

/-- A token in front of both cuts keeps them related. -/
theorem Cloven.keep {cut cut' : Option (List Token × Token × List Token)}
    (h : Cloven ps cut cut') (same : Token.Same ps t t') :
    Cloven ps (cut.map (prepend [t])) (cut'.map (prepend [t'])) := by
  cases h with
  | uncut => exact .uncut
  | @cut before before' after after' colon colon' front trail sameColon behind =>
    refine .cut (.keep same front) ?_ sameColon behind
    show List.Forall₂ _ (([t] ++ before).rtakeWhile _) (([t'] ++ before').rtakeWhile _)
    rw [rtakeWhile_append, rtakeWhile_append]
    by_cases all : before.rdropWhile Token.isTrivia = []
    · have all' := front.rdropWhile.eq_nil_iff.mpr all
      rw [if_pos all, if_pos all']
      rw [List.rtakeWhile_eq_self_iff.mpr (List.rdropWhile_eq_nil_iff.mp all),
        List.rtakeWhile_eq_self_iff.mpr (List.rdropWhile_eq_nil_iff.mp all')] at trail
      rw [rtakeWhile_singleton, rtakeWhile_singleton, same.isTrivia_eq]
      split
      · exact .cons same trail
      · exact trail
    · rw [if_neg all, if_neg (front.rdropWhile.eq_nil_iff.not.mpr all)]
      exact trail

/-- A bracket with its contents in front of both cuts keeps them related if more than trivia stands
    between it and the colon. -/
theorem Cloven.fill {cut cut' : Option (List Token × Token × List Token)}
    {o o' : Token} {ss ss' : List Token} (h : Cloven ps cut cut') (same : Token.Same ps o o')
    (opening : o.isDelimiter '(' = true) (text : '(' ∈ o.text.toList)
    (contents : Token.Contents ss ss')
    (closed : ∀ before colon after, cut = some (before, colon, after) →
      before.rdropWhile Token.isTrivia ≠ []) :
    Cloven ps (cut.map (prepend (o :: ss))) (cut'.map (prepend (o' :: ss'))) := by
  cases h with
  | uncut => exact .uncut
  | @cut before before' after after' colon colon' front trail sameColon behind =>
    have some := closed before colon after rfl
    refine .cut (.fill same opening text contents front) ?_ sameColon behind
    show List.Forall₂ _ ((o :: ss ++ before).rtakeWhile _) ((o' :: ss' ++ before').rtakeWhile _)
    rw [rtakeWhile_append, rtakeWhile_append, if_neg some,
      if_neg (front.rdropWhile.eq_nil_iff.not.mpr some)]
    exact trail

/-- Related statements are cut alike. -/
theorem cloven_splitColon? (h : Token.Recast ps ts ts') (depth : Nat) :
    Cloven ps (splitColon? depth ts) (splitColon? depth ts') := by
  induction h generalizing depth with
  | nil => exact .uncut
  | @keep t t' ts ts' same rest ih =>
    by_cases isColon : depth = 0 ∧ t.isDelimiter ':' = true
    · obtain ⟨rfl, isColon⟩ := isColon
      rw [splitColon?_colon isColon, splitColon?_colon (same.isDelimiter_eq _ ▸ isColon)]
      exact .cut .nil .nil same rest
    · have inside' : inside depth t' = inside depth t := by
        simp only [inside, same.isDelimiter_eq]
      rw [splitColon?_cons isColon, splitColon?_cons (by rwa [same.isDelimiter_eq]), inside']
      exact (ih _).keep same
  | @fill o o' ss ss' ts ts' same opening text contents rest ih =>
    have neutral {ss : List Token} (kinds : ∀ s ∈ ss, s.kind = .string ∨ s.kind = .whitespace) :
        ∀ s ∈ ss, ∀ c, s.isDelimiter c = false := by
      intro s hs c
      rcases kinds s hs with kind | kind <;> simp [Token.isDelimiter, kind]
    have opened {o : Token} (opening : o.isDelimiter '(' = true) {ss ts : List Token}
        (kinds : ∀ s ∈ ss, s.kind = .string ∨ s.kind = .whitespace) :
        splitColon? depth (o :: (ss ++ ts)) =
          (splitColon? (depth + 1) ts).map (prepend (o :: ss)) := by
      have noColon : ¬ (depth = 0 ∧ o.isDelimiter ':' = true) := by
        rw [Token.not_isDelimiter_of_ne opening (by decide)]
        simp
      have deeper : inside depth o = depth + 1 := by simp [inside, opening]
      rw [splitColon?_cons noColon, deeper, splitColon?_append (neutral kinds), Option.map_map]
      rfl
    rw [opened opening contents.kinds.1, opened (same.isDelimiter_eq _ ▸ opening) contents.kinds.2]
    refine (ih (depth + 1)).fill same opening text contents ?_
    intro before colon after cut
    exact rdropWhile_of_splitColon? cut

theorem rebroken_join (h : List.Forall₂ (Token.Same ps) trivia trivia')
    (kinds : ∀ t ∈ trivia, t.kind = .whitespace) :
    Text.Rebroken (String.join (trivia.map (·.text))).toList
      (String.join (trivia'.map (·.text))).toList := by
  rw [String.toList_join, String.toList_join]
  induction h with
  | nil => exact Text.rebroken_refl _
  | cons same _ ih =>
    obtain ⟨kind, kinds⟩ := List.forall_mem_cons.mp kinds
    exact (same.blank kind).append (ih kinds)

/-- The blanks among related trivia are related. -/
theorem akin_space? (h : List.Forall₂ (Token.Same ps) trivia trivia') :
    Node.Akin ps (space? trivia).toList (space? trivia').toList := by
  have blanks : List.Forall₂ (Token.Same ps) (trivia.filter (·.kind == .whitespace))
      (trivia'.filter (·.kind == .whitespace)) := by
    induction h with
    | nil => exact .nil
    | cons same _ ih =>
      rw [List.filter_cons, List.filter_cons, same.kind]
      split
      · exact .cons same ih
      · exact ih
  have kinds : ∀ b ∈ trivia.filter (·.kind == .whitespace), b.kind = .whitespace := by
    intro b hb
    simpa using (List.mem_filter.mp hb).2
  unfold space?
  generalize trivia.filter (·.kind == .whitespace) = bs at blanks kinds
  generalize trivia'.filter (·.kind == .whitespace) = bs' at blanks
  cases blanks with
  | nil => exact .nil
  | cons same blanks =>
    have text := rebroken_join (.cons same blanks) kinds
    exact Node.akin_leaf ⟨rfl, same.position, text.akin, nofun, fun _ => text.unbroken⟩

theorem position_head? (h : Token.Recast ps ts ts') (same : Token.Same ps colon colon') :
    ((ts'.head?.map (·.position)).getD colon'.position) =
      ((ts.head?.map (·.position)).getD colon.position).moved ps := by
  cases h with
  | nil => exact same.position
  | keep first _ => exact first.position
  | fill first _ _ _ _ => exact first.position

/-- A declaration that is cut alike is read alike. -/
theorem declaration_recast (front : Token.Recast ps before before')
    (trail : List.Forall₂ (Token.Same ps) (before.rtakeWhile Token.isTrivia)
      (before'.rtakeWhile Token.isTrivia))
    (same : Token.Same ps colon colon') (behind : Token.Recast ps after after')
    (start : ∀ t ∈ before.head?, t.isTrivia = false)
    (h : declaration before colon after = .ok node) :
    ∃ node', declaration before' colon' after' = .ok node' ∧ Node.Akin ps [node] [node'] := by
  obtain ⟨first, more, nodes, trimmed, read, rfl⟩ := declaration_eq_ok.mp h
  obtain ⟨first', more', trimmed', property⟩ := front.of_trim_eq_cons trimmed
  obtain ⟨nodes', read', akin⟩ := values_recast behind.trim read
  obtain ⟨_, _, ⟨rfl, rfl⟩, sameFirst, -⟩ := property.of_cons
  refine ⟨_, declaration_eq_ok.mpr ⟨first', more', nodes', trimmed', read', rfl⟩, ?_⟩
  have name : Node.Akin ps
      [.leaf .property (Token.sourceText (first :: more)) first.position]
      [.leaf .property (Token.sourceText (first' :: more')) first'.position] :=
    Node.akin_leaf ⟨rfl, sameFirst.position, Token.akin_sourceText property, nofun, nofun⟩
  have spaces : Node.Akin ps (space? (before.drop (first :: more).length)).toList
      (space? (before'.drop (first' :: more').length)).toList := by
    rw [← trimmed, ← trimmed']
    cases before with
    | nil => cases trimmed
    | cons b bs =>
      obtain ⟨b', bs', rfl, sameHead, -⟩ := front.of_cons
      have noTrivia := start b rfl
      rw [Token.drop_trim noTrivia, Token.drop_trim (sameHead.isTrivia_eq.trans noTrivia)]
      exact akin_space? trail
  have colons : Node.Akin ps [.leaf .colon ":" colon.position] [.leaf .colon ":" colon'.position] :=
    Node.akin_leaf (Node.labelled_of_eq rfl rfl same.position)
  have value := Node.akin_branch .value (position_head? behind.trim same) akin
  exact Node.akin_branch .declaration sameFirst.position
    ((((name.append spaces).append colons).append (akin_space? behind.span.1)).append value)

/-- An at-rule is read alike. -/
theorem atRule_recast {block block' : Option Node} (same : Token.Same ps name name')
    (isAt : name.kind = .atWord) (tokens : Token.Recast ps rest rest')
    (blocks : Node.Akin ps block.toList block'.toList)
    (h : atRule name rest block = .ok node) :
    ∃ node', atRule name' rest' block' = .ok node' ∧ Node.Akin ps [node] [node'] := by
  obtain ⟨value, rfl, read⟩ := atRule_eq_ok.mp h
  have text := same.text (by simp [Token.isTrivia, isAt])
  have made {value' : List Node} (akin : Node.Akin ps value value') : Node.Akin ps
      [⟨.atRule, String.ofList (name.text.toList.drop 1), name.position, value ++ block.toList⟩]
      [⟨.atRule, String.ofList (name'.text.toList.drop 1), name'.position,
        value' ++ block'.toList⟩] := by
    rw [text]
    exact Node.akin_singleton (Node.labelled_of_eq rfl rfl same.position) (akin.append blocks)
  rcases read with ⟨trimmed, rfl⟩ | ⟨first, more, nodes, trimmed, read, rfl⟩
  · have trimmed' : Token.trim rest' = [] := tokens.trim.eq_nil_iff.mpr trimmed
    exact ⟨_, atRule_eq_ok.mpr ⟨[], rfl, .inl ⟨trimmed', rfl⟩⟩, made .nil⟩
  · obtain ⟨first', more', trimmed', recast⟩ := tokens.of_trim_eq_cons trimmed
    obtain ⟨nodes', read', akin⟩ := values_recast recast read
    obtain ⟨_, _, ⟨rfl, rfl⟩, sameFirst, -⟩ := recast.of_cons
    refine ⟨_, atRule_eq_ok.mpr ⟨_, rfl, .inr ⟨first', more', nodes', trimmed', read', rfl⟩⟩, ?_⟩
    exact made (Node.akin_branch .value sameFirst.position akin)

/-- A node that is labelled with the text of its tokens. -/
theorem akin_head (kind : NodeKind) {nodes nodes' : List Node}
    (noLeaf : kind ≠ .color ∧ kind ≠ .space)
    (tokens : Token.Recast ps (first :: rest) (first' :: rest')) (akin : Node.Akin ps nodes nodes') :
    Node.Akin ps [⟨kind, Token.sourceText (first :: rest), first.position, nodes⟩]
      [⟨kind, Token.sourceText (first' :: rest'), first'.position, nodes'⟩] := by
  obtain ⟨_, _, ⟨rfl, rfl⟩, same, -⟩ := tokens.of_cons
  exact Node.akin_singleton ⟨rfl, same.position, Token.akin_sourceText tokens,
    fun color => absurd color noLeaf.1, fun space => absurd space noLeaf.2⟩ akin

theorem noOpening_of_atWord (isAt : t.kind = .atWord) : t.isDelimiter '(' = false := by
  simp [Token.isDelimiter, isAt]

/-- Related statements with related blocks are both read, to related nodes. -/
theorem withBlock_recast (tokens : Token.Recast ps (first :: rest) (first' :: rest'))
    (blocks : Node.Akin ps [block] [block']) (h : withBlock first rest block = .ok node) :
    ∃ node', withBlock first' rest' block' = .ok node' ∧ Node.Akin ps [node] [node'] := by
  obtain ⟨_, _, ⟨rfl, rfl⟩, same, behind⟩ := tokens.of_cons
  rcases withBlock_eq_ok.mp h with ⟨isAt, read⟩ | ⟨noAt, nodes, read, rfl⟩
  · have blocks : Node.Akin ps (some block).toList (some block').toList := blocks
    obtain ⟨node', read', akin⟩ :=
      atRule_recast same isAt (behind (noOpening_of_atWord isAt)) blocks read
    exact ⟨node', withBlock_eq_ok.mpr (.inl ⟨same.kind.trans isAt, read'⟩), akin⟩
  · obtain ⟨nodes', read', akin⟩ := values_recast tokens read
    have noAt' : first'.kind ≠ .atWord := by rwa [same.kind]
    refine ⟨_, withBlock_eq_ok.mpr (.inr ⟨noAt', nodes', read', rfl⟩), ?_⟩
    have selector := akin_head .selector ⟨nofun, nofun⟩ tokens akin
    exact Node.akin_branch .ruleset same.position (selector.append blocks)

/-- Related statements without a block are both read, to related nodes. -/
theorem withoutBlock_recast (start : first.isTrivia = false)
    (tokens : Token.Recast ps (first :: rest) (first' :: rest'))
    (h : withoutBlock first rest = .ok node) :
    ∃ node', withoutBlock first' rest' = .ok node' ∧ Node.Akin ps [node] [node'] := by
  obtain ⟨_, _, ⟨rfl, rfl⟩, same, behind⟩ := tokens.of_cons
  have cloven := cloven_splitColon? tokens 0
  generalize found' : splitColon? 0 (first' :: rest') = cut' at cloven
  cases withoutBlock_eq_ok.mp h with
  | @declaration before _ _ _ cut read =>
    have begins : ∀ t ∈ before.head?, t.isTrivia = false := by
      have parts := (splitColon?_eq_some cut).1
      cases before with
      | nil => exact nofun
      | cons b bs =>
        cases parts
        intro t ht
        cases ht
        exact start
    rw [cut] at cloven
    cases cloven with
    | cut front trail sameColon after =>
      obtain ⟨node', read', akin⟩ := declaration_recast front trail sameColon after begins read
      exact ⟨node', withoutBlock_eq_ok.mpr (.declaration found' read'), akin⟩
  | atRule uncut isAt read =>
    rw [uncut] at cloven
    cases cloven
    have none : Node.Akin ps (none : Option Node).toList (none : Option Node).toList := .nil
    obtain ⟨node', read', akin⟩ :=
      atRule_recast same isAt (behind (noOpening_of_atWord isAt)) none read
    exact ⟨node', withoutBlock_eq_ok.mpr (.atRule found' (same.kind.trans isAt) read'), akin⟩
  | call uncut isCall read =>
    rw [uncut] at cloven
    cases cloven
    obtain ⟨nodes', read', akin⟩ := values_recast tokens read
    have isCall' : first'.kind ≠ .atWord := by rwa [same.kind]
    exact ⟨_, withoutBlock_eq_ok.mpr (.call found' isCall' read'),
      akin_head .mixinCall ⟨nofun, nofun⟩ tokens akin⟩

end Statement

/-! ### The reader -/

/-- Blocks that were opened alike. -/
structure OpenBlock.Recast (ps : List Position) (b b' : OpenBlock) : Prop where
  brace : b'.brace = b.brace.moved ps
  head : Token.Recast ps (b.first :: b.rest) (b'.first :: b'.rest)
  before : Node.Akin ps b.before.reverse b'.before.reverse

namespace Reader

variable {ps : List Position} {r r' r₁ : Reader} {t t' : Token} {ts ts' ss : List Token}

/-- Readers that have read related tokens. -/
structure Recast (ps : List Position) (r r' : Reader) : Prop where
  brackets : r'.brackets.length = r.brackets.length
  statement : Token.Recast ps r.statement.reverse r'.statement.reverse
  done : Node.Akin ps r.done.reverse r'.done.reverse
  blocks : List.Forall₂ (OpenBlock.Recast ps) r.blocks r'.blocks

theorem recast_initial : Recast ps initial initial :=
  ⟨rfl, .nil, .nil, .nil⟩

theorem akin_reverse_cons {n n' : Node} {ns ns' : List Node} (akin : Node.Akin ps [n] [n'])
    (before : Node.Akin ps ns.reverse ns'.reverse) :
    Node.Akin ps (n :: ns).reverse (n' :: ns').reverse := by
  rw [List.reverse_cons, List.reverse_cons]
  exact before.append akin

/-- A token is kept in both statements. -/
theorem Recast.keep (related : Recast ps r r') (same : Token.Same ps t t')
    {brackets brackets' : List Position} (count : brackets'.length = brackets.length) :
    Recast ps { r with brackets := brackets, statement := t :: r.statement }
      { r' with brackets := brackets', statement := t' :: r'.statement } := by
  refine ⟨count, ?_, related.done, related.blocks⟩
  rw [List.reverse_cons, List.reverse_cons]
  exact related.statement.append (.keep same .nil)

/-- An opening bracket is kept in both statements, with the contents behind it. -/
theorem Recast.fill {o o' : Token} {ss ss' : List Token} (related : Recast ps r r')
    (same : Token.Same ps o o') (opening : o.isDelimiter '(' = true) (text : '(' ∈ o.text.toList)
    (contents : Token.Contents ss ss') :
    Recast ps
      { r with brackets := o.position :: r.brackets, statement := ss.reverse ++ o :: r.statement }
      { r' with
        brackets := o'.position :: r'.brackets
        statement := ss'.reverse ++ o' :: r'.statement } := by
  refine ⟨by simp [related.brackets], ?_, related.done, related.blocks⟩
  simpa using related.statement.append (.fill same opening text contents .nil)

/-- Ending a statement keeps two readers related. -/
theorem Recast.endStatement (related : Recast ps r r') (h : r.endStatement = .ok r₁) :
    ∃ r₁', r'.endStatement = .ok r₁' ∧ Recast ps r₁ r₁' := by
  rcases endStatement_eq_ok.mp h with ⟨trimmed, rfl⟩ | ⟨first, rest, node, trimmed, read, rfl⟩
  · have trimmed' := related.statement.trim.eq_nil_iff.mpr trimmed
    exact ⟨_, endStatement_eq_ok.mpr (.inl ⟨trimmed', rfl⟩),
      related.brackets, .nil, related.done, related.blocks⟩
  · obtain ⟨first', rest', trimmed', tokens⟩ := related.statement.of_trim_eq_cons trimmed
    obtain ⟨node', read', akin⟩ :=
      Statement.withoutBlock_recast (Token.isTrivia_of_trim_eq_cons trimmed) tokens read
    exact ⟨_, endStatement_eq_ok.mpr (.inr ⟨first', rest', node', trimmed', read', rfl⟩),
      related.brackets, .nil, akin_reverse_cons akin related.done, related.blocks⟩

theorem Recast.openBlock {p p' : Position} (related : Recast ps r r') (brace : p' = p.moved ps)
    (h : r.openBlock p = .ok r₁) : ∃ r₁', r'.openBlock p' = .ok r₁' ∧ Recast ps r₁ r₁' := by
  obtain ⟨first, rest, trimmed, shallow, rfl⟩ := openBlock_eq_ok.mp h
  obtain ⟨first', rest', trimmed', tokens⟩ := related.statement.of_trim_eq_cons trimmed
  rw [related.blocks.length_eq] at shallow
  refine ⟨_, openBlock_eq_ok.mpr ⟨first', rest', trimmed', shallow, rfl⟩, rfl, .nil, .nil, ?_⟩
  exact .cons ⟨brace, tokens, related.done⟩ related.blocks

/-- Closing a block keeps two readers related. -/
theorem Recast.closeBlock {p p' : Position} (related : Recast ps r r')
    (h : r.closeBlock p = .ok r₁) : ∃ r₁', r'.closeBlock p' = .ok r₁' ∧ Recast ps r₁ r₁' := by
  obtain ⟨b, blocks, node, inside, read, rfl⟩ := closeBlock_eq_ok.mp h
  have around := related.blocks
  rw [inside] at around
  generalize inside' : r'.blocks = all' at around
  cases around with
  | cons block outer =>
    have body := Node.akin_branch .block block.brace related.done
    obtain ⟨node', read', akin⟩ := Statement.withBlock_recast block.head body read
    exact ⟨_, closeBlock_eq_ok.mpr ⟨_, _, node', inside', read', rfl⟩, rfl, .nil,
      akin_reverse_cons akin block.before, outer⟩

/-- One token. -/
theorem Recast.step (related : Recast ps r r') (same : Token.Same ps t t')
    (h : r.step t = .ok r₁) : ∃ r₁', r'.step t' = .ok r₁' ∧ Recast ps r₁ r₁' := by
  have role : t'.role = t.role := by rw [Token.role, same.kind, Token.role]
  have stepped := step_of_role r t
  have stepped' := step_of_role r' t'
  rw [role] at stepped'
  have kept {bs bs' : List Position} (count : bs'.length = bs.length)
      (eq : r.step t = .ok { r with brackets := bs, statement := t :: r.statement })
      (eq' : r'.step t' = .ok { r' with brackets := bs', statement := t' :: r'.statement }) :
      ∃ r₁', r'.step t' = .ok r₁' ∧ Recast ps r₁ r₁' := by
    rw [eq] at h
    cases h
    exact ⟨_, eq', related.keep same count⟩
  cases brackets : r.brackets with
  | nil =>
    have brackets' : r'.brackets = [] := by
      rw [← List.length_eq_zero_iff, related.brackets, brackets]
      rfl
    cases part : t.role <;> simp only [part, brackets, brackets'] at stepped stepped'
    case opening => exact kept (by simp) stepped stepped'
    case plain => exact kept rfl stepped stepped'
    case closing =>
      obtain ⟨e, failed⟩ := stepped
      rw [failed] at h
      cases h
    case semicolon =>
      rw [stepped] at h
      rw [stepped']
      exact related.endStatement h
    case openBrace =>
      rw [stepped] at h
      rw [stepped']
      exact related.openBlock same.position h
    case closeBrace =>
      rw [stepped, bind_eq_ok] at h
      obtain ⟨r₂, ended, closed⟩ := h
      obtain ⟨r₂', ended', between⟩ := related.endStatement ended
      obtain ⟨r₁', closed', after⟩ := between.closeBlock closed
      exact ⟨r₁', stepped'.trans (bind_eq_ok.mpr ⟨r₂', ended', closed'⟩), after⟩
  | cons b bs =>
    obtain ⟨b', bs', brackets', count⟩ : ∃ b' bs', r'.brackets = b' :: bs' ∧
        bs'.length = bs.length := by
      have count := related.brackets
      rw [brackets] at count
      cases brackets' : r'.brackets with
      | nil => simp [brackets'] at count
      | cons b' bs' => exact ⟨b', bs', rfl, by simpa [brackets'] using count⟩
    have count' : (b' :: bs').length = (b :: bs).length := by simp [count]
    cases part : t.role <;> simp only [part, brackets, brackets'] at stepped stepped'
    case opening => exact kept (by simp [count]) stepped stepped'
    case closing => exact kept count stepped stepped'
    all_goals exact kept count' stepped stepped'

/-- The contents of a url are kept in the statement. -/
theorem read_contents (plain : ∀ s ∈ ss, s.kind = .string ∨ s.kind = .whitespace) :
    r.read (ss ++ ts) = Reader.read { r with statement := ss.reverse ++ r.statement } ts := by
  induction ss generalizing r with
  | nil => rfl
  | cons s ss ih =>
    obtain ⟨here, plain⟩ := List.forall_mem_cons.mp plain
    have role : s.role = .plain := by
      rcases here with kind | kind <;> simp [Token.role, kind]
    have stepped := step_of_role r s
    simp only [role] at stepped
    rw [List.cons_append, read_cons, stepped]
    show Reader.read _ (ss ++ ts) = _
    rw [ih plain]
    simp

/-- A run over related tokens leaves the readers related. -/
theorem Recast.read (tokens : Token.Recast ps ts ts') (related : Recast ps r r')
    (h : r.read ts = .ok r₁) : ∃ r₁', r'.read ts' = .ok r₁' ∧ Recast ps r₁ r₁' := by
  induction tokens generalizing r r' with
  | nil =>
    cases h
    exact ⟨r', rfl, related⟩
  | keep same _ ih =>
    rw [read_cons, bind_eq_ok] at h
    obtain ⟨r₂, first, rest⟩ := h
    obtain ⟨r₂', first', between⟩ := related.step same first
    obtain ⟨r₁', rest', after⟩ := ih between rest
    refine ⟨r₁', ?_, after⟩
    rw [read_cons, first']
    exact rest'
  | @fill o o' ss ss' ts ts' same opening text contents _ ih =>
    have opened {r : Reader} {o : Token} (opening : o.isDelimiter '(' = true) {ss ts : List Token}
        (plain : ∀ s ∈ ss, s.kind = .string ∨ s.kind = .whitespace) :
        r.read (o :: (ss ++ ts)) = Reader.read { r with
          brackets := o.position :: r.brackets
          statement := ss.reverse ++ o :: r.statement } ts := by
      have stepped := step_of_role r o
      simp only [(Token.role_eq_iff o).1.mpr (.inl opening)] at stepped
      rw [read_cons, stepped]
      exact read_contents plain
    rw [opened opening contents.kinds.1] at h
    rw [opened (same.isDelimiter_eq _ ▸ opening) contents.kinds.2]
    exact ih (related.fill same opening text contents) h

/-- Related readers finish with related trees. -/
theorem Recast.finish {root : Node} (related : Recast ps r r')
    (start : Position.start.moved ps = .start) (h : r.finish = .ok root) :
    ∃ root', r'.finish = .ok root' ∧ Node.Akin ps [root] [root'] := by
  obtain ⟨outside, last, ended, closed, rfl⟩ := finish_eq_ok.mp h
  obtain ⟨last', ended', after⟩ := related.endStatement ended
  have outside' : r'.brackets = [] := by
    rw [← List.length_eq_zero_iff, related.brackets, outside]
    rfl
  have closed' : last'.blocks = [] := by
    rw [← List.length_eq_zero_iff, ← after.blocks.length_eq, closed]
    rfl
  exact ⟨_, finish_eq_ok.mpr ⟨outside', last', ended', closed', rfl⟩,
    Node.akin_branch .stylesheet start.symm after.done⟩

end Reader

/-- A style sheet with related tokens is read to a related tree. -/
theorem Stylesheet.ofTokens_recast {ps : List Position} {ts ts' : List Token} {root : Node}
    (tokens : Token.Recast ps ts ts') (start : Position.start.moved ps = .start)
    (h : ofTokens ts = .ok root) :
    ∃ root', ofTokens ts' = .ok root' ∧ Node.Akin ps [root] [root'] := by
  obtain ⟨r, read, finished⟩ := bind_eq_ok.mp h
  obtain ⟨r', read', related⟩ := Reader.recast_initial.read tokens read
  obtain ⟨root', finished', akin⟩ := related.finish start finished
  exact ⟨root', bind_eq_ok.mpr ⟨r', read', finished'⟩, akin⟩

end SheetLint
