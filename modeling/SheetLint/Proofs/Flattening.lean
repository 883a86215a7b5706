import SheetLint.Proofs.Segments
import SheetLint.Proofs.Statements
import SheetLint.Proofs.TokenForm

/-!
# Trees hold all tokens

A tree can be flattened to the text it was read from. Blanks apart, the flattened tree of a style
sheet is the text of its tokens, without comments and without the semicolons that end statements:
reading loses no token, repeats none and keeps their order.
-/

namespace SheetLint

namespace Node

/-- What a node contributes, given what its children contribute. -/
def spell (kind : NodeKind) (content : List Char) (childless : Bool) (inner : List Char) :
    List Char :=
  match kind with
  | .color => '#' :: content
  | .function => content ++ inner
  | .arguments | .parentheses => '(' :: (inner ++ [')'])
  | .block => '\x7b' :: (inner ++ ['\x7d'])
  | .atRule => '@' :: (content ++ inner)
  | _ => if childless then content else inner

mutual

/-- The text of a tree from left to right, with braces and the signs of colours and at-rules. -/
def flatten : Node → List Char
  | ⟨kind, content, _, children⟩ =>
    spell kind content.toList children.isEmpty (flattenAll children)

/-- The texts of some trees, one behind the other. -/
def flattenAll : List Node → List Char
  | [] => []
  | n :: ns => n.flatten ++ flattenAll ns

end

theorem flattenAll_append (ns ms : List Node) :
    flattenAll (ns ++ ms) = flattenAll ns ++ flattenAll ms := by
  induction ns with
  | nil => rfl
  | cons n ns ih => rw [List.cons_append, flattenAll, flattenAll, ih, List.append_assoc]

theorem flattenAll_singleton (n : Node) : flattenAll [n] = n.flatten := by
  rw [flattenAll, flattenAll, List.append_nil]

end Node

/-- A text without its blanks. -/
def squeeze (cs : List Char) : List Char :=
  cs.filter (!Lexeme.isSpace ·)

@[simp]
theorem squeeze_append (cs ds : List Char) : squeeze (cs ++ ds) = squeeze cs ++ squeeze ds := by
  simp [squeeze]

namespace Token

/-- The text of some tokens without the comments among them. -/
def spoken (ts : List Token) : List Char :=
  (ts.filter (!·.isComment)).flatMap (·.text.toList)

/-- The tokens of a style sheet that its tree must account for: all but comments and the semicolons
    outside of all brackets. -/
def significant (ts : List Token) : List Token :=
  ((place ts).filter fun p =>
    !p.token.isComment && !(p.token.isDelimiter ';' && p.isOuter)).map (·.token)

variable {t : Token} {ts us : List Token}

@[simp]
theorem spoken_nil : spoken [] = [] := rfl

@[simp]
theorem spoken_append (ts us : List Token) : spoken (ts ++ us) = spoken ts ++ spoken us := by
  simp [spoken]

theorem spoken_cons (t : Token) (ts : List Token) : spoken (t :: ts) = spoken [t] ++ spoken ts :=
  spoken_append [t] ts

theorem spoken_singleton (ht : t.isComment = false) : spoken [t] = t.text.toList := by
  simp [spoken, ht]

theorem toList_sourceText (ts : List Token) : (sourceText ts).toList = spoken ts := by
  rw [sourceText, String.toList_join, List.flatMap_map, spoken]

/-- A delimiter is spoken as the character that it is. -/
theorem spoken_delimiter {c : Char} (form : t.WellFormed) (ht : t.isDelimiter c = true) :
    spoken [t] = [c] := by
  have kind : t.kind = .delimiter c := by simpa [isDelimiter] using ht
  rw [spoken_singleton (by simp [isComment, kind])]
  simpa [WellFormed, kind] using form

/-- Trivia are blank once comments are left out. -/
theorem squeeze_spoken_trivia (forms : ∀ t ∈ ts, t.WellFormed)
    (trivia : ∀ t ∈ ts, t.isTrivia = true) : squeeze (spoken ts) = [] := by
  induction ts with
  | nil => rfl
  | cons t ts ih =>
    obtain ⟨form, forms⟩ := List.forall_mem_cons.mp forms
    obtain ⟨isTrivia, trivia⟩ := List.forall_mem_cons.mp trivia
    rw [spoken_cons, squeeze_append, ih forms trivia, List.append_nil]
    simp only [Token.isTrivia, Bool.or_eq_true, beq_iff_eq] at isTrivia
    rcases isTrivia with kind | kind
    · rw [spoken_singleton (by simp [isComment, kind])]
      simp only [WellFormed, kind] at form
      simpa [squeeze] using form.2
    · simp [spoken, isComment, kind, squeeze]

/-- The trivia at the ends of a stretch have no text but blanks. -/
theorem squeeze_spoken_trim (forms : ∀ t ∈ ts, t.WellFormed) :
    squeeze (spoken (trim ts)) = squeeze (spoken ts) := by
  obtain ⟨lead, trail, split, hlead, htrail⟩ := exists_trim ts
  rw [split] at forms
  obtain ⟨formsLead, formsRest⟩ := List.forall_mem_append.mp forms
  obtain ⟨-, formsTrail⟩ := List.forall_mem_append.mp formsRest
  conv_rhs => rw [split]
  rw [spoken_append, spoken_append, squeeze_append, squeeze_append,
    squeeze_spoken_trivia formsLead hlead, squeeze_spoken_trivia formsTrail htrail,
    List.nil_append, List.append_nil]

/-- One more token adds its text, unless it is a comment or ends a statement. -/
theorem flatMap_significant_concat (us : List Token) (t : Token) :
    (significant (us ++ [t])).flatMap (·.text.toList) =
      (significant us).flatMap (·.text.toList) ++
        if t.isDelimiter ';' && Bracket.any.depth us == 0 then [] else spoken [t] := by
  rw [significant, place_append_cons, placeFrom_nil, List.filter_append, List.map_append,
    significant, List.flatMap_append]
  cases ht : t.isComment <;> cases hs : t.isDelimiter ';' <;>
    cases hd : Bracket.any.depth us == 0 <;> simp [ht, hs, hd, Placed.isOuter, spoken]

end Token

/-- The leaf of a token is flattened to its text. -/
theorem flattenAll_leaf? {t : Token} (form : t.WellFormed) (inSelector : Bool) :
    Node.flattenAll (t.leaf? inSelector).toList = Token.spoken [t] := by
  unfold Token.leaf?
  unfold Token.WellFormed at form
  cases kind : t.kind <;> simp only [kind] at form ⊢
  case comment => simp [Token.spoken, Token.isComment, kind, Node.flattenAll]
  case hash =>
    obtain ⟨digits, text⟩ := form
    rw [Token.spoken_singleton (by simp [Token.isComment, kind])]
    split
    · simp [Node.flattenAll, Node.leaf, Node.flatten, Node.spell, text]
    · simp [Node.flattenAll, Node.leaf, Node.flatten, Node.spell]
  case number =>
    rw [Token.spoken_singleton (by simp [Token.isComment, kind])]
    split <;> simp [Node.flattenAll, Node.leaf, Node.flatten, Node.spell]
  all_goals
    rw [Token.spoken_singleton (by simp [Token.isComment, kind])]
    simp [Node.flattenAll, Node.leaf, Node.flatten, Node.spell]

/-- A pair of brackets is spoken around what stands between them. -/
theorem spoken_pair {o c : Token} {us ts : List Token} (opening : o.isDelimiter '(' = true)
    (closing : c.isDelimiter ')' = true)
    (forms : ∀ t ∈ o :: (us ++ c :: ts), t.WellFormed) :
    Token.spoken (o :: (us ++ c :: ts)) =
      '(' :: (Token.spoken us ++ [')']) ++ Token.spoken ts := by
  obtain ⟨formOpening, forms⟩ := List.forall_mem_cons.mp forms
  have formClosing := forms c (by simp)
  rw [Token.spoken_cons, Token.spoken_append, Token.spoken_cons c,
    Token.spoken_delimiter formOpening opening, Token.spoken_delimiter formClosing closing]
  simp

/-- Groups are flattened to the text of the tokens they cover. -/
theorem flattenAll_nodesOf {inSelector : Bool} {d : Nat} {gs : List Group} {ts : List Token}
    {ns : List Node} (covers : Group.Covers gs ts) (forms : ∀ t ∈ ts, t.WellFormed)
    (h : Group.nodesOf inSelector d gs = .ok ns) : Node.flattenAll ns = Token.spoken ts := by
  induction covers generalizing d ns with
  | nil =>
    cases h
    rfl
  | single _ _ _ ih =>
    obtain ⟨form, forms⟩ := List.forall_mem_cons.mp forms
    obtain ⟨rest, behind, rfl⟩ := Group.nodesOf_single.mp h
    rw [Node.flattenAll_append, flattenAll_leaf? form, ih forms behind, ← Token.spoken_cons]
  | parens opening closing _ _ ihWithin ih =>
    obtain ⟨-, children, rest, inside, behind, rfl⟩ := Group.nodesOf_parens.mp h
    rw [spoken_pair opening closing forms, Node.flattenAll,
      ih (fun t ht => forms t (by simp [ht])) behind]
    simp [Node.branch, Node.flatten, Node.spell,
      ihWithin (fun t ht => forms t (by simp [ht])) inside]
  | call word opening closing _ _ ihWithin ih =>
    obtain ⟨-, children, rest, inside, behind, rfl⟩ := Group.nodesOf_call.mp h
    rw [Token.spoken_cons, spoken_pair opening closing (List.forall_mem_cons.mp forms).2,
      Token.spoken_singleton (by simp [Token.isComment, word]), Node.flattenAll,
      ih (fun t ht => forms t (by simp [ht])) behind]
    simp [Node.branch, Node.flatten, Node.flattenAll, Node.spell,
      ihWithin (fun t ht => forms t (by simp [ht])) inside]

theorem flattenAll_values {inSelector : Bool} {ts : List Token} {ns : List Node}
    (forms : ∀ t ∈ ts, t.WellFormed) (h : values inSelector ts = .ok ns) :
    Node.flattenAll ns = Token.spoken ts := by
  obtain ⟨gs, covers, nodes⟩ := covers_of_values h
  exact flattenAll_nodesOf covers forms nodes

namespace Statement

variable {first : Token} {rest : List Token} {node : Node}

/-- The leaf of blanks is blank. -/
theorem squeeze_space? {trivia : List Token} (forms : ∀ t ∈ trivia, t.WellFormed) :
    squeeze (Node.flattenAll (space? trivia).toList) = [] := by
  have blank : squeeze ((trivia.filter (·.kind == .whitespace)).flatMap (·.text.toList)) = [] := by
    simp only [squeeze, List.filter_eq_nil_iff, List.mem_flatMap, List.mem_filter]
    rintro c ⟨t, ⟨ht, isBlank⟩, hc⟩
    have form := forms t ht
    rw [beq_iff_eq] at isBlank
    simp only [Token.WellFormed, isBlank] at form
    simp [form.2 c hc]
  unfold space?
  split
  · rfl
  · rename_i first rest found
    rw [found] at blank
    simpa [Node.flattenAll, Node.leaf, Node.flatten, Node.spell, String.toList_join,
      List.flatMap_map] using blank

/-- A node for a value adds nothing to what it holds. -/
theorem flatten_value (p : Position) (nodes : List Node) :
    (Node.branch .value p nodes).flatten = Node.flattenAll nodes := by
  cases nodes <;> simp [Node.branch, Node.flatten, Node.spell, Node.flattenAll]

/-- A selector or a call is flattened to its tokens, whether or not it has children. -/
theorem flatten_head {kind : NodeKind} {ts : List Token} {nodes : List Node} (p : Position)
    (isHead : kind = .selector ∨ kind = .mixinCall)
    (flat : Node.flattenAll nodes = Token.spoken ts) :
    (Node.mk kind (Token.sourceText ts) p nodes).flatten = Token.spoken ts := by
  rw [Node.flatten, Token.toList_sourceText, flat]
  rcases isHead with rfl | rfl <;> simp [Node.spell]

/-- A declaration is flattened part by part. The blanks around the colon are leaves of their own. -/
theorem flatten_declarationNode {before after more : List Token} {first : Token}
    {nodes : List Node} (colon : Token) (formsAfter : ∀ t ∈ after, t.WellFormed)
    (property : Token.trim before = first :: more)
    (value : values false (Token.trim after) = .ok nodes) :
    (declarationNode before after colon first more nodes).flatten =
      Token.spoken (Token.trim before)
        ++ Node.flattenAll (space? (before.drop (first :: more).length)).toList
        ++ [':']
        ++ Node.flattenAll (space? (after.takeWhile Token.isTrivia)).toList
        ++ Token.spoken (Token.trim after) := by
  have inner : (declarationNode before after colon first more nodes).flatten =
      Node.flattenAll (declarationNode before after colon first more nodes).children := by
    simp [declarationNode, Node.branch, Node.flatten, Node.spell]
  rw [inner, declarationNode, Node.children_branch, Node.flattenAll_append,
    Node.flattenAll_append, Node.flattenAll_append, Node.flattenAll_append, ← property]
  simp only [Node.flattenAll_singleton, flatten_value,
    flattenAll_values (Token.forall_mem_trim formsAfter) value]
  simp [Node.leaf, Node.flatten, Node.spell, Token.toList_sourceText]

/-- A declaration flattens to the text of its tokens up to blanks. -/
theorem squeeze_declaration {before after : List Token} {colon : Token}
    (forms : ∀ t ∈ before ++ colon :: after, t.WellFormed) (isColon : colon.isDelimiter ':' = true)
    (h : declaration before colon after = .ok node) :
    squeeze node.flatten = squeeze (Token.spoken (before ++ colon :: after)) := by
  obtain ⟨formsBefore, formsRest⟩ := List.forall_mem_append.mp forms
  obtain ⟨formColon, formsAfter⟩ := List.forall_mem_cons.mp formsRest
  obtain ⟨first, more, nodes, property, value, rfl⟩ := declaration_eq_ok.mp h
  -- nothing is left of the trivia around the colon without blanks
  have flat := flatten_declarationNode colon formsAfter property value
  rw [flat, Token.spoken_append, Token.spoken_cons, Token.spoken_delimiter formColon isColon]
  simp only [squeeze_append, Token.squeeze_spoken_trim formsBefore,
    Token.squeeze_spoken_trim formsAfter]
  rw [squeeze_space? fun t ht => formsBefore t (List.mem_of_mem_drop ht),
    squeeze_space? fun t ht => formsAfter t ((List.takeWhile_sublist _).subset ht)]
  simp

/-- An at-rule flattens to the text of its tokens and of its block up to blanks. -/
theorem squeeze_atRule {name : Token} {block : Option Node} (isAt : name.kind = .atWord)
    (forms : ∀ t ∈ name :: rest, t.WellFormed) (h : atRule name rest block = .ok node) :
    squeeze node.flatten =
      squeeze (Token.spoken (name :: rest)) ++ squeeze (Node.flattenAll block.toList) := by
  obtain ⟨formName, formsRest⟩ := List.forall_mem_cons.mp forms
  obtain ⟨value, rfl, made⟩ := atRule_eq_ok.mp h
  have flatValue : Node.flattenAll value = Token.spoken (Token.trim rest) := by
    rcases made with ⟨nothing, rfl⟩ | ⟨first, more, nodes, trimmed, read, rfl⟩
    · rw [nothing]
      rfl
    · rw [trimmed, Node.flattenAll_singleton, flatten_value]
      exact flattenAll_values (trimmed ▸ Token.forall_mem_trim formsRest) read
  simp only [Token.WellFormed, isAt] at formName
  obtain ⟨letters, text⟩ := formName
  have name : Token.spoken [name] = '@' :: letters := by
    rw [Token.spoken_singleton (by simp [Token.isComment, isAt]), text]
  rw [Token.spoken_cons, name, squeeze_append _ (Token.spoken rest),
    ← Token.squeeze_spoken_trim formsRest, ← flatValue, ← squeeze_append, ← squeeze_append]
  simp [Node.flatten, Node.spell, text, Node.flattenAll_append]

theorem squeeze_withBlock {block : Node} (forms : ∀ t ∈ first :: rest, t.WellFormed)
    (h : withBlock first rest block = .ok node) :
    squeeze node.flatten = squeeze (Token.spoken (first :: rest)) ++ squeeze block.flatten := by
  rcases withBlock_eq_ok.mp h with ⟨isAt, read⟩ | ⟨-, nodes, read, rfl⟩
  · rw [squeeze_atRule isAt forms read, Option.toList_some, Node.flattenAll_singleton]
  · have flat := flatten_head first.position (.inl rfl) (flattenAll_values forms read)
    rw [← squeeze_append, ← flat]
    simp [Node.branch, Node.flatten, Node.spell, Node.flattenAll]

/-- A statement without a block flattens to the text of its tokens up to blanks. -/
theorem squeeze_withoutBlock (forms : ∀ t ∈ first :: rest, t.WellFormed)
    (h : withoutBlock first rest = .ok node) :
    squeeze node.flatten = squeeze (Token.spoken (first :: rest)) := by
  cases withoutBlock_eq_ok.mp h with
  | declaration cut read =>
    obtain ⟨split, isColon⟩ := splitColon?_eq_some cut
    rw [split] at forms ⊢
    exact squeeze_declaration forms isColon read
  | atRule _ isAt read =>
    rw [squeeze_atRule isAt forms read]
    simp [Node.flattenAll, squeeze]
  | call _ _ read => rw [flatten_head first.position (.inr rfl) (flattenAll_values forms read)]

end Statement

namespace Reader

variable {r r' : Reader} {t : Token} {us ts : List Token}

/-- The flattened text of the blocks that are open: what stands before each, its head and its
    brace. -/
def flattenBlocks : List OpenBlock → List Char
  | [] => []
  | b :: outer =>
    flattenBlocks outer ++ Node.flattenAll b.before.reverse ++ Token.spoken (b.first :: b.rest)
      ++ ['\x7b']

/-- The flattened text of all that a reader holds. -/
def flatten (r : Reader) : List Char :=
  flattenBlocks r.blocks ++ Node.flattenAll r.done.reverse ++ Token.spoken r.statement.reverse

/-- The reader holds the tokens that it has read. -/
structure Holds (us : List Token) (r : Reader) : Prop where
  count : (r.brackets.length : Int) = Bracket.any.depth us
  keeps : r.Keeps Token.WellFormed
  text : squeeze r.flatten = squeeze ((Token.significant us).flatMap (·.text.toList))

/-- Ending a statement changes nothing in the text that the reader holds. -/
theorem squeeze_endStatement (keeps : r.Keeps Token.WellFormed) (h : r.endStatement = .ok r') :
    squeeze r'.flatten = squeeze r.flatten := by
  have forms : ∀ t ∈ r.statement.reverse, t.WellFormed := by simpa using keeps.statement
  rcases endStatement_eq_ok.mp h with ⟨nothing, rfl⟩ | ⟨first, rest, node, trimmed, read, rfl⟩
  · have blank := Token.squeeze_spoken_trim forms
    rw [nothing] at blank
    simp only [flatten, squeeze_append, ← blank, List.reverse_nil]
  · have text := Statement.squeeze_withoutBlock (keeps.trimmed trimmed) read
    rw [← trimmed, Token.squeeze_spoken_trim forms] at text
    simp only [flatten, List.reverse_cons, Node.flattenAll_append, Node.flattenAll_singleton,
      squeeze_append, text, List.reverse_nil, Token.spoken_nil]
    simp [squeeze]

theorem squeeze_openBlock {p : Position} (keeps : r.Keeps Token.WellFormed)
    (h : r.openBlock p = .ok r') : squeeze r'.flatten = squeeze r.flatten ++ ['\x7b'] := by
  obtain ⟨first, rest, trimmed, -, rfl⟩ := openBlock_eq_ok.mp h
  have forms : ∀ t ∈ r.statement.reverse, t.WellFormed := by simpa using keeps.statement
  have brace : squeeze ['\x7b'] = ['\x7b'] := rfl
  simp only [flatten, flattenBlocks, squeeze_append, ← trimmed, Token.squeeze_spoken_trim forms,
    brace]
  simp [Node.flattenAll, squeeze]

/-- Closing a block adds its brace to the text that the reader holds. -/
theorem squeeze_closeBlock {p : Position} (keeps : r.Keeps Token.WellFormed)
    (ended : r.statement = []) (h : r.closeBlock p = .ok r') :
    squeeze r'.flatten = squeeze r.flatten ++ ['\x7d'] := by
  obtain ⟨b, outer, node, inside, read, rfl⟩ := closeBlock_eq_ok.mp h
  have formsHead := keeps.heads b (by simp [inside])
  have brace : squeeze ['\x7d'] = ['\x7d'] := rfl
  have block : (Node.branch .block b.brace r.done.reverse).flatten =
      ['\x7b'] ++ Node.flattenAll r.done.reverse ++ ['\x7d'] := by
    simp [Node.branch, Node.flatten, Node.spell]
  simp only [flatten, inside, flattenBlocks, List.reverse_cons, Node.flattenAll_append,
    Node.flattenAll_singleton, squeeze_append, Statement.squeeze_withBlock formsHead read, block,
    ended, brace]
  simp [squeeze]

/-- Each step adds the text of its token to what the reader holds. -/
theorem Holds.step (holds : Holds us r) (form : t.WellFormed) (h : Step r t r') :
    Holds (us ++ [t]) r' := by
  have count : (r'.brackets.length : Int) = Bracket.any.depth (us ++ [t]) := by
    rw [Bracket.depth_append, ← holds.count, h.count]
  refine ⟨count, holds.keeps.step form h, ?_⟩
  rw [Token.flatMap_significant_concat, squeeze_append, ← holds.text, ← holds.count]
  cases h with
  | keep brackets _ inside =>
    have kept : (t.isDelimiter ';' && (r.brackets.length : Int) == 0) = false := by
      cases isEnd : t.isDelimiter ';' with
      | false => rfl
      | true => simpa using inside (by simp [Token.cuts, isEnd])
    rw [kept]
    simp [flatten]
  | semicolon outside ht ended =>
    rw [squeeze_endStatement holds.keeps ended]
    simp [Token.isDelimiter_semicolon_eq, ht, outside, squeeze]
  | openBlock _ ht opened =>
    have brace := Token.spoken_delimiter (c := '\x7b') form
      (by simp [Token.isDelimiter_openBrace_eq, ht])
    rw [squeeze_openBlock holds.keeps opened, brace]
    simp [Token.isDelimiter_semicolon_eq, ht, squeeze, Lexeme.isSpace]
  | closeBlock _ ht ended closed =>
    have brace := Token.spoken_delimiter (c := '\x7d') form
      (by simp [Token.isDelimiter_closeBrace_eq, ht])
    rw [squeeze_closeBlock (holds.keeps.ended ended) (endStatement_frame ended).1 closed,
      squeeze_endStatement holds.keeps ended, brace]
    simp [Token.isDelimiter_semicolon_eq, ht, squeeze, Lexeme.isSpace]

theorem holds_initial : Holds [] initial :=
  ⟨rfl, keeps_initial, rfl⟩

theorem Holds.finish {root : Node} (holds : Holds ts r) (h : r.finish = .ok root) :
    squeeze root.flatten = squeeze ((Token.significant ts).flatMap (·.text.toList)) := by
  obtain ⟨-, last, ended, closed, rfl⟩ := finish_eq_ok.mp h
  have sheet : (Node.branch .stylesheet .start last.done.reverse).flatten = last.flatten := by
    rw [flatten, closed, (endStatement_frame ended).1]
    cases last.done.reverse <;>
      simp [Node.branch, Node.flatten, Node.spell, Node.flattenAll, flattenBlocks]
  rw [sheet, squeeze_endStatement holds.keeps ended, holds.text]

end Reader

/-- Blanks apart, the flattened tree of a style sheet is the text of its significant tokens. -/
theorem Stylesheet.squeeze_flatten_ofTokens {ts : List Token} {root : Node}
    (forms : ∀ t ∈ ts, t.WellFormed) (h : Stylesheet.ofTokens ts = .ok root) :
    squeeze root.flatten = squeeze ((Token.significant ts).flatMap (·.text.toList)) := by
  obtain ⟨r, read, finished⟩ := bind_eq_ok.mp h
  have holds : Reader.Holds ts r := by
    refine Reader.read_invariant Reader.holds_initial ?_ read
    intro us t r₁ r₂ ht before step
    exact before.step (forms t ht) step
  exact holds.finish finished

/-- Reading a style sheet loses no token, repeats none and keeps their order. -/
theorem Stylesheet.squeeze_flatten_parse {source : String} {root : Node}
    (h : Stylesheet.parse source = .ok root) :
    ∃ ts, Token.tokenize (Stylesheet.withoutMark source) = .ok ts ∧
      squeeze root.flatten = squeeze ((Token.significant ts).flatMap (·.text.toList)) := by
  obtain ⟨ts, tokens, read⟩ := bind_eq_ok.mp h
  exact ⟨ts, tokens, squeeze_flatten_ofTokens (Token.wellFormed_of_tokenize tokens) read⟩

/-- Of three semicolons here, the one inside of brackets is a part of the value. -/
theorem Stylesheet.squeeze_flatten_nested : ∃ root ts,
    Stylesheet.parse "@m x \x7b a/*;*/ \x7b b : f(1,[2;3]) #fff; \x7d \x7d" = .ok root ∧
    Token.tokenize (Stylesheet.withoutMark "@m x \x7b a/*;*/ \x7b b : f(1,[2;3]) #fff; \x7d \x7d") =
      .ok ts ∧
    squeeze ((Token.significant ts).flatMap (·.text.toList)) =
      "@mx\x7ba\x7bb:f(1,[2;3])#fff\x7d\x7d".toList := by
  have text : (Stylesheet.parse
      "@m x \x7b a/*;*/ \x7b b : f(1,[2;3]) #fff; \x7d \x7d").toOption.map (squeeze ·.flatten) =
      some "@mx\x7ba\x7bb:f(1,[2;3])#fff\x7d\x7d".toList := by decide +kernel
  cases parsed : Stylesheet.parse "@m x \x7b a/*;*/ \x7b b : f(1,[2;3]) #fff; \x7d \x7d" with
  | error e =>
    rw [parsed] at text
    cases text
  | ok root =>
    rw [parsed] at text
    obtain ⟨ts, tokens, same⟩ := Stylesheet.squeeze_flatten_parse parsed
    exact ⟨root, ts, rfl, tokens, same ▸ Option.some.inj text⟩

end SheetLint
