import SheetLint.Proofs.Acceptance
import SheetLint.Proofs.Flattening
import SheetLint.Proofs.Shape

/-!
# Two ways to the text of a statement

The text of a statement can be taken from its tokens, from the first to the last that is no trivia,
or it can be put together again from the tree. Both agree: a node that stands for a segment of the
style sheet, which is a selector, a call or a declaration, has the segment's text
(`Stylesheet.recovers_parse`). Which segment it is follows from a run of the reader that is cut
where the tokens are cut (`Stylesheet.forall_statement_of_segment`).
-/

namespace SheetLint

namespace NodeKind

/-- The kinds of nodes that stand for a whole segment. -/
def isHead : NodeKind → Bool
  | selector | mixinCall | declaration => true
  | _ => false

/-- What may stand inside of a head, and holds no statement. -/
def isInline : NodeKind → Bool
  | stylesheet | ruleset | selector | block | atRule | declaration | mixinCall => false
  | _ => true

theorem isInline_of_isPiece {kind : NodeKind} (h : kind.isPiece = true) : kind.isInline = true := by
  revert h
  cases kind <;> decide

theorem isHead_of_isInline {kind : NodeKind} (h : kind.isInline = true) : kind.isHead = false := by
  revert h
  cases kind <;> decide

end NodeKind

namespace Node

variable {n : Node}

/-- The parts of a head or of something inline are inline. -/
theorem isInline_of_mem_children {c : Node} (shaped : n.Shaped)
    (kind : n.kind.isHead = true ∨ n.kind.isInline = true) (member : c ∈ n.children) :
    c.kind.isInline = true := by
  have listed : c.kind ∈ n.kinds := List.mem_map_of_mem member
  have piece (pieces : ∀ k ∈ n.kinds, k.isPiece = true) : c.kind.isInline = true :=
    NodeKind.isInline_of_isPiece (pieces c.kind listed)
  have leaf (childless : n.children = []) : c.kind.isInline = true := by
    rw [childless] at member
    cases member
  unfold Shaped at shaped
  cases own : n.kind <;> simp only [own] at shaped kind
  case stylesheet => simp [NodeKind.isHead, NodeKind.isInline] at kind
  case ruleset => simp [NodeKind.isHead, NodeKind.isInline] at kind
  case block => simp [NodeKind.isHead, NodeKind.isInline] at kind
  case atRule => simp [NodeKind.isHead, NodeKind.isInline] at kind
  case selector => exact piece shaped.2.1
  case mixinCall => exact piece shaped.2.1
  case declaration =>
    simp only [List.mem_cons, List.not_mem_nil, or_false] at shaped
    rcases shaped with kinds | kinds | kinds | kinds <;> rw [kinds] at listed <;>
      revert listed <;> cases c.kind <;> decide
  case function =>
    rw [shaped, List.mem_singleton] at listed
    rw [listed]
    rfl
  case value => exact piece shaped
  case arguments => exact piece shaped
  case parentheses => exact piece shaped
  all_goals exact leaf shaped.1

/-- Below an inline node all is inline. -/
theorem everywhere_isInline (shaped : n.Everywhere Shaped) (inline : n.kind.isInline = true) :
    n.Everywhere (·.kind.isInline = true) := by
  induction n using Node.induction with
  | step n ih =>
    obtain ⟨here, below⟩ := everywhere_iff.mp shaped
    refine everywhere_iff.mpr ⟨inline, ?_⟩
    intro c member
    exact ih c member (below c member) (isInline_of_mem_children here (.inr inline) member)

theorem toList_texts {ns : List Node} (h : ∀ n ∈ ns, n.text.toList = n.flatten) :
    (texts ns).toList = flattenAll ns := by
  induction ns with
  | nil => rfl
  | cons n ns ih =>
    obtain ⟨here, below⟩ := List.forall_mem_cons.mp h
    rw [texts, flattenAll, String.toList_append, here, ih below]

/-- The two ways to put a text together differ in braces and in the signs of at-rules. -/
theorem toList_assemble {kind : NodeKind} (h : kind.isHead = true ∨ kind.isInline = true)
    (content : String) (leafless : Bool) (inner : String) :
    (assemble kind content leafless inner).toList =
      spell kind content.toList leafless inner.toList := by
  cases kind <;> cases leafless <;>
    simp [assemble, spell, NodeKind.isHead, NodeKind.isInline] at h ⊢

/-- Where there are no blocks, the text of a tree is the flattened tree. -/
theorem toList_text (shaped : n.Everywhere Shaped)
    (kind : n.kind.isHead = true ∨ n.kind.isInline = true) : n.text.toList = n.flatten := by
  induction n using Node.induction with
  | step n ih =>
    obtain ⟨here, below⟩ := everywhere_iff.mp shaped
    have inner : (texts n.children).toList = flattenAll n.children := by
      apply toList_texts
      intro c member
      exact ih c member (below c member) (.inr (isInline_of_mem_children here kind member))
    cases n
    rw [text, flatten, toList_assemble kind, inner]

end Node

namespace Statement

variable {before after : List Token} {colon : Token} {node : Node}

/-- The blanks between a property, a colon and a value are kept as they are. -/
theorem flattenAll_space? {trivia : List Token} (h : ∀ t ∈ trivia, t.isTrivia = true) :
    Node.flattenAll (space? trivia).toList = Token.spoken trivia := by
  have blanks : trivia.filter (!·.isComment) = trivia.filter (·.kind == .whitespace) := by
    apply List.filter_congr
    intro t member
    have isTrivia := h t member
    simp only [Token.isTrivia, Bool.or_eq_true, beq_iff_eq] at isTrivia
    rcases isTrivia with kind | kind <;> simp [Token.isComment, kind]
  rw [Token.spoken, blanks]
  unfold space?
  split
  · rename_i none
    rw [none]
    rfl
  · rename_i first rest found
    rw [found]
    simp [Node.flattenAll, Node.leaf, Node.flatten, Node.spell, String.toList_join,
      List.flatMap_map]

/-- Tokens that do not begin with trivia are their trimmed tokens with trivia behind. -/
theorem exists_trail (starts : ∀ t ∈ before.head?, t.isTrivia = false) :
    ∃ trail, before = Token.trim before ++ trail ∧ ∀ t ∈ trail, t.isTrivia = true := by
  obtain ⟨trail, split, trivia⟩ := Token.exists_trim_takeWhile before
  have nothing : before.takeWhile Token.isTrivia = [] := by
    cases before with
    | nil => rfl
    | cons t before => exact List.takeWhile_cons_of_neg (by simp [starts t rfl])
  rw [nothing, List.nil_append] at split
  exact ⟨trail, split, trivia⟩

/-- Tokens that do not end with trivia are trivia with their trimmed tokens behind. -/
theorem takeWhile_append_trim (ends : ∀ us last, after = us ++ [last] → last.isTrivia = false) :
    after.takeWhile Token.isTrivia ++ Token.trim after = after := by
  obtain ⟨trail, split, trivia⟩ := Token.exists_trim_takeWhile after
  rcases List.eq_nil_or_concat trail with rfl | ⟨us, last, rfl⟩
  · rw [List.append_nil] at split
    exact split.symm
  · have isLast := ends (after.takeWhile Token.isTrivia ++ (Token.trim after ++ us)) last
      (by simpa using split)
    rw [trivia last (by simp)] at isLast
    cases isLast

/-- A declaration is flattened to the text of its tokens if they are trimmed, and it stands where
    they begin. -/
theorem flatten_declaration (forms : ∀ t ∈ before ++ colon :: after, t.WellFormed)
    (isColon : colon.isDelimiter ':' = true) (starts : ∀ t ∈ before.head?, t.isTrivia = false)
    (ends : ∀ us last, after = us ++ [last] → last.isTrivia = false)
    (h : declaration before colon after = .ok node) :
    node.flatten = Token.spoken (before ++ colon :: after) ∧
      before.head?.map (·.position) = some node.position := by
  obtain ⟨first, more, nodes, property, value, rfl⟩ := declaration_eq_ok.mp h
  obtain ⟨trail, split, trivia⟩ := exists_trail starts
  have formColon := forms colon (by simp)
  have formsAfter : ∀ t ∈ after, t.WellFormed := fun t member => forms t (by simp [member])
  rw [property] at split
  have behind : before.drop (first :: more).length = trail := by
    rw [split, List.drop_left]
  refine ⟨?_, ?_⟩
  · rw [flatten_declarationNode colon formsAfter property value, behind, flattenAll_space? trivia,
      flattenAll_space? fun t => List.mem_takeWhile_imp, Token.spoken_append, Token.spoken_cons,
      Token.spoken_delimiter formColon isColon]
    have whole : Token.spoken after =
        Token.spoken (after.takeWhile Token.isTrivia) ++ Token.spoken (Token.trim after) := by
      rw [← Token.spoken_append, takeWhile_append_trim ends]
    rw [property, split, whole]
    simp only [Token.spoken_append, List.append_assoc]
  · rw [split]
    rfl

end Statement

/-! ### Segments -/

namespace Segment

/-- The tokens of a segment from the first to the last that is no trivia. -/
def statement (s : Segment) : List Token :=
  Token.trim (s.tokens.map (·.token))

theorem statement_place (us : List Token) (ending : Option Token.Placed) :
    statement ⟨Token.place us, ending⟩ = Token.trim us := by
  rw [statement, Token.place, Token.map_token_placeFrom]

/-- The tokens of the segments are tokens of the whole. -/
theorem mem_of_mem_ofPlaced {ps : List Token.Placed} :
    ∀ s ∈ ofPlaced ps, ∀ p ∈ s.tokens, p ∈ ps := by
  induction ps with
  | nil => simp [ofPlaced]
  | cons q ps ih =>
    intro s member p hp
    rw [ofPlaced_cons] at member
    split at member
    · rcases List.mem_cons.mp member with rfl | behind
      · cases hp
      · exact List.mem_cons_of_mem q (ih s behind p hp)
    · cases cut : ofPlaced ps with
      | nil =>
        rw [cut] at member
        cases member
      | cons s' ss =>
        rw [cut, List.modifyHead_cons] at member
        rw [cut] at ih
        rcases List.mem_cons.mp member with rfl | behind
        · rcases List.mem_cons.mp hp with rfl | later
          · exact List.mem_cons_self
          · exact List.mem_cons_of_mem q (ih s' List.mem_cons_self p later)
        · exact List.mem_cons_of_mem q (ih s (List.mem_cons_of_mem s' behind) p hp)

theorem mem_of_mem_statement {ts : List Token} {s : Segment} (member : s ∈ Stylesheet.segments ts) :
    ∀ t ∈ s.statement, t ∈ ts := by
  apply Token.forall_mem_trim
  intro t ht
  obtain ⟨p, hp, rfl⟩ := List.mem_map.mp ht
  have placed : p ∈ Token.place ts := mem_of_mem_ofPlaced s member p hp
  have : p.token ∈ (Token.place ts).map (·.token) := List.mem_map_of_mem placed
  rwa [Token.place, Token.map_token_placeFrom] at this

end Segment

namespace Reader

variable {r r' : Reader} {t : Token} {vs : List Token} {ss : List Segment} {Q : Node → Prop}

/-- A statement that is made from one of the segments satisfies `Q`, if the statements of its block
    do. -/
structure MakesOf (ss : List Segment) (Q : Node → Prop) : Prop where
  plain : ∀ s ∈ ss, s.opensBlock = false → ∀ first rest node, s.statement = first :: rest →
    Statement.withoutBlock first rest = .ok node → Q node
  block : ∀ s ∈ ss, s.opensBlock = true → ∀ first rest brace body node,
    s.statement = first :: rest → (∀ n ∈ body, Q n) →
    Statement.withBlock first rest (.branch .block brace body) = .ok node → Q node

/-- With `vs` still to be read, the segments from the statement on are among `ss`, and so are the
    heads of the open blocks. All statements that have been made satisfy `Q`. -/
structure Divides (ss : List Segment) (Q : Node → Prop) (vs : List Token) (r : Reader) : Prop where
  coherent : r.Coherent
  rest : Stylesheet.segments (r.statement.reverse ++ vs) ⊆ ss
  heads : ∀ b ∈ r.blocks, ∃ s ∈ ss, s.opensBlock = true ∧ s.statement = b.first :: b.rest
  done : ∀ n ∈ r.done, Q n
  before : ∀ b ∈ r.blocks, ∀ n ∈ b.before, Q n

/-- The statement is a segment when it ends. -/
theorem Divides.mem_of_cut (h : r.Divides ss Q (t :: vs)) (outside : r.brackets = [])
    (cut : t.cuts = true) :
    ⟨Token.place r.statement.reverse, some ⟨t, 0⟩⟩ ∈ ss ∧ Stylesheet.segments vs ⊆ ss := by
  have settled : Bracket.any.depth r.statement.reverse = 0 := by
    rw [h.coherent.count, outside]
    rfl
  have rest := h.rest
  rw [Stylesheet.segments_append_cut settled h.coherent.uncut cut] at rest
  exact List.cons_subset.mp rest

theorem done_of_ended (makes : MakesOf ss Q) (done : ∀ n ∈ r.done, Q n)
    {ending : Option Token.Placed} (member : ⟨Token.place r.statement.reverse, ending⟩ ∈ ss)
    (plain : Segment.opensBlock ⟨Token.place r.statement.reverse, ending⟩ = false)
    (h : r.endStatement = .ok r') : ∀ n ∈ r'.done, Q n := by
  rcases endStatement_eq_ok.mp h with ⟨-, rfl⟩ | ⟨first, rest, node, trimmed, made, rfl⟩
  · exact done
  · rw [← Segment.statement_place _ ending] at trimmed
    have holds : Q node := makes.plain _ member plain first rest node trimmed made
    exact List.forall_mem_cons.mpr ⟨holds, done⟩

/-- Ending a statement at a cut leaves the reader at the start of the next segment. -/
theorem Divides.ended (h : r.Divides ss Q (t :: vs)) (makes : MakesOf ss Q)
    (outside : r.brackets = []) (cut : t.cuts = true) (plain : t.role ≠ .openBrace)
    (ended : r.endStatement = .ok r') : r'.Divides ss Q vs := by
  obtain ⟨member, later⟩ := h.mem_of_cut outside cut
  obtain ⟨statement, brackets, blocks⟩ := endStatement_frame ended
  have noBlock : Segment.opensBlock ⟨Token.place r.statement.reverse, some ⟨t, 0⟩⟩ = false := by
    simp [Segment.opensBlock, Token.isDelimiter_openBrace_eq, plain]
  have done := done_of_ended makes h.done member noBlock ended
  have coherent : r'.Coherent :=
    coherent_of_nil statement (brackets.trans outside) (blocks ▸ h.coherent.shallow)
  exact ⟨coherent, by simpa [statement] using later, blocks ▸ h.heads, done, blocks ▸ h.before⟩

/-- Each step keeps the reader in line with the segments. -/
theorem Divides.step (h : r.Divides ss Q (t :: vs)) (makes : MakesOf ss Q) (step : Step r t r') :
    r'.Divides ss Q vs := by
  have coherent := h.coherent.step step
  cases step with
  | keep =>
    refine ⟨coherent, ?_, h.heads, h.done, h.before⟩
    simpa using h.rest
  | semicolon outside ht ended =>
    have cut : t.cuts = true := by simp [Token.cuts, Token.isDelimiter_semicolon_eq, ht]
    exact h.ended makes outside cut (by simp [ht]) ended
  | openBlock outside ht opened =>
    have brace : t.isDelimiter '\x7b' = true := by simp [Token.isDelimiter_openBrace_eq, ht]
    obtain ⟨member, later⟩ := h.mem_of_cut outside (by simp [Token.cuts, brace])
    obtain ⟨first, rest, trimmed, -, rfl⟩ := openBlock_eq_ok.mp opened
    have head : ∃ s ∈ ss, s.opensBlock = true ∧ s.statement = first :: rest := by
      refine ⟨_, member, by simp [Segment.opensBlock, brace], ?_⟩
      rw [Segment.statement_place, trimmed]
    exact ⟨coherent, by simpa using later, List.forall_mem_cons.mpr ⟨head, h.heads⟩, by simp,
      List.forall_mem_cons.mpr ⟨h.done, h.before⟩⟩
  | @closeBlock r₁ _ outside ht ended closed =>
    have cut : t.cuts = true := by simp [Token.cuts, Token.isDelimiter_closeBrace_eq, ht]
    have inner := h.ended makes outside cut (by simp [ht]) ended
    obtain ⟨b, outer, node, inside, made, rfl⟩ := closeBlock_eq_ok.mp closed
    obtain ⟨-, later, heads, done, before⟩ := inner
    rw [(endStatement_frame ended).1] at later
    rw [inside] at heads before
    obtain ⟨⟨s, member, opens, statement⟩, heads⟩ := List.forall_mem_cons.mp heads
    obtain ⟨beside, before⟩ := List.forall_mem_cons.mp before
    have body : ∀ n ∈ r₁.done.reverse, Q n := by simpa using done
    have holds : Q node :=
      makes.block s member opens b.first b.rest b.brace _ node statement body made
    exact ⟨coherent, later, heads, List.forall_mem_cons.mpr ⟨holds, beside⟩, before⟩

theorem Divides.read (h : r.Divides ss Q vs) (makes : MakesOf ss Q) (read : r.read vs = .ok r') :
    r'.Divides ss Q [] := by
  induction vs generalizing r with
  | nil =>
    cases read
    exact h
  | cons t vs ih =>
    obtain ⟨r₁, first, rest⟩ := bind_eq_ok.mp (read_cons.symm.trans read)
    exact ih (h.step makes (step_cases first)) rest

end Reader

/-- What every statement satisfies that is made from a segment of the tokens, if the statements in
    its block do, holds of the statements of a style sheet. -/
theorem Stylesheet.forall_statement_of_segment {Q : Node → Prop} {ts : List Token} {root : Node}
    (makes : Reader.MakesOf (segments ts) Q) (h : Stylesheet.ofTokens ts = .ok root) :
    ∃ body, root = .branch .stylesheet .start body ∧ ∀ n ∈ body, Q n := by
  obtain ⟨r, read, finished⟩ := bind_eq_ok.mp h
  have start : Reader.initial.Divides (segments ts) Q ts := by
    refine ⟨Reader.coherent_of_nil rfl rfl (Nat.zero_le _), List.Subset.refl _, ?_, ?_, ?_⟩ <;>
      simp [Reader.initial]
  obtain ⟨coherent, rest, -, done, -⟩ := start.read makes read
  obtain ⟨-, last, ended, -, rfl⟩ := Reader.finish_eq_ok.mp finished
  refine ⟨last.done.reverse, rfl, ?_⟩
  have member : ⟨Token.place r.statement.reverse, none⟩ ∈ segments ts := by
    apply rest
    rw [List.append_nil, segments, Segment.ofPlaced_of_uncut coherent.uncut]
    exact List.mem_singleton_self _
  have all := Reader.done_of_ended makes done member rfl ended
  simpa using all

/-- The node has the text of a segment that begins where the node stands, and so does its content if
    it has one. -/
structure Node.Recovers (ss : List Segment) (n : Node) : Prop where
  content : n.kind = .selector ∨ n.kind = .mixinCall → n.text = n.content
  statement : n.kind.isHead = true → ∃ s ∈ ss, s.opensBlock = (n.kind == .selector) ∧
    s.first?.map (·.position) = some n.position ∧ n.text = Token.sourceText s.statement

theorem Node.recovers_of_other {ss : List Segment} {n : Node} (other : n.kind.isHead = false) :
    n.Recovers ss := by
  refine ⟨?_, by simp [other]⟩
  rintro (kind | kind) <;> rw [kind] at other <;> cases other

namespace Statement

variable {ss : List Segment} {s : Segment} {first : Token} {rest : List Token} {node : Node}
  {nodes : List Node}

theorem recovers_inline {n : Node} (shaped : n.Everywhere Node.Shaped)
    (inline : n.kind.isInline = true) : n.Everywhere (Node.Recovers ss) := by
  refine (Node.everywhere_isInline shaped inline).imp ?_
  intro m inline
  exact Node.recovers_of_other (NodeKind.isHead_of_isInline inline)

/-- Below a head all is inline, so only the head has to be looked at. -/
theorem recovers_below {n : Node} (shaped : n.Everywhere Node.Shaped) (head : n.kind.isHead = true)
    (here : n.Recovers ss) : n.Everywhere (Node.Recovers ss) := by
  obtain ⟨shapedHere, shapedBelow⟩ := Node.everywhere_iff.mp shaped
  refine Node.everywhere_iff.mpr ⟨here, ?_⟩
  intro c member
  exact recovers_inline (shapedBelow c member)
    (Node.isInline_of_mem_children shapedHere (.inl head) member)

theorem first?_of_statement (h : s.statement = first :: rest) : s.first? = some first :=
  Token.find?_of_trim_eq_cons h

/-- A selector or a call. -/
theorem recovers_head {kind : NodeKind} (isHead : kind = .selector ∨ kind = .mixinCall)
    (member : s ∈ ss) (opens : s.opensBlock = (kind == .selector))
    (statement : s.statement = first :: rest) (forms : ∀ t ∈ first :: rest, t.WellFormed)
    (read : values true (first :: rest) = .ok nodes) :
    (Node.mk kind (Token.sourceText (first :: rest)) first.position nodes).Everywhere
      (Node.Recovers ss) := by
  have start : first.isTrivia = false := Token.isTrivia_of_trim_eq_cons statement
  have shaped : (Node.mk kind (Token.sourceText (first :: rest)) first.position nodes).Everywhere
      Node.Shaped :=
    shaped_head isHead (values_ne_nil start read) (pieces_values forms read)
  have head : kind.isHead = true := by rcases isHead with rfl | rfl <;> rfl
  have text : (Node.mk kind (Token.sourceText (first :: rest)) first.position nodes).text =
      Token.sourceText (first :: rest) := by
    rw [← String.toList_inj, Node.toList_text shaped (.inl head),
      flatten_head first.position isHead (flattenAll_values forms read), Token.toList_sourceText]
  refine recovers_below shaped head ⟨fun _ => text, fun _ => ⟨s, member, opens, ?_, ?_⟩⟩
  · rw [first?_of_statement statement]
    rfl
  · rw [text, statement]

/-- A declaration has the text of its segment. -/
theorem recovers_declaration {before after : List Token} {colon : Token} (member : s ∈ ss)
    (plain : s.opensBlock = false) (statement : s.statement = before ++ colon :: after)
    (isColon : colon.isDelimiter ':' = true)
    (forms : ∀ t ∈ before ++ colon :: after, t.WellFormed)
    (read : declaration before colon after = .ok node) : node.Everywhere (Node.Recovers ss) := by
  have kind : node.kind = .declaration := by
    obtain ⟨_, _, _, -, -, rfl⟩ := declaration_eq_ok.mp read
    rfl
  have starts : ∀ t ∈ before.head?, t.isTrivia = false := by
    intro t isFirst
    obtain ⟨more, rfl⟩ := List.head?_eq_some_iff.mp isFirst
    exact Token.isTrivia_of_trim_eq_cons statement
  have ends : ∀ us last, after = us ++ [last] → last.isTrivia = false := by
    rintro us last rfl
    have whole : s.statement = (before ++ colon :: us) ++ [last] := by simp [statement]
    exact Token.isTrivia_of_trim_eq_concat whole
  obtain ⟨flat, place⟩ := flatten_declaration forms isColon starts ends read
  have shaped := (stated_declaration forms read).shaped
  have head : node.kind.isHead = true := by rw [kind]; rfl
  have text : node.text = Token.sourceText s.statement := by
    rw [← String.toList_inj, Node.toList_text shaped (.inl head), flat, Token.toList_sourceText,
      statement]
  refine recovers_below shaped head ⟨?_, fun _ => ⟨s, member, by simp [plain, kind], ?_, text⟩⟩
  · simp [kind]
  · obtain ⟨first, isFirst, same⟩ := Option.map_eq_some_iff.mp place
    obtain ⟨more, rfl⟩ := List.head?_eq_some_iff.mp isFirst
    rw [first?_of_statement statement, Option.map_some, same]

/-- Only the block of an at-rule has anything to recover. -/
theorem recovers_atRule {name : Token} {block : Option Node} (forms : ∀ t ∈ rest, t.WellFormed)
    (inside : ∀ b ∈ block.toList, b.Everywhere (Node.Recovers ss))
    (h : atRule name rest block = .ok node) : node.Everywhere (Node.Recovers ss) := by
  obtain ⟨value, rfl, made⟩ := atRule_eq_ok.mp h
  refine Node.everywhere_iff.mpr ⟨Node.recovers_of_other rfl, ?_⟩
  refine List.forall_mem_append.mpr ⟨?_, inside⟩
  rcases made with ⟨-, rfl⟩ | ⟨first, more, nodes, trimmed, read, rfl⟩
  · simp
  · have pieces := pieces_values (trimmed ▸ Token.forall_mem_trim forms) read
    rw [List.forall_mem_singleton]
    exact recovers_inline (shaped_value pieces) rfl

theorem recovers_withoutBlock (member : s ∈ ss) (plain : s.opensBlock = false)
    (statement : s.statement = first :: rest) (forms : ∀ t ∈ first :: rest, t.WellFormed)
    (h : withoutBlock first rest = .ok node) : node.Everywhere (Node.Recovers ss) := by
  cases withoutBlock_eq_ok.mp h with
  | declaration cut read =>
    obtain ⟨split, isColon⟩ := splitColon?_eq_some cut
    rw [split] at statement forms
    exact recovers_declaration member plain statement isColon forms read
  | atRule _ _ read => exact recovers_atRule (List.forall_mem_cons.mp forms).2 (by simp) read
  | call _ _ read => exact recovers_head (.inr rfl) member plain statement forms read

theorem recovers_withBlock {block : Node} (member : s ∈ ss) (opens : s.opensBlock = true)
    (statement : s.statement = first :: rest) (forms : ∀ t ∈ first :: rest, t.WellFormed)
    (inside : block.Everywhere (Node.Recovers ss)) (h : withBlock first rest block = .ok node) :
    node.Everywhere (Node.Recovers ss) := by
  rcases withBlock_eq_ok.mp h with ⟨-, read⟩ | ⟨-, nodes, read, rfl⟩
  · exact recovers_atRule (List.forall_mem_cons.mp forms).2 (by simpa using inside) read
  · have selector := recovers_head (.inl rfl) member opens statement forms read
    refine Node.everywhere_iff.mpr ⟨Node.recovers_of_other rfl, ?_⟩
    simpa [Node.branch] using ⟨selector, inside⟩

end Statement

/-- Every statement that is made from a segment recovers its text. -/
theorem Reader.makes_recovers {ts : List Token} (forms : ∀ t ∈ ts, t.WellFormed) :
    MakesOf (Stylesheet.segments ts) fun n =>
      n.Everywhere (Node.Recovers (Stylesheet.segments ts)) where
  plain s member plain first rest node statement read := by
    have formsHere : ∀ t ∈ first :: rest, t.WellFormed := fun t ht =>
      forms t (Segment.mem_of_mem_statement member t (statement ▸ ht))
    exact Statement.recovers_withoutBlock member plain statement formsHere read
  block s member opens first rest brace body node statement inside read := by
    have formsHere : ∀ t ∈ first :: rest, t.WellFormed := fun t ht =>
      forms t (Segment.mem_of_mem_statement member t (statement ▸ ht))
    have block : (Node.branch .block brace body).Everywhere
        (Node.Recovers (Stylesheet.segments ts)) :=
      Node.everywhere_iff.mpr ⟨Node.recovers_of_other rfl, inside⟩
    exact Statement.recovers_withBlock member opens statement formsHere block read

namespace Stylesheet

/-- Selectors and calls have the text that was taken from their tokens, and together with the
    declarations they have the text of the segments where they stand, without trivia at the ends and
    without comments. -/
theorem recovers_parse {source : String} {root : Node} (h : parse source = .ok root) :
    ∃ ts, Token.tokenize (withoutMark source) = .ok ts ∧
      ∀ n ∈ root.preorder, n.Recovers (segments ts) := by
  obtain ⟨ts, tokens, read⟩ := bind_eq_ok.mp h
  have makes := Reader.makes_recovers (Token.wellFormed_of_tokenize tokens)
  obtain ⟨body, rfl, inside⟩ := forall_statement_of_segment makes read
  refine ⟨ts, tokens, ?_⟩
  rw [Node.preorder_eq_walk]
  exact Node.everywhere_iff.mpr ⟨Node.recovers_of_other rfl, inside⟩

/-- The text of a declaration keeps the blanks around its colon, and comments are left out wherever
    they stand. -/
theorem recovers_parse_nested : ∃ root,
    parse ".m(#fff, f(1 /*;*/, (2)));\na > #b/**/ c \x7b d/**/ : #fff/**/ url( x ) !e /**/;\x7d" =
      .ok root ∧
    (root.walk.filter (·.kind.isHead)).map (·.text) =
      [".m(#fff, f(1 , (2)))", "a > #b c", "d : #fff url( x ) !e"] ∧
    ∃ ts, Token.tokenize (withoutMark
      ".m(#fff, f(1 /*;*/, (2)));\na > #b/**/ c \x7b d/**/ : #fff/**/ url( x ) !e /**/;\x7d") =
        .ok ts ∧ ∀ n ∈ root.preorder, n.Recovers (segments ts) := by
  apply exists_ok_of_map_toOption
  · decide +kernel
  · intro root parsed
    exact recovers_parse parsed

end Stylesheet

end SheetLint
