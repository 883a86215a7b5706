import SheetLint.Proofs.Pairing
import SheetLint.Proofs.CarriageReturns.Tokens

/-!
# Nodes with carriage returns

The trees of two texts that differ in line breaks only have the same shape and the same labels, up
to line breaks in blanks and up to the contents of urls (`Node.Akin`). What stands in values,
selectors and calls is read alike (`values_recast`): the brackets of related tokens are paired
alike, and related groups have related nodes.
-/

namespace SheetLint

namespace Text

variable {s s' u u' word : List Char}

/-- The text is no plain word: there is a line feed or a bracket in it. -/
def Odd (s : List Char) : Prop :=
  '\n' ∈ s ∨ '(' ∈ s

instance (s : List Char) : Decidable (Odd s) :=
  inferInstanceAs (Decidable ('\n' ∈ s ∨ '(' ∈ s))

/-- The texts are equal, or neither is a plain word. -/
def Akin (s s' : List Char) : Prop :=
  s' = s ∨ (Odd s ∧ Odd s')

theorem Odd.append_left (h : Odd s) (u : List Char) : Odd (s ++ u) :=
  h.imp (List.mem_append_left u) (List.mem_append_left u)

theorem Odd.append_right (s : List Char) (h : Odd u) : Odd (s ++ u) :=
  h.imp (List.mem_append_right s) (List.mem_append_right s)

theorem Akin.append (left : Akin s s') (right : Akin u u') : Akin (s ++ u) (s' ++ u') := by
  rcases left with rfl | ⟨odd, odd'⟩
  · rcases right with rfl | ⟨odd, odd'⟩
    · exact .inl rfl
    · exact .inr ⟨odd.append_right _, odd'.append_right _⟩
  · exact .inr ⟨odd.append_left _, odd'.append_left _⟩

theorem Rebroken.akin (h : Rebroken s s') : Akin s s' := by
  rcases h.breaks with same | ⟨breaks, breaks'⟩
  · exact .inl same
  · exact .inr ⟨.inl breaks, .inl breaks'⟩

/-- Both texts are the same plain word, or neither is. -/
theorem Akin.eq_iff (h : Akin s s') (plain : ¬ Odd word) : s' = word ↔ s = word := by
  rcases h with rfl | ⟨odd, odd'⟩
  · exact Iff.rfl
  · constructor
    · rintro rfl
      exact absurd odd' plain
    · rintro rfl
      exact absurd odd plain

end Text

namespace Node

variable {ps : List Position} {n n' : Node} {ns ns' ms ms' : List Node}

/-- The labels of two nodes are related. -/
structure Labelled (ps : List Position) (n n' : Node) : Prop where
  kind : n'.kind = n.kind
  position : n'.position = n.position.moved ps
  content : Text.Akin n.content.toList n'.content.toList
  colour : n.kind = .color → n'.content = n.content
  blank : n.kind = .space → Text.unbroken n'.content.toList = Text.unbroken n.content.toList

/-- A leaf for a string. -/
structure IsString (n : Node) : Prop where
  kind : n.kind = .string
  children : n.children = []

/-- A leaf for blanks. -/
structure IsSpace (n : Node) : Prop where
  kind : n.kind = .space
  children : n.children = []

/-- The leaves behind an opening bracket that the two trees have instead of each other: strings, and
    blanks behind them or none. -/
inductive Contents : List Node → List Node → Prop
  | bare {ns ns' : List Node} (strings : ∀ n ∈ ns, n.IsString)
      (strings' : ∀ n ∈ ns', n.IsString) : Contents ns ns'
  | blank {ns ns' : List Node} {b b' : Node} (strings : ∀ n ∈ ns, n.IsString)
      (strings' : ∀ n ∈ ns', n.IsString) (space : b.IsSpace) (space' : b'.IsSpace)
      (text : Text.unbroken b'.content.toList = Text.unbroken b.content.toList) :
      Contents (ns ++ [b]) (ns' ++ [b'])

/-- Trees of the same shape with related labels. Only directly behind an opening bracket the trees
    may have different leaves. -/
inductive Akin (ps : List Position) : List Node → List Node → Prop
  | nil : Akin ps [] []
  | cons {n n' : Node} {fs fs' cs cs' ns ns' : List Node} (label : Labelled ps n n')
      (children : n.children = fs ++ cs) (children' : n'.children = fs' ++ cs')
      (contents : Contents fs fs')
      (bracket : n.kind ≠ .arguments → n.kind ≠ .parentheses → fs = [] ∧ fs' = [])
      (below : Akin ps cs cs') (rest : Akin ps ns ns') : Akin ps (n :: ns) (n' :: ns')

theorem contents_nil : Contents [] [] :=
  .bare (List.forall_mem_nil _) (List.forall_mem_nil _)

theorem Akin.append (left : Akin ps ns ns') (right : Akin ps ms ms') :
    Akin ps (ns ++ ms) (ns' ++ ms') := by
  induction left with
  | nil => exact right
  | cons label children children' contents bracket below _ _ ih =>
    exact .cons label children children' contents bracket below ih

/-- One tree whose children are all related. -/
theorem akin_singleton (label : Labelled ps n n') (below : Akin ps n.children n'.children) :
    Akin ps [n] [n'] :=
  .cons label rfl rfl contents_nil (fun _ _ => ⟨rfl, rfl⟩) below .nil

theorem akin_leaf {kind : NodeKind} {content content' : String} {p p' : Position}
    (label : Labelled ps (.leaf kind content p) (.leaf kind content' p')) :
    Akin ps [.leaf kind content p] [.leaf kind content' p'] :=
  akin_singleton label .nil

/-- A label that stays as it is. -/
theorem labelled_of_eq (kind : n'.kind = n.kind) (content : n'.content = n.content)
    (position : n'.position = n.position.moved ps) : Labelled ps n n' where
  kind := kind
  position := position
  content := .inl (by rw [content])
  colour _ := content
  blank _ := by rw [content]

theorem akin_branch (kind : NodeKind) {p p' : Position} (position : p' = p.moved ps)
    (below : Akin ps ns ns') : Akin ps [.branch kind p ns] [.branch kind p' ns'] :=
  akin_singleton (labelled_of_eq rfl rfl position) below

end Node

namespace Token

variable {ps : List Position} {t t' : Token} {ss ss' : List Token} {inSelector : Bool}

/-- Related tokens have related leaves, or none. -/
theorem akin_leaf? (same : Same ps t t') :
    Node.Akin ps (t.leaf? inSelector).toList (t'.leaf? inSelector).toList := by
  have leaf (kind : NodeKind) {content : String} :
      Node.Akin ps [.leaf kind content t.position] [.leaf kind content t'.position] :=
    Node.akin_leaf (Node.labelled_of_eq rfl rfl same.position)
  have text (h : t.isTrivia = false) := same.text h
  unfold leaf?
  rw [same.kind]
  cases kind : t.kind with
  | comment => exact .nil
  | whitespace =>
    have blank := same.blank kind
    exact Node.akin_leaf ⟨rfl, same.position, blank.akin, nofun, fun _ => blank.unbroken⟩
  | hash =>
    rw [text (by simp [isTrivia, kind])]
    dsimp only
    split
    · exact leaf .color
    · exact leaf .ident
  | _ =>
    rw [text (by simp [isTrivia, kind])]
    exact leaf _

/-- The leaves of some tokens. -/
def leaves (inSelector : Bool) (ts : List Token) : List Node :=
  ts.flatMap fun t => (t.leaf? inSelector).toList

theorem leaves_append (ts us : List Token) :
    leaves inSelector (ts ++ us) = leaves inSelector ts ++ leaves inSelector us :=
  List.flatMap_append

/-- The leaves of the contents of a bracket are related as the contents are. -/
theorem contents_leaves (h : Contents ss ss') :
    Node.Contents (leaves inSelector ss) (leaves inSelector ss') := by
  have strings {ss : List Token} (h : ∀ s ∈ ss, s.kind = .string) :
      ∀ n ∈ leaves inSelector ss, n.IsString := by
    intro n hn
    obtain ⟨s, hs, found⟩ := List.mem_flatMap.mp hn
    simp only [leaf?, h s hs, Option.toList_some, List.mem_singleton] at found
    subst found
    exact ⟨rfl, rfl⟩
  cases h with
  | bare here here' => exact .bare (strings here) (strings here')
  | @blank ss ss' b b' here here' kind alike =>
    have leaf {b : Token} (kind : b.kind = .whitespace) :
        leaves inSelector [b] = [.leaf .space b.text b.position] := by
      simp [leaves, leaf?, kind]
    have kind' : b'.kind = .whitespace := alike.kind.trans kind
    rw [leaves_append, leaves_append, leaf kind, leaf kind']
    exact .blank (strings here) (strings here') ⟨rfl, rfl⟩ ⟨rfl, rfl⟩ (alike.blank kind).unbroken

end Token

/-! ### Groups -/

namespace Group

variable {ps : List Position} {t t' o o' w w' : Token} {g g' : Group} {ss ss' ts ts' : List Token}
  {gs gs' hs hs' current current' inner inner' : List Group} {pending pending' : List Pending}
  {inSelector : Bool} {d : Nat} {ns : List Node}

/-- The groups of related tokens. -/
inductive Recast (ps : List Position) : List Group → List Group → Prop
  | nil : Recast ps [] []
  | single {t t' : Token} {gs gs' : List Group} (same : Token.Same ps t t')
      (rest : Recast ps gs gs') : Recast ps (.single t :: gs) (.single t' :: gs')
  | parens {o o' : Token} {ss ss' : List Token} {inner inner' gs gs' : List Group}
      (same : Token.Same ps o o') (contents : Token.Contents ss ss')
      (within : Recast ps inner inner') (rest : Recast ps gs gs') :
      Recast ps (.parens o (ss.map .single ++ inner) :: gs)
        (.parens o' (ss'.map .single ++ inner') :: gs')
  | call {w w' o o' : Token} {ss ss' : List Token} {inner inner' gs gs' : List Group}
      (word : Token.Same ps w w') (isWord : w.kind = .word) (same : Token.Same ps o o')
      (contents : Token.Contents ss ss') (within : Recast ps inner inner')
      (rest : Recast ps gs gs') :
      Recast ps (.call w o (ss.map .single ++ inner) :: gs)
        (.call w' o' (ss'.map .single ++ inner') :: gs')

theorem Recast.append (left : Recast ps gs gs') (right : Recast ps hs hs') :
    Recast ps (gs ++ hs) (gs' ++ hs') := by
  induction left with
  | nil => exact right
  | single same _ ih => exact .single same ih
  | parens same contents within _ _ ih => exact .parens same contents within ih
  | call word isWord same contents within _ _ ih =>
    exact .call word isWord same contents within ih

/-- Single tokens in front of other groups become leaves in front of their nodes. -/
theorem nodesOf_singles : nodesOf inSelector d (ss.map .single ++ gs) = .ok ns ↔
    ∃ rest, nodesOf inSelector d gs = .ok rest ∧ ns = Token.leaves inSelector ss ++ rest := by
  induction ss generalizing ns with
  | nil => simp [Token.leaves]
  | cons s ss ih =>
    rw [List.map_cons, List.cons_append, nodesOf_single]
    simp only [ih]
    constructor
    · rintro ⟨_, ⟨rest, made, rfl⟩, rfl⟩
      exact ⟨rest, made, by simp [Token.leaves]⟩
    · rintro ⟨rest, made, rfl⟩
      exact ⟨_, ⟨rest, made, rfl⟩, by simp [Token.leaves]⟩

/-- Related groups have related nodes. -/
theorem nodesOf_recast (h : Recast ps gs gs') (made : nodesOf inSelector d gs = .ok ns) :
    ∃ ns', nodesOf inSelector d gs' = .ok ns' ∧ Node.Akin ps ns ns' := by
  have bracketed {kind : NodeKind} (isBracket : kind = .arguments ∨ kind = .parentheses)
      {o o' : Token} (same : Token.Same ps o o') {ss ss' : List Token}
      (contents : Token.Contents ss ss') {cs cs' : List Node} (below : Node.Akin ps cs cs') :
      Node.Akin ps [.branch kind o.position (Token.leaves inSelector ss ++ cs)]
        [.branch kind o'.position (Token.leaves inSelector ss' ++ cs')] := by
    refine .cons (Node.labelled_of_eq rfl rfl same.position) rfl rfl
      (Token.contents_leaves contents) ?_ below .nil
    intro noArguments noParentheses
    rcases isBracket with rfl | rfl
    · exact absurd rfl noArguments
    · exact absurd rfl noParentheses
  induction h generalizing d ns with
  | nil =>
    cases made
    exact ⟨[], rfl, .nil⟩
  | single same _ ih =>
    obtain ⟨rest, behind, rfl⟩ := nodesOf_single.mp made
    obtain ⟨rest', behind', akin⟩ := ih behind
    exact ⟨_, nodesOf_single.mpr ⟨rest', behind', rfl⟩, (Token.akin_leaf? same).append akin⟩
  | parens same contents _ _ ihWithin ih =>
    obtain ⟨below, children, rest, inside, behind, rfl⟩ := nodesOf_parens.mp made
    obtain ⟨nodes, within, rfl⟩ := nodesOf_singles.mp inside
    obtain ⟨nodes', within', akinWithin⟩ := ihWithin within
    obtain ⟨rest', behind', akin⟩ := ih behind
    refine ⟨_, nodesOf_parens.mpr ⟨below, _, rest', nodesOf_singles.mpr ⟨nodes', within', rfl⟩,
      behind', rfl⟩, ?_⟩
    exact (bracketed (.inr rfl) same contents akinWithin).append akin
  | call word isWord same contents _ _ ihWithin ih =>
    obtain ⟨below, children, rest, inside, behind, rfl⟩ := nodesOf_call.mp made
    obtain ⟨nodes, within, rfl⟩ := nodesOf_singles.mp inside
    obtain ⟨nodes', within', akinWithin⟩ := ihWithin within
    obtain ⟨rest', behind', akin⟩ := ih behind
    refine ⟨_, nodesOf_call.mpr ⟨below, _, rest', nodesOf_singles.mpr ⟨nodes', within', rfl⟩,
      behind', rfl⟩, ?_⟩
    have name := word.text (by simp [Token.isTrivia, isWord])
    have arguments := bracketed (.inl rfl) same contents akinWithin
    exact .cons (Node.labelled_of_eq rfl name word.position) rfl rfl Node.contents_nil
      (fun _ _ => ⟨rfl, rfl⟩) arguments akin

theorem pair_opening (opening : t.isDelimiter '(' = true) :
    pair pending current (t :: ts) = pair (.ofOpening t current :: pending) [] ts := by
  conv_lhs => unfold pair
  rw [if_pos opening]

theorem pair_closing {p : Pending} (closing : t.isDelimiter ')' = true) :
    pair (p :: pending) current (t :: ts) =
      pair pending (p.close current.reverse :: p.before) ts := by
  rw [pair, if_neg, if_pos closing]
  rw [Token.not_isDelimiter_of_ne closing (by decide)]
  exact Bool.false_ne_true

theorem pair_closing_nil (closing : t.isDelimiter ')' = true) :
    pair [] current (t :: ts) = (current.reverse, some ⟨.unexpectedClosing ')', t.position⟩) := by
  rw [pair, if_neg, if_pos closing]
  rw [Token.not_isDelimiter_of_ne closing (by decide)]
  exact Bool.false_ne_true

theorem pair_single (noOpening : t.isDelimiter '(' = false)
    (noClosing : t.isDelimiter ')' = false) :
    pair pending current (t :: ts) = pair pending (.single t :: current) ts := by
  conv_lhs => unfold pair
  rw [noOpening, noClosing]
  rfl

/-- Strings and whitespace are kept as single groups. -/
theorem pair_singles (plain : ∀ s ∈ ss, s.kind = .string ∨ s.kind = .whitespace) :
    pair pending current (ss ++ ts) = pair pending ((ss.map .single).reverse ++ current) ts := by
  induction ss generalizing current with
  | nil => rfl
  | cons s ss ih =>
    obtain ⟨here, plain⟩ := List.forall_mem_cons.mp plain
    have noDelimiter (c : Char) : s.isDelimiter c = false := by
      rcases here with kind | kind <;> simp [Token.isDelimiter, kind]
    rw [List.cons_append, pair_single (noDelimiter _) (noDelimiter _), ih plain]
    simp

/-- The groups behind a bracket, from the last to the first, with the contents of a url in front of
    them or none. -/
inductive Stacked (ps : List Position) (ss ss' : List Token) : List Group → List Group → Prop
  | base : Stacked ps ss ss' (ss.map .single).reverse (ss'.map .single).reverse
  | push {g g' : Group} {gs gs' : List Group} (same : Recast ps [g] [g'])
      (rest : Stacked ps ss ss' gs gs') : Stacked ps ss ss' (g :: gs) (g' :: gs')

theorem Stacked.reverse (h : Stacked ps ss ss' gs gs') :
    ∃ hs hs', gs.reverse = ss.map .single ++ hs ∧ gs'.reverse = ss'.map .single ++ hs' ∧
      Recast ps hs hs' := by
  induction h with
  | base => exact ⟨[], [], by simp, by simp, .nil⟩
  | @push g g' _ _ same _ ih =>
    obtain ⟨hs, hs', eq, eq', recast⟩ := ih
    refine ⟨hs ++ [g], hs' ++ [g'], ?_, ?_, recast.append same⟩
    · rw [List.reverse_cons, eq, List.append_assoc]
    · rw [List.reverse_cons, eq', List.append_assoc]

/-- The group on top is a word. -/
def TopWord (w : Token) (gs hs : List Group) : Prop :=
  gs = .single w :: hs ∧ w.kind = .word

theorem Pending.ofOpening_of_word (o : Token) (top : TopWord w gs hs) :
    Pending.ofOpening o gs = ⟨some w, o, hs⟩ := by
  obtain ⟨rfl, word⟩ := top
  rw [Pending.ofOpening, if_pos word]

theorem Pending.ofOpening_of_not (o : Token) (top : ∀ w hs, ¬ TopWord w gs hs) :
    Pending.ofOpening o gs = ⟨none, o, gs⟩ := by
  unfold Pending.ofOpening
  split
  · rename_i word rest
    rw [if_neg]
    intro isWord
    exact top word rest ⟨rfl, isWord⟩
  · rfl

/-- Words are on top of both stacks or of neither: contents have no words. -/
theorem Stacked.topWord (contents : Token.Contents ss ss') (h : Stacked ps ss ss' gs gs') :
    (∃ w w' hs hs', TopWord w gs hs ∧ TopWord w' gs' hs' ∧ Token.Same ps w w' ∧
      Stacked ps ss ss' hs hs') ∨
    ((∀ w hs, ¬ TopWord w gs hs) ∧ ∀ w hs, ¬ TopWord w gs' hs) := by
  have none {ss : List Token} (plain : ∀ s ∈ ss, s.kind = .string ∨ s.kind = .whitespace)
      (w : Token) (hs : List Group) : ¬ TopWord w (ss.map .single).reverse hs := by
    rintro ⟨top, word⟩
    have member : single w ∈ (ss.map single).reverse := top ▸ List.mem_cons_self
    simp only [List.mem_reverse, List.mem_map, single.injEq, exists_eq_right] at member
    rcases plain w member with kind | kind
    · rw [word] at kind
      cases kind
    · rw [word] at kind
      cases kind
  cases h with
  | base => exact .inr ⟨none contents.kinds.1, none contents.kinds.2⟩
  | @push g g' hs hs' same rest =>
    cases same with
    | @single t t' _ _ same _ =>
      by_cases word : t.kind = .word
      · exact .inl ⟨t, t', hs, hs', ⟨rfl, word⟩, ⟨rfl, same.kind.trans word⟩, same, rest⟩
      · right
        refine ⟨?_, ?_⟩
        · rintro w hs ⟨top, isWord⟩
          cases top
          exact word isWord
        · rintro w hs ⟨top, isWord⟩
          cases top
          exact word (same.kind ▸ isWord)
    | parens =>
      refine .inr ⟨?_, ?_⟩
      · rintro w hs ⟨top, -⟩
        cases top
      · rintro w hs ⟨top, -⟩
        cases top
    | call =>
      refine .inr ⟨?_, ?_⟩
      · rintro w hs ⟨top, -⟩
        cases top
      · rintro w hs ⟨top, -⟩
        cases top

/-- The states of two groupings that have read related tokens. -/
inductive Paired (ps : List Position) :
    List Pending → List Group → List Pending → List Group → Prop
  | outermost {current current' : List Group} (stack : Stacked ps [] [] current current') :
      Paired ps [] current [] current'
  | bracket {p p' : Pending} {pending pending' : List Pending} {current current' : List Group}
      {ss ss' : List Token} (outside : Paired ps pending p.before pending' p'.before)
      (closes : ∀ ss ss' gs gs', Token.Contents ss ss' → Recast ps gs gs' →
        Recast ps [p.close (ss.map .single ++ gs)] [p'.close (ss'.map .single ++ gs')])
      (contents : Token.Contents ss ss') (stack : Stacked ps ss ss' current current') :
      Paired ps (p :: pending) current (p' :: pending') current'

/-- The groups behind the innermost bracket can be replaced by others on the same contents. -/
theorem Paired.replace (h : Paired ps pending current pending' current') :
    ∃ ss ss', Token.Contents ss ss' ∧ Stacked ps ss ss' current current' ∧
      ∀ hs hs', Stacked ps ss ss' hs hs' → Paired ps pending hs pending' hs' := by
  cases h with
  | outermost stack =>
    exact ⟨[], [], .bare (List.forall_mem_nil _) (List.forall_mem_nil _), stack,
      fun _ _ other => .outermost other⟩
  | bracket outside closes contents stack =>
    exact ⟨_, _, contents, stack, fun _ _ other => .bracket outside closes contents other⟩

theorem Paired.snoc (h : Paired ps pending current pending' current') (same : Recast ps [g] [g']) :
    Paired ps pending (g :: current) pending' (g' :: current') := by
  obtain ⟨ss, ss', -, stack, replace⟩ := h.replace
  exact replace _ _ (.push same stack)

/-- An opened bracket with its contents keeps two stacks related. -/
theorem Paired.open (h : Paired ps pending current pending' current') (same : Token.Same ps o o')
    (contents : Token.Contents ss ss') :
    Paired ps (.ofOpening o current :: pending) (ss.map .single).reverse
      (.ofOpening o' current' :: pending') (ss'.map .single).reverse := by
  obtain ⟨us, us', inside, stack, replace⟩ := h.replace
  rcases stack.topWord inside with ⟨w, w', hs, hs', top, top', word, rest⟩ | ⟨noWord, noWord'⟩
  · rw [Pending.ofOpening_of_word o top, Pending.ofOpening_of_word o' top']
    refine .bracket (replace hs hs' rest) ?_ contents .base
    intro vs vs' gs gs' contents recast
    exact .call word top.2 same contents recast .nil
  · rw [Pending.ofOpening_of_not o noWord, Pending.ofOpening_of_not o' noWord']
    refine .bracket h ?_ contents .base
    intro vs vs' gs gs' contents recast
    exact .parens same contents recast .nil

theorem Paired.close {p p' : Pending}
    (h : Paired ps (p :: pending) current (p' :: pending') current') :
    Paired ps pending (p.close current.reverse :: p.before) pending'
      (p'.close current'.reverse :: p'.before) := by
  cases h with
  | bracket outside closes contents stack =>
    obtain ⟨hs, hs', eq, eq', recast⟩ := stack.reverse
    rw [eq, eq']
    exact outside.snoc (closes _ _ hs hs' contents recast)

/-- Related tokens are paired alike. -/
theorem pair_recast (tokens : Token.Recast ps ts ts')
    (state : Paired ps pending current pending' current')
    (h : pair pending current ts = (gs, none)) :
    ∃ gs', pair pending' current' ts' = (gs', none) ∧ Recast ps gs gs' := by
  induction tokens generalizing pending current pending' current' with
  | nil =>
    cases state with
    | outermost stack =>
      cases h
      obtain ⟨hs, hs', eq, eq', recast⟩ := stack.reverse
      refine ⟨current'.reverse, rfl, ?_⟩
      rw [eq, eq']
      exact recast
    | @bracket p _ pending _ =>
      rw [pair] at h
      cases last : (p :: pending).getLast? with
      | none => simp at last
      | some outermost =>
        rw [last] at h
        cases h
  | @keep t t' ts ts' same rest ih =>
    by_cases opening : t.isDelimiter '(' = true
    · rw [pair_opening opening] at h
      rw [pair_opening (same.isDelimiter_eq _ ▸ opening)]
      have opened := state.open same (.bare (List.forall_mem_nil _) (List.forall_mem_nil _))
      exact ih opened h
    · by_cases closing : t.isDelimiter ')' = true
      · have closing' : t'.isDelimiter ')' = true := same.isDelimiter_eq _ ▸ closing
        cases state with
        | outermost stack =>
          rw [pair_closing_nil closing] at h
          cases h
        | bracket outside closes contents stack =>
          rw [pair_closing closing] at h
          rw [pair_closing closing']
          exact ih (Paired.bracket outside closes contents stack).close h
      · rw [Bool.not_eq_true] at opening closing
        rw [pair_single opening closing] at h
        rw [pair_single ((same.isDelimiter_eq _).trans opening)
          ((same.isDelimiter_eq _).trans closing)]
        exact ih (state.snoc (.single same .nil)) h
  | fill same opening text contents rest ih =>
    rw [pair_opening opening, pair_singles contents.kinds.1, List.append_nil] at h
    rw [pair_opening (same.isDelimiter_eq _ ▸ opening), pair_singles contents.kinds.2,
      List.append_nil]
    exact ih (state.open same contents) h

end Group

/-- What stands in values, selectors and calls is read alike. -/
theorem values_recast {ps : List Position} {inSelector : Bool} {ts ts' : List Token}
    {ns : List Node} (tokens : Token.Recast ps ts ts') (h : values inSelector ts = .ok ns) :
    ∃ ns', values inSelector ts' = .ok ns' ∧ Node.Akin ps ns ns' := by
  obtain ⟨gs, grouped, made⟩ := values_eq_ok.mp h
  have start : Group.Paired ps [] [] [] [] := .outermost .base
  obtain ⟨gs', grouped', recast⟩ := Group.pair_recast tokens start grouped
  obtain ⟨ns', made', akin⟩ := Group.nodesOf_recast recast made
  exact ⟨ns', values_eq_ok.mpr ⟨gs', grouped', made'⟩, akin⟩

end SheetLint
