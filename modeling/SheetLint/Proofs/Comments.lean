import SheetLint.Proofs.Agreement
import SheetLint.Proofs.CarriageReturns.Nodes
import Mathlib.Data.List.Infix

/-!
# Values without comments

Comments have no nodes. When they are left out, what stands in values, selectors and calls is read
with the same error, or to trees that stand for the same text (`values_uncommented`). The trees are
equal, unless comments have stood between a word and an opening bracket: without them the word and
the pair of brackets are a call.
-/

namespace SheetLint

namespace Token

variable {t first : Token} {ts us rest : List Token}

/-- The tokens that are no comments. -/
def uncommented (ts : List Token) : List Token :=
  ts.filter (!·.isComment)

/-- Somewhere comments, and nothing else, stand between a word and an opening round bracket. -/
def CommentedCall (ts : List Token) : Prop :=
  ∃ word comments bracket, word :: (comments ++ [bracket]) <:+: ts ∧ word.kind = .word ∧
    comments ≠ [] ∧ (∀ c ∈ comments, c.isComment = true) ∧ bracket.isDelimiter '(' = true

theorem CommentedCall.mono (h : CommentedCall us) (part : us <:+: ts) : CommentedCall ts := by
  obtain ⟨word, comments, bracket, found, call⟩ := h
  exact ⟨word, comments, bracket, found.trans part, call⟩

/-- The first token is a word, and behind the comments that follow it a bracket opens. -/
def startsCommentedCall : List Token → Bool
  | [] => false
  | word :: ts => word.kind == .word && ts.head?.any isComment &&
      (ts.dropWhile isComment).head?.any (·.isDelimiter '(')

/-- Calls with a comment in front of the bracket are found by looking at every tail of the list. -/
theorem commentedCall_iff : CommentedCall ts ↔ ∃ us ∈ ts.tails, startsCommentedCall us = true := by
  constructor
  · intro h
    obtain ⟨word, comments, bracket, ⟨front, back, split⟩, isWord, some, all, opening⟩ := h
    refine ⟨word :: (comments ++ bracket :: back), ?_, ?_⟩
    · exact (List.mem_tails _ _).mpr ⟨front, by simp [← split]⟩
    · have noComment : bracket.isComment = false := by
        simp only [isDelimiter, beq_iff_eq] at opening
        simp [isComment, opening]
      have behind : (comments ++ bracket :: back).dropWhile isComment = bracket :: back := by
        rw [List.dropWhile_append_of_pos all, List.dropWhile_cons_of_neg (by simp [noComment])]
      have next : (comments ++ bracket :: back).head?.any isComment = true := by
        obtain ⟨c, cs, rfl⟩ := List.exists_cons_of_ne_nil some
        exact all c List.mem_cons_self
      rw [startsCommentedCall, isWord, next, behind]
      simpa using opening
  · intro h
    obtain ⟨us, part, starts⟩ := h
    cases us with
    | nil => cases starts
    | cons word us =>
      simp only [startsCommentedCall, Bool.and_eq_true, beq_iff_eq] at starts
      obtain ⟨⟨isWord, comment⟩, opening⟩ := starts
      have parts := List.takeWhile_append_dropWhile (p := isComment) (l := us)
      cases behind : us.dropWhile isComment with
      | nil => simp [behind] at opening
      | cons bracket back =>
        rw [behind] at opening parts
        refine ⟨word, us.takeWhile isComment, bracket, ?_, isWord, ?_, ?_, by simpa using opening⟩
        · have front : word :: (us.takeWhile isComment ++ [bracket]) <+: word :: us := by
            exact ⟨back, by simp [parts]⟩
          exact front.isInfix.trans ((List.mem_tails _ _).mp part).isInfix
        · intro none
          cases us with
          | nil => cases comment
          | cons c cs => simp_all
        · intro c hc
          exact List.mem_takeWhile_imp hc

instance (ts : List Token) : Decidable (CommentedCall ts) :=
  decidable_of_iff _ commentedCall_iff.symm

theorem isTrivia_of_isComment (comment : t.isComment = true) : t.isTrivia = true := by
  rw [isComment] at comment
  simp [isTrivia, comment]

theorem isComment_of_not_isTrivia (noTrivia : t.isTrivia = false) : t.isComment = false := by
  cases comment : t.isComment with
  | false => rfl
  | true => rw [isTrivia_of_isComment comment] at noTrivia; cases noTrivia

theorem uncommented_cons_of_comment (comment : t.isComment = true) (ts : List Token) :
    uncommented (t :: ts) = uncommented ts :=
  List.filter_cons_of_neg (by simp [comment])

theorem uncommented_cons (spoken : t.isComment = false) (ts : List Token) :
    uncommented (t :: ts) = t :: uncommented ts :=
  List.filter_cons_of_pos (by simp [spoken])

theorem uncommented_reverse (ts : List Token) :
    uncommented ts.reverse = (uncommented ts).reverse :=
  List.filter_reverse

/-- What is skipped as trivia is skipped without comments, too. -/
theorem isComment_or_isTrivia : (fun t => !(!isComment t) || t.isTrivia) = isTrivia := by
  funext t
  cases comment : t.isComment with
  | true => rw [isTrivia_of_isComment comment]; rfl
  | false => rfl

theorem takeWhile_uncommented (ts : List Token) :
    (uncommented ts).takeWhile isTrivia = uncommented (ts.takeWhile isTrivia) := by
  rw [uncommented, List.takeWhile_filter, isComment_or_isTrivia, uncommented]

theorem dropWhile_uncommented (ts : List Token) :
    (uncommented ts).dropWhile isTrivia = uncommented (ts.dropWhile isTrivia) := by
  rw [uncommented, List.dropWhile_filter, isComment_or_isTrivia, uncommented]

theorem rtakeWhile_uncommented (ts : List Token) :
    (uncommented ts).rtakeWhile isTrivia = uncommented (ts.rtakeWhile isTrivia) := by
  rw [List.rtakeWhile, ← uncommented_reverse, takeWhile_uncommented, ← uncommented_reverse,
    List.rtakeWhile]

/-- Comments can be left out before or after trimming. -/
theorem trim_uncommented (ts : List Token) : trim (uncommented ts) = uncommented (trim ts) := by
  rw [trim, dropWhile_uncommented, ← uncommented_reverse, dropWhile_uncommented,
    ← uncommented_reverse, trim]

theorem trim_uncommented_eq_cons (trimmed : trim ts = first :: rest) :
    trim (uncommented ts) = first :: uncommented rest := by
  rw [trim_uncommented, trimmed,
    uncommented_cons (isComment_of_not_isTrivia (isTrivia_of_trim_eq_cons trimmed))]

theorem sourceText_uncommented (ts : List Token) : sourceText (uncommented ts) = sourceText ts := by
  rw [sourceText, uncommented, List.filter_filter, sourceText]
  simp only [Bool.and_self]

end Token

namespace Node

variable {strict : Prop} {ns ns' ms ms' : List Node}

theorem texts_append (ns ms : List Node) : texts (ns ++ ms) = texts ns ++ texts ms := by
  induction ns with
  | nil => rw [List.nil_append, texts, String.empty_append]
  | cons n ns ih => rw [List.cons_append, texts, texts, ih, String.append_assoc]

/-- The second trees stand for the same text as the first ones. If `strict` holds they are equal. -/
structure Echoes (strict : Prop) (ns ns' : List Node) : Prop where
  texts : Node.texts ns' = Node.texts ns
  empty : ns' = [] ↔ ns = []
  same : strict → ns' = ns

theorem echoes_refl (ns : List Node) : Echoes strict ns ns :=
  ⟨rfl, Iff.rfl, fun _ => rfl⟩

theorem Echoes.append (left : Echoes strict ns ns') (right : Echoes strict ms ms') :
    Echoes strict (ns ++ ms) (ns' ++ ms') where
  texts := by rw [texts_append, texts_append, left.texts, right.texts]
  empty := by rw [List.append_eq_nil_iff, List.append_eq_nil_iff, left.empty, right.empty]
  same holds := by rw [left.same holds, right.same holds]

/-- Nodes that differ in their children only. -/
theorem Echoes.node (children : Echoes strict ns ns') (kind : NodeKind) (content : String)
    (p : Position) : Echoes strict [⟨kind, content, p, ns⟩] [⟨kind, content, p, ns'⟩] where
  texts := by
    have empty : ns'.isEmpty = ns.isEmpty := by
      rw [Bool.eq_iff_iff, List.isEmpty_iff, List.isEmpty_iff, children.empty]
    simp only [Node.texts, Node.text, children.texts, empty]
  empty := by simp
  same holds := by rw [children.same holds]

/-- A word in front of brackets stands for the same text as a call. -/
theorem Echoes.call (children : Echoes strict ns ns') (apart : ¬ strict) (word : String)
    (p q : Position) :
    Echoes strict [.leaf .ident word p, .branch .parentheses q ns]
      [⟨.function, word, p, [.branch .arguments q ns']⟩] where
  texts := by
    simp [Node.texts, Node.text, leaf, branch, assemble, children.texts]
  empty := by simp
  same holds := absurd holds apart

end Node

/-! ### Groups -/

namespace Group

variable {strict : Prop} {w o c : Token} {g : Group} {ts : List Token}
  {gs gs' hs hs' inner inner' current current' : List Group} {pending pending' : List Pending}
  {p p' : Pending} {inSelector : Bool} {d : Nat}

/-- The nodes of two lists of groups are made one after the other. -/
theorem nodesOf_append (gs hs : List Group) : nodesOf inSelector d (gs ++ hs) = (do
    let first ← nodesOf inSelector d gs
    let rest ← nodesOf inSelector d hs
    return first ++ rest) := by
  induction gs with
  | nil =>
    show nodesOf inSelector d hs = _
    cases nodesOf inSelector d hs <;> rfl
  | cons g gs ih =>
    rw [List.cons_append, nodesOf, ih, nodesOf]
    cases g.nodes inSelector d with
    | error e => rfl
    | ok first =>
      cases nodesOf inSelector d gs with
      | error e => rfl
      | ok middle =>
        cases nodesOf inSelector d hs with
        | error e => rfl
        | ok rest => exact congrArg Except.ok (List.append_assoc first middle rest).symm

theorem nodesOf_singleton (g : Group) : nodesOf inSelector d [g] = g.nodes inSelector d := by
  rw [nodesOf, nodesOf]
  cases g.nodes inSelector d with
  | error e => rfl
  | ok first => exact congrArg Except.ok (List.append_nil first)

/-- Comments have no nodes. -/
theorem nodesOf_comments {comments : List Token} (all : ∀ c ∈ comments, c.isComment = true)
    (gs : List Group) :
    nodesOf inSelector d (comments.map single ++ gs) = nodesOf inSelector d gs := by
  induction comments with
  | nil => rfl
  | cons c cs ih =>
    obtain ⟨comment, later⟩ := List.forall_mem_cons.mp all
    have kind : c.kind = .comment := by simpa [Token.isComment] using comment
    have none : c.leaf? inSelector = none := by simp [Token.leaf?, kind]
    rw [List.map_cons, List.cons_append, nodesOf, nodes, none, ih later]
    cases nodesOf inSelector d gs <;> rfl

/-- The second groups have the nodes of the first ones, at every depth. -/
def Echoes (strict : Prop) (gs gs' : List Group) : Prop :=
  ∀ inSelector d, Agrees (Node.Echoes strict) (nodesOf inSelector d gs) (nodesOf inSelector d gs')

theorem echoes_refl (gs : List Group) : Echoes strict gs gs := by
  intro inSelector d
  exact agrees_refl Node.echoes_refl _

theorem Echoes.append (left : Echoes strict gs gs') (right : Echoes strict hs hs') :
    Echoes strict (gs ++ hs) (gs' ++ hs') := by
  intro inSelector d
  rw [nodesOf_append, nodesOf_append]
  apply (left inSelector d).bind
  intro first first' echoes
  apply (right inSelector d).bind
  intro rest rest' behind
  exact .ok (echoes.append behind)

theorem echoes_comment (comment : c.isComment = true) : Echoes strict [single c] [] := by
  intro inSelector d
  have none : nodesOf inSelector d [single c] = nodesOf inSelector d [] :=
    nodesOf_comments (List.forall_mem_singleton.mpr comment) []
  rw [none]
  exact agrees_refl Node.echoes_refl _

/-- What is in brackets is nested too deep in both, or its nodes are put in a node. -/
theorem agrees_bracketed {make make' : List Node → List Node} (inside : Echoes strict inner inner')
    (e : SyntaxError)
    (made : ∀ ns ns', Node.Echoes strict ns ns' → Node.Echoes strict (make ns) (make' ns')) :
    Agrees (Node.Echoes strict)
      (if maxNesting ≤ d then .error e
        else do
          let children ← nodesOf inSelector (d + 1) inner
          return make children)
      (if maxNesting ≤ d then .error e
        else do
          let children ← nodesOf inSelector (d + 1) inner'
          return make' children) := by
  by_cases deep : maxNesting ≤ d
  · rw [if_pos deep, if_pos deep]
    exact .error e
  · rw [if_neg deep, if_neg deep]
    apply (inside inSelector (d + 1)).bind
    intro ns ns' echoes
    exact .ok (made ns ns' echoes)

theorem Echoes.parens (inside : Echoes strict inner inner') (o : Token) :
    Echoes strict [parens o inner] [parens o inner'] := by
  intro inSelector d
  rw [nodesOf_singleton, nodesOf_singleton, nodes, nodes]
  apply agrees_bracketed inside
  intro ns ns' echoes
  exact echoes.node .parentheses "" o.position

theorem Echoes.call (inside : Echoes strict inner inner') (w o : Token) :
    Echoes strict [call w o inner] [call w o inner'] := by
  intro inSelector d
  rw [nodesOf_singleton, nodesOf_singleton, nodes, nodes]
  apply agrees_bracketed inside
  intro ns ns' echoes
  exact (echoes.node .arguments "" o.position).node .function w.text w.position

/-- A word that comments cut off from brackets, and the call that they make without comments. -/
theorem Echoes.join {comments : List Token} (inside : Echoes strict inner inner')
    (apart : ¬ strict) (isWord : w.kind = .word) (all : ∀ c ∈ comments, c.isComment = true)
    (o : Token) :
    Echoes strict (.single w :: (comments.map single ++ [.parens o inner])) [.call w o inner'] := by
  intro inSelector d
  have leaf : w.leaf? inSelector = some (.leaf .ident w.text w.position) := by
    simp [Token.leaf?, isWord]
  have front : nodesOf inSelector d (.single w :: (comments.map single ++ [.parens o inner])) =
      if maxNesting ≤ d then .error ⟨.nestingTooDeep, o.position⟩
      else do
        let children ← nodesOf inSelector (d + 1) inner
        return [.leaf .ident w.text w.position, .branch .parentheses o.position children] := by
    rw [nodesOf, nodesOf_comments all, nodesOf_singleton, nodes, nodes, leaf]
    split
    · rfl
    · cases nodesOf inSelector (d + 1) inner <;> rfl
  rw [front, nodesOf_singleton, nodes]
  apply agrees_bracketed inside
  intro ns ns' echoes
  exact echoes.call apart w.text w.position o.position

/-- The group is a pair of brackets. -/
def IsPair (g : Group) : Prop :=
  ∀ t, g ≠ single t

/-- The groups of some tokens and of the same tokens without comments, the last group first. -/
inductive Cleared (strict : Prop) : List Group → List Group → Prop
  | nil : Cleared strict [] []
  | token (t : Token) {gs gs' : List Group} (rest : Cleared strict gs gs') :
      Cleared strict (single t :: gs) (single t :: gs')
  | comment {c : Token} {gs gs' : List Group} (isComment : c.isComment = true)
      (rest : Cleared strict gs gs') : Cleared strict (single c :: gs) gs'
  | pair {g g' : Group} {below gs gs' : List Group} (isPair : g.IsPair) (isPair' : g'.IsPair)
      (echoes : Echoes strict (below.reverse ++ [g]) [g']) (rest : Cleared strict gs gs') :
      Cleared strict (g :: (below ++ gs)) (g' :: gs')

/-- Groups without comments echo the groups with them. -/
theorem Cleared.echoes (h : Cleared strict gs gs') : Echoes strict gs.reverse gs'.reverse := by
  induction h with
  | nil => exact echoes_refl []
  | token t _ ih =>
    rw [List.reverse_cons, List.reverse_cons]
    exact ih.append (echoes_refl [.single t])
  | comment isComment _ ih =>
    rw [List.reverse_cons]
    have both := ih.append (echoes_comment isComment)
    rwa [List.append_nil] at both
  | pair _ _ echoes _ ih =>
    rw [List.reverse_cons, List.reverse_cons, List.reverse_append, List.append_assoc]
    exact ih.append echoes

/-- The same word is on top of both stacks, apart from comments on the first one, or there is a word
    on top of neither. -/
theorem Cleared.topWord (h : Cleared strict gs gs') :
    (∃ (w : Token) (comments : List Token) (hs hs' : List Group),
      gs = comments.map single ++ single w :: hs ∧ TopWord w gs' hs' ∧
        (∀ c ∈ comments, c.isComment = true) ∧ Cleared strict hs hs') ∨
    ((∀ w hs, ¬ TopWord w gs hs) ∧ ∀ w hs, ¬ TopWord w gs' hs) := by
  induction h with
  | nil =>
    right
    refine ⟨?_, ?_⟩
    · intro w hs top
      cases top.1
    · intro w hs top
      cases top.1
  | @token t gs gs' rest _ =>
    by_cases word : t.kind = .word
    · exact .inl ⟨t, [], gs, gs', rfl, ⟨rfl, word⟩, List.forall_mem_nil _, rest⟩
    · right
      refine ⟨?_, ?_⟩
      · intro w hs top
        cases top.1
        exact word top.2
      · intro w hs top
        cases top.1
        exact word top.2
  | @comment c gs gs' isComment rest ih =>
    rcases ih with ⟨w, comments, hs, hs', rfl, top, all, below⟩ | ⟨-, noWord⟩
    · exact .inl ⟨w, c :: comments, hs, hs', rfl, top, List.forall_mem_cons.mpr ⟨isComment, all⟩,
        below⟩
    · right
      refine ⟨?_, noWord⟩
      intro w hs top
      cases top.1
      simp [Token.isComment, top.2] at isComment
  | pair isPair isPair' _ _ _ =>
    right
    refine ⟨?_, ?_⟩
    · intro w hs top
      exact isPair w (List.head_eq_of_cons_eq top.1)
    · intro w hs top
      exact isPair' w (List.head_eq_of_cons_eq top.1)

/-- The single tokens on top of a stack, the last first. -/
def topTokens : List Group → List Token
  | single t :: gs => t :: topTokens gs
  | _ => []

theorem topTokens_map_single (ts : List Token) (gs : List Group) :
    topTokens (ts.map single ++ gs) = ts ++ topTokens gs := by
  induction ts with
  | nil => rfl
  | cons t ts ih => exact congrArg (t :: ·) ih

theorem topTokens_of_isPair (isPair : g.IsPair) (gs : List Group) : topTokens (g :: gs) = [] := by
  cases g with
  | single t => exact absurd rfl (isPair t)
  | parens => rfl
  | call => rfl

/-- A bracket that is open, with comments before it and without them. The second one may belong to a
    word that has been cut off from the first one by comments. -/
inductive Waits (strict : Prop) : Pending → Pending → Prop
  | alike {word : Option Token} {o : Token} {before before' : List Group}
      (outside : Cleared strict before before') : Waits strict ⟨word, o, before⟩ ⟨word, o, before'⟩
  | join {w o : Token} {comments : List Token} {before before' : List Group} (apart : ¬ strict)
      (isWord : w.kind = .word) (all : ∀ c ∈ comments, c.isComment = true)
      (outside : Cleared strict before before') :
      Waits strict ⟨none, o, comments.map single ++ single w :: before⟩ ⟨some w, o, before'⟩

theorem Waits.opening_eq (h : Waits strict p p') : p'.opening = p.opening := by
  cases h <;> rfl

/-- What stands before an open bracket has nodes in both cases, or the same error. -/
theorem Waits.before (h : Waits strict p p') (inSelector : Bool) (d : Nat) :
    Agrees (fun _ _ => True) (nodesOf inSelector d p.before.reverse)
      (nodesOf inSelector d p'.before.reverse) := by
  cases h with
  | alike outside => exact (outside.echoes inSelector d).imp fun _ _ _ => trivial
  | @join w o comments before before' apart isWord all outside =>
    have split : (comments.map single ++ single w :: before).reverse =
        before.reverse ++ ((w :: comments.reverse).map single ++ []) := by
      simp
    have singles : nodesOf inSelector d ((w :: comments.reverse).map single ++ []) =
        .ok (Token.leaves inSelector (w :: comments.reverse) ++ []) :=
      nodesOf_singles.mpr ⟨[], rfl, rfl⟩
    have outer := outside.echoes inSelector d
    rw [split, nodesOf_append, singles]
    generalize nodesOf inSelector d before.reverse = nodes at outer
    generalize nodesOf inSelector d before'.reverse = nodes' at outer
    cases outer with
    | ok _ => exact .ok trivial
    | error e => exact .error e

/-- A bracket opens behind groups with comments and without them. -/
theorem Cleared.ofOpening (h : Cleared strict current current') (opening : o.isDelimiter '(' = true)
    (free : strict → ¬ Token.CommentedCall ((topTokens current).reverse ++ o :: ts)) :
    Waits strict (.ofOpening o current) (.ofOpening o current') := by
  rcases h.topWord with ⟨w, comments, hs, hs', rfl, top, all, below⟩ | ⟨noWord, noWord'⟩
  · rw [Pending.ofOpening_of_word o top]
    cases comments with
    | nil =>
      rw [List.map_nil, List.nil_append, Pending.ofOpening_of_word o ⟨rfl, top.2⟩]
      exact .alike below
    | cons c cs =>
      have isComment := all c List.mem_cons_self
      have noWord (v : Token) (gs : List Group) :
          ¬ TopWord v ((c :: cs).map single ++ single w :: hs) gs := by
        intro found
        cases found.1
        simp [Token.isComment, found.2] at isComment
      rw [Pending.ofOpening_of_not o noWord]
      have apart : ¬ strict := by
        intro holds
        apply free holds
        refine ⟨w, (c :: cs).reverse, o, ?_, top.2, by simp, ?_, opening⟩
        · rw [topTokens_map_single]
          exact ⟨(topTokens hs).reverse, ts, by simp [topTokens]⟩
        · intro c hc
          exact all c (List.mem_reverse.mp hc)
      exact .join apart top.2 all below
  · rw [Pending.ofOpening_of_not o noWord, Pending.ofOpening_of_not o noWord']
    exact .alike h

theorem Pending.isPair_close (p : Pending) (inner : List Group) : (p.close inner).IsPair := by
  intro t
  obtain ⟨word, o, before⟩ := p
  cases word with
  | none => exact nofun
  | some w => exact nofun

/-- A bracket closes, and the pair stands on what was before it. -/
theorem Waits.close (h : Waits strict p p') (inside : Echoes strict inner inner') :
    Cleared strict (p.close inner :: p.before) (p'.close inner' :: p'.before) := by
  cases h with
  | @alike word o before before' outside =>
    have echoes : Echoes strict ([].reverse ++ [Pending.close ⟨word, o, before⟩ inner])
        [Pending.close ⟨word, o, before'⟩ inner'] := by
      cases word with
      | none => exact inside.parens o
      | some w => exact inside.call w o
    exact .pair (Pending.isPair_close _ _) (Pending.isPair_close _ _) echoes outside
  | @join w o comments before before' apart isWord all outside =>
    have reversed : ∀ c ∈ comments.reverse, c.isComment = true := by
      intro c hc
      exact all c (List.mem_reverse.mp hc)
    have echoes : Echoes strict ((comments.map single ++ [single w]).reverse ++ [.parens o inner])
        [.call w o inner'] := by
      have joined := inside.join apart isWord reversed o
      rw [List.map_reverse] at joined
      simpa using joined
    have stack : comments.map single ++ single w :: before =
        (comments.map single ++ [single w]) ++ before := by
      simp
    show Cleared strict (Group.parens o inner :: (comments.map single ++ single w :: before)) _
    rw [stack]
    exact .pair (Pending.isPair_close ⟨none, o, []⟩ inner) (Pending.isPair_close _ _) echoes outside

/-- Both pairings have the same fault or none, and then their groups have the same nodes. In front
    of a fault there is the same error among the nodes, or none. -/
structure SameOutcome (strict : Prop) (x x' : List Group × Option SyntaxError) : Prop where
  fault : x'.2 = x.2
  nodes : ∀ inSelector d, Agrees (fun ns ns' => x.2 = none → Node.Echoes strict ns ns')
    (nodesOf inSelector d x.1) (nodesOf inSelector d x'.1)

/-- The tokens end, with or without brackets that are open. -/
theorem pair_nil_uncommented (waiting : List.Forall₂ (Waits strict) pending pending')
    (stack : Cleared strict current current') :
    SameOutcome strict (pair pending current []) (pair pending' current' []) := by
  have reversed := List.forall₂_reverse_iff.mpr waiting
  rw [pair, pair, List.getLast?_eq_head?_reverse, List.getLast?_eq_head?_reverse]
  generalize pending.reverse = ps at reversed
  generalize pending'.reverse = ps' at reversed
  cases reversed with
  | nil =>
    refine ⟨rfl, ?_⟩
    intro inSelector d
    exact (stack.echoes inSelector d).imp fun _ _ echoes _ => echoes
  | cons waits _ =>
    refine ⟨by simp [waits.opening_eq], ?_⟩
    intro inSelector d
    apply (waits.before inSelector d).imp
    intro _ _ _ none
    cases none

/-- Tokens are paired alike without their comments. -/
theorem pair_uncommented (waiting : List.Forall₂ (Waits strict) pending pending')
    (stack : Cleared strict current current')
    (free : strict → ¬ Token.CommentedCall ((topTokens current).reverse ++ ts)) :
    SameOutcome strict (pair pending current ts)
      (pair pending' current' (Token.uncommented ts)) := by
  induction ts generalizing pending pending' current current' with
  | nil => exact pair_nil_uncommented waiting stack
  | cons t ts ih =>
    have behind (holds : strict) : ¬ Token.CommentedCall ts := by
      intro call
      apply free holds
      exact call.mono ⟨(topTokens current).reverse ++ [t], [], by simp⟩
    have single (holds : strict) :
        ¬ Token.CommentedCall ((topTokens (single t :: current)).reverse ++ ts) := by
      simpa [topTokens] using free holds
    cases comment : t.isComment with
    | true =>
      have noDelimiter := Token.isDelimiter_of_isTrivia (Token.isTrivia_of_isComment comment)
      rw [Token.uncommented_cons_of_comment comment,
        pair_single (noDelimiter _) (noDelimiter _)]
      exact ih waiting (.comment comment stack) single
    | false =>
      rw [Token.uncommented_cons comment]
      cases opening : t.isDelimiter '(' with
      | true =>
        rw [pair_opening opening, pair_opening opening]
        exact ih (.cons (stack.ofOpening opening free) waiting) .nil behind
      | false =>
        cases closing : t.isDelimiter ')' with
        | false =>
          rw [pair_single opening closing, pair_single opening closing]
          exact ih waiting (.token t stack) single
        | true =>
          cases waiting with
          | nil =>
            rw [pair_closing_nil closing, pair_closing_nil closing]
            refine ⟨rfl, ?_⟩
            intro inSelector d
            apply (stack.echoes inSelector d).imp
            intro _ _ _ none
            cases none
          | cons waits waiting =>
            rw [pair_closing closing, pair_closing closing]
            refine ih waiting (waits.close stack.echoes) ?_
            rw [topTokens_of_isPair (Pending.isPair_close _ _)]
            exact behind

end Group

/-- What stands in values, selectors and calls is read alike without comments. -/
theorem values_uncommented {strict : Prop} {ts : List Token} (inSelector : Bool)
    (free : strict → ¬ Token.CommentedCall ts) :
    Agrees (Node.Echoes strict) (values inSelector ts)
      (values inSelector (Token.uncommented ts)) := by
  have same : Group.SameOutcome strict (Group.ofTokens ts)
      (Group.ofTokens (Token.uncommented ts)) := Group.pair_uncommented .nil .nil free
  unfold values
  generalize Group.ofTokens ts = outcome at same
  generalize Group.ofTokens (Token.uncommented ts) = outcome' at same
  obtain ⟨gs, fault⟩ := outcome
  obtain ⟨gs', fault'⟩ := outcome'
  have fault_eq : fault' = fault := same.fault
  apply (same.nodes inSelector 0).bind
  intro ns ns' echoes
  rw [fault_eq]
  cases fault with
  | none => exact .ok (echoes rfl)
  | some e => exact .error e

end SheetLint
