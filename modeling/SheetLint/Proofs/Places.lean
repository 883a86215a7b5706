import SheetLint.Proofs.Origins
import SheetLint.Proofs.Tiling

/-!
# Places of nodes

Most kinds of nodes begin with a token of their own: from left to right, such nodes stand at the
places of tokens that follow each other, so no two of them stand at the same place
(`Stylesheet.nodup_places`). Nodes of the other kinds stand where their first child stands
(`Stylesheet.everywhere_seated`).
-/

namespace SheetLint

/-- A node of such a kind begins with a token with which no other of these nodes begins. -/
def NodeKind.ownsToken : NodeKind → Bool
  | stylesheet | ruleset | selector | declaration | value | mixinCall => false
  | _ => true

namespace Node

/-- The nodes of some trees that have a token of their own, from left to right. -/
def owners (ns : List Node) : List Node :=
  (walkAll ns).filter (·.kind.ownsToken)

/-- The places of nodes that have a token of their own. -/
def places (ns : List Node) : List Position :=
  (owners ns).map (·.position)

@[simp]
theorem places_nil : places [] = [] := rfl

theorem places_append (ns ms : List Node) : places (ns ++ ms) = places ns ++ places ms := by
  rw [places, owners, walkAll_append, List.filter_append, List.map_append]
  rfl

theorem places_cons (n : Node) (ns : List Node) : places (n :: ns) = places [n] ++ places ns :=
  places_append [n] ns

theorem places_singleton (n : Node) :
    places [n] = (if n.kind.ownsToken then [n.position] else []) ++ places n.children := by
  rw [places, owners, walkAll_cons, walk_eq, walkAll_nil, List.append_nil, List.filter_cons]
  split <;> rfl

theorem places_leaf (kind : NodeKind) (owns : kind.ownsToken = true) (content : String)
    (p : Position) : places [leaf kind content p] = [p] := by
  rw [places_singleton]
  simp [leaf, owns]

end Node

namespace Token

/-- The places of some tokens. -/
def places (ts : List Token) : List Position :=
  ts.map (·.position)

@[simp]
theorem places_append (ts us : List Token) : places (ts ++ us) = places ts ++ places us :=
  List.map_append

@[simp]
theorem places_cons (t : Token) (ts : List Token) :
    places (t :: ts) = t.position :: places ts := rfl

@[simp]
theorem places_nil : places [] = [] := rfl

theorem places_trim (ts : List Token) : (places (trim ts)).Sublist (places ts) := by
  obtain ⟨lead, trail, split, -, -⟩ := exists_trim ts
  conv_rhs => rw [split]
  rw [places_append, places_append]
  exact (List.sublist_append_left _ _).trans (List.sublist_append_right _ _)

/-- Trimming tokens that do not begin with trivia takes trivia away at the end only. -/
theorem exists_trim_of_start {first : Token} (rest : List Token) (start : first.isTrivia = false) :
    ∃ trail, first :: rest = trim (first :: rest) ++ trail := by
  obtain ⟨trail, split, -⟩ := exists_trim_takeWhile (first :: rest)
  rw [List.takeWhile_cons_of_neg (by simp [start]), List.nil_append] at split
  exact ⟨trail, split⟩

end Token

/-- A leaf stands where its token stands. -/
theorem places_leaf? (inSelector : Bool) (t : Token) :
    (Node.places (t.leaf? inSelector).toList).Sublist [t.position] := by
  have leaf (kind : NodeKind) (content : String) :
      (Node.places [Node.leaf kind content t.position]).Sublist [t.position] := by
    rw [Node.places_singleton]
    split <;> simp [Node.leaf]
  unfold Token.leaf?
  cases t.kind with
  | comment => simp
  | hash =>
    dsimp only
    split
    · exact leaf _ _
    · exact leaf _ _
  | _ => exact leaf _ _

/-- The nodes of groups stand at the places of the tokens that the groups cover. -/
theorem places_nodesOf {inSelector : Bool} {d : Nat} {gs : List Group} {ts : List Token}
    {ns : List Node} (covers : Group.Covers gs ts) (h : Group.nodesOf inSelector d gs = .ok ns) :
    (Node.places ns).Sublist (Token.places ts) := by
  induction covers generalizing d ns with
  | nil =>
    cases h
    exact List.Sublist.refl _
  | @single t _ _ _ _ _ ih =>
    obtain ⟨rest, behind, rfl⟩ := Group.nodesOf_single.mp h
    rw [Node.places_append]
    exact (places_leaf? inSelector t).append (ih behind)
  | @parens o c _ _ us ts _ _ _ _ ihWithin ih =>
    obtain ⟨-, children, rest, inside, behind, rfl⟩ := Group.nodesOf_parens.mp h
    rw [Node.places_cons, Node.places_singleton, Token.places_cons, Token.places_append,
      Token.places_cons]
    exact ((ihWithin inside).append ((ih behind).cons _)).cons_cons o.position
  | @call w o c _ _ us ts _ _ _ _ _ ihWithin ih =>
    obtain ⟨-, children, rest, inside, behind, rfl⟩ := Group.nodesOf_call.mp h
    rw [Node.places_cons, Node.places_singleton, Node.places_singleton, Token.places_cons,
      Token.places_cons, Token.places_append, Token.places_cons]
    have brackets := ((ihWithin inside).append ((ih behind).cons c.position)).cons_cons o.position
    exact brackets.cons_cons w.position

theorem places_values {inSelector : Bool} {ts : List Token} {ns : List Node}
    (h : values inSelector ts = .ok ns) : (Node.places ns).Sublist (Token.places ts) := by
  obtain ⟨gs, covers, nodes⟩ := covers_of_values h
  exact places_nodesOf covers nodes

namespace Statement

variable {first : Token} {rest : List Token} {node : Node}

/-- The space of some trivia stands at one of them. -/
theorem places_space? (trivia : List Token) :
    (Node.places (space? trivia).toList).Sublist (Token.places trivia) := by
  unfold space?
  split
  · exact List.nil_sublist _
  · rename_i blank more found
    have here : [blank].Sublist trivia := by
      have front : [blank].Sublist (trivia.filter (·.kind == .whitespace)) := by simp [found]
      exact front.trans List.filter_sublist
    exact here.map Token.position

theorem places_value (p : Position) (nodes : List Node) :
    Node.places [.branch .value p nodes] = Node.places nodes := by
  rw [Node.places_singleton]
  rfl

/-- The nodes of a declaration stand at places of its tokens, in their order. -/
theorem places_declaration {before after : List Token} {colon : Token}
    (start : ∀ t ∈ before.head?, t.isTrivia = false)
    (h : declaration before colon after = .ok node) :
    (Node.places [node]).Sublist (Token.places (before ++ colon :: after)) := by
  obtain ⟨first, more, nodes, property, value, rfl⟩ := declaration_eq_ok.mp h
  obtain ⟨trail, split⟩ : ∃ trail, before = first :: more ++ trail := by
    cases before with
    | nil => cases property
    | cons t before =>
      obtain ⟨trail, split⟩ := Token.exists_trim_of_start before (start t rfl)
      exact ⟨trail, property ▸ split⟩
  obtain ⟨trail', split', -⟩ := Token.exists_trim_takeWhile after
  have behind : before.drop (first :: more).length = trail := by
    rw [split, List.drop_left]
  have blanks := places_space? trail
  have moreBlanks := places_space? (after.takeWhile Token.isTrivia)
  have pieces : (Node.places nodes).Sublist (Token.places (Token.trim after ++ trail')) := by
    rw [Token.places_append]
    exact (places_values value).trans (List.sublist_append_left _ _)
  have flat : Node.places [declarationNode before after colon first more nodes] =
      ([first.position] ++ Node.places (space? trail).toList) ++ ([colon.position] ++
        (Node.places (space? (after.takeWhile Token.isTrivia)).toList ++ Node.places nodes)) := by
    rw [Node.places_singleton, declarationNode, behind, Node.children_branch]
    simp only [Node.places_append, places_value, Node.places_leaf .property rfl,
      Node.places_leaf .colon rfl, List.append_assoc]
    rfl
  have left : ([first.position] ++ Node.places (space? trail).toList).Sublist
      (Token.places before) := by
    rw [split, Token.places_append]
    exact (List.cons_sublist_cons.mpr (List.nil_sublist _)).append blanks
  have right : (Node.places (space? (after.takeWhile Token.isTrivia)).toList ++
      Node.places nodes).Sublist (Token.places after) := by
    conv_rhs => rw [split']
    rw [Token.places_append]
    exact moreBlanks.append pieces
  rw [flat, Token.places_append, Token.places_cons]
  exact left.append (right.cons_cons colon.position)

/-- The nodes of an at-rule stand at places of its tokens, and those of its block behind them. -/
theorem places_atRule {name : Token} {block : Option Node}
    (h : atRule name rest block = .ok node) :
    (Node.places [node]).Sublist (Token.places (name :: rest) ++ Node.places block.toList) := by
  obtain ⟨value, rfl, made⟩ := atRule_eq_ok.mp h
  have within : (Node.places value).Sublist (Token.places rest) := by
    rcases made with ⟨-, rfl⟩ | ⟨first, more, nodes, trimmed, read, rfl⟩
    · exact List.nil_sublist _
    · rw [places_value]
      refine (places_values read).trans ?_
      rw [← trimmed]
      exact Token.places_trim rest
  rw [Node.places_singleton, Node.places_append, Token.places_cons]
  exact (within.append_right _).cons_cons name.position

theorem places_withBlock {block : Node} (h : withBlock first rest block = .ok node) :
    (Node.places [node]).Sublist (Token.places (first :: rest) ++ Node.places [block]) := by
  rcases withBlock_eq_ok.mp h with ⟨-, read⟩ | ⟨-, nodes, read, rfl⟩
  · exact places_atRule read
  · rw [Node.places_singleton, Node.children_branch, Node.places_cons, Node.places_singleton]
    exact (places_values read).append_right _

/-- The nodes of a statement without a block stand at places of its tokens, in their order. -/
theorem places_withoutBlock (start : first.isTrivia = false)
    (h : withoutBlock first rest = .ok node) :
    (Node.places [node]).Sublist (Token.places (first :: rest)) := by
  cases withoutBlock_eq_ok.mp h with
  | @declaration before _ _ _ cut read =>
    obtain ⟨split, -⟩ := splitColon?_eq_some cut
    have startBefore : ∀ t ∈ before.head?, t.isTrivia = false := by
      intro t ht
      obtain ⟨more, rfl⟩ := List.head?_eq_some_iff.mp ht
      cases split
      exact start
    rw [split]
    exact places_declaration startBefore read
  | atRule _ _ read => simpa using places_atRule read
  | call _ _ read =>
    rw [Node.places_singleton]
    exact places_values read

end Statement

namespace Reader

variable {r r' : Reader} {t : Token} {us ts : List Token}

/-- The places that the blocks which are open account for: those of what stands before each, of the
    tokens of its head, and of its brace. -/
def placesOfBlocks : List OpenBlock → List Position
  | [] => []
  | b :: outer =>
    placesOfBlocks outer ++ Node.places b.before.reverse ++ Token.places (b.first :: b.rest)
      ++ [b.brace]

/-- The places that a reader accounts for. -/
def places (r : Reader) : List Position :=
  placesOfBlocks r.blocks ++ Node.places r.done.reverse ++ Token.places r.statement.reverse

/-- Ending a statement adds no place. -/
theorem places_endStatement (h : r.endStatement = .ok r') : r'.places.Sublist r.places := by
  rcases endStatement_eq_ok.mp h with ⟨-, rfl⟩ | ⟨first, rest, node, trimmed, read, rfl⟩
  · exact (List.nil_sublist _).append_left _
  · have made := Statement.places_withoutBlock (Token.isTrivia_of_trim_eq_cons trimmed) read
    have within : (Node.places [node]).Sublist (Token.places r.statement.reverse) := by
      refine made.trans ?_
      rw [← trimmed]
      exact Token.places_trim _
    simp only [places, List.reverse_cons, Node.places_append, List.reverse_nil, Token.places_nil,
      List.append_nil, ← List.append_assoc]
    exact within.append_left _

theorem places_openBlock {p : Position} (h : r.openBlock p = .ok r') :
    r'.places.Sublist (r.places ++ [p]) := by
  obtain ⟨first, rest, trimmed, -, rfl⟩ := openBlock_eq_ok.mp h
  have head : (Token.places (first :: rest)).Sublist (Token.places r.statement.reverse) := by
    rw [← trimmed]
    exact Token.places_trim _
  simp only [places, placesOfBlocks, List.reverse_nil, Node.places_nil, Token.places_nil,
    List.append_nil]
  exact (head.append_left _).append_right _

/-- Closing a block adds no place. -/
theorem places_closeBlock {p : Position} (ended : r.statement = []) (h : r.closeBlock p = .ok r') :
    r'.places.Sublist r.places := by
  obtain ⟨b, outer, node, inside, read, rfl⟩ := closeBlock_eq_ok.mp h
  have made := Statement.places_withBlock read
  have block : Node.places [.branch .block b.brace r.done.reverse] =
      b.brace :: Node.places r.done.reverse := by
    rw [Node.places_singleton]
    rfl
  rw [block] at made
  have all := made.append_left (placesOfBlocks outer ++ Node.places b.before.reverse)
  simpa [places, inside, placesOfBlocks, ended, Node.places_append] using all

/-- A token adds at most its own place. -/
theorem places_step (h : Step r t r') : r'.places.Sublist (r.places ++ [t.position]) := by
  cases h with
  | keep => simp [places]
  | semicolon _ _ ended =>
    exact (places_endStatement ended).trans (List.sublist_append_left _ _)
  | openBlock _ _ opened => exact places_openBlock opened
  | closeBlock _ _ ended closed =>
    have after := places_closeBlock (endStatement_frame ended).1 closed
    exact (after.trans (places_endStatement ended)).trans (List.sublist_append_left _ _)

end Reader

namespace Stylesheet

/-- From left to right, nodes with a token of their own stand at places of tokens. -/
theorem sublist_places {ts : List Token} {root : Node} (h : ofTokens ts = .ok root) :
    (Node.places [root]).Sublist (Token.places ts) := by
  obtain ⟨r, read, finished⟩ := bind_eq_ok.mp h
  have accounts : r.places.Sublist (Token.places ts) := by
    refine Reader.read_invariant (P := fun us r => r.places.Sublist (Token.places us))
      (List.Sublist.refl _) ?_ read
    intro us t r₁ r₂ _ before step
    rw [Token.places_append]
    exact (Reader.places_step step).trans (before.append_right _)
  obtain ⟨-, last, ended, closed, rfl⟩ := Reader.finish_eq_ok.mp finished
  have sheet : Node.places [.branch .stylesheet .start last.done.reverse] = last.places := by
    rw [Node.places_singleton, Reader.places, closed, (Reader.endStatement_frame ended).1]
    simp [Reader.placesOfBlocks, Node.branch, NodeKind.ownsToken]
  rw [sheet]
  exact (Reader.places_endStatement ended).trans accounts

/-- No two nodes with a token of their own stand at the same place. -/
theorem nodup_places {source : String} {root : Node} (h : parse source = .ok root) :
    (Node.places [root]).Nodup := by
  obtain ⟨ts, tokens, read⟩ := bind_eq_ok.mp h
  exact (Token.tiles_of_tokenize tokens).1.nodup.sublist (sublist_places read)

end Stylesheet

namespace Node

/-- A node without a token of its own stands where its first child stands. -/
def Seated (n : Node) : Prop :=
  n.kind.ownsToken = false → ∀ c ∈ n.children.head?, c.position = n.position

theorem seated_of_owns {n : Node} (owns : n.kind.ownsToken = true) : n.Seated := by
  intro lacks
  rw [owns] at lacks
  cases lacks

theorem seated_of_childless {n : Node} (childless : n.children = []) : n.Seated := by
  intro _ c first
  rw [childless] at first
  cases first

end Node

theorem position_leaf? {inSelector : Bool} {t : Token} {n : Node}
    (h : t.leaf? inSelector = some n) : n.position = t.position := by
  obtain ⟨kind, content, -, rfl⟩ := exists_leaf_of_leaf? h
  rfl

/-- The first node of a stretch of tokens stands where the tokens begin. -/
theorem position_values {inSelector : Bool} {first : Token} {rest : List Token} {ns : List Node}
    (start : first.isTrivia = false) (h : values inSelector (first :: rest) = .ok ns) :
    ∀ n ∈ ns.head?, n.position = first.position := by
  intro n hn
  obtain ⟨gs, covers, nodes⟩ := covers_of_values h
  cases covers with
  | single =>
    obtain ⟨more, -, rfl⟩ := Group.nodesOf_single.mp nodes
    cases leaf : first.leaf? inSelector with
    | none => exact absurd leaf (leaf?_ne_none inSelector start)
    | some l =>
      rw [leaf] at hn
      cases hn
      exact position_leaf? leaf
  | parens =>
    obtain ⟨-, children, more, -, -, rfl⟩ := Group.nodesOf_parens.mp nodes
    cases hn
    rfl
  | call =>
    obtain ⟨-, children, more, -, -, rfl⟩ := Group.nodesOf_call.mp nodes
    cases hn
    rfl

/-- Nodes that come from tokens are seated. -/
theorem Node.Origin.seated {ts : List Token} {n : Node} (origin : n.Origin ts) : n.Seated := by
  cases origin with
  | leaf _ made =>
    obtain ⟨kind, content, -, rfl⟩ := exists_leaf_of_leaf? made
    exact seated_of_childless rfl
  | brackets isPair => rcases isPair with rfl | rfl <;> exact seated_of_owns rfl
  | call => exact seated_of_owns rfl
  | property => exact seated_of_childless rfl
  | space _ made =>
    obtain ⟨content, p, rfl⟩ := Statement.exists_leaf_of_space? made
    exact seated_of_childless rfl
  | colon => exact seated_of_childless rfl
  | value _ start read => exact fun _ => position_values start read
  | emptyValue => exact seated_of_childless rfl
  | head _ _ start read => exact fun _ => position_values start read
  | declaration _ _ _ read =>
    obtain ⟨_, _, _, -, -, rfl⟩ := Statement.declaration_eq_ok.mp read
    intro _ c first
    cases first
    rfl
  | atRule => exact seated_of_owns rfl
  | block => exact seated_of_owns rfl
  | ruleset place =>
    intro _ c first
    cases first
    exact place

/-- Below the root, nodes without a token of their own stand where their first child stands. -/
theorem Stylesheet.everywhere_seated {source : String} {root : Node}
    (h : Stylesheet.parse source = .ok root) : ∀ n ∈ root.children, n.Everywhere Node.Seated := by
  obtain ⟨ts, -, read⟩ := bind_eq_ok.mp h
  intro n isChild m member
  exact (everywhere_origin read n isChild m member).seated

end SheetLint
