import SheetLint.Proofs.Origins

/-!
# How deep trees are

Blocks and round brackets can be nested 128 deep, and no deeper. On a way down the tree each of them
has at most one other node with it, and four more nodes are left for the ends, so that no way is
longer than 516 nodes (`Stylesheet.depth_parse`). The blocks are counted by the reader, and the
brackets anew in every value.
-/

namespace SheetLint

namespace Node

/-- The nodes on the way from the root of a tree to a place. -/
def trail (n : Node) : List Nat → List Node
  | [] => [n]
  | i :: path => n :: (n.children[i]?.map (·.trail path)).getD []

/-- Every way from the root to a node satisfies `P`. -/
def Ways (P : List Node → Prop) (n : Node) : Prop :=
  ∀ path, (n.at? path).isSome = true → P (n.trail path)

mutual

/-- The number of nodes on the longest way down a tree. -/
def height : Node → Nat
  | ⟨_, _, _, children⟩ => 1 + heights children

/-- The number of nodes on the longest way down one of some trees. -/
def heights : List Node → Nat
  | [] => 0
  | n :: ns => max n.height (heights ns)

end

variable {n : Node} {P Q : List Node → Prop}

theorem trail_cons {c : Node} {i : Nat} (hc : n.children[i]? = some c) (path : List Nat) :
    n.trail (i :: path) = n :: c.trail path := by
  rw [trail, hc, Option.map_some, Option.getD_some]

/-- A way ends at the root or goes on in a child. -/
theorem ways_iff : n.Ways P ↔ P [n] ∧ ∀ c ∈ n.children, c.Ways fun way => P (n :: way) := by
  constructor
  · intro h
    refine ⟨h [] rfl, ?_⟩
    intro c member path present
    obtain ⟨i, hc⟩ := List.mem_iff_getElem?.mp member
    rw [← at?_cons hc] at present
    rw [← trail_cons hc]
    exact h (i :: path) present
  · rintro ⟨here, below⟩ path present
    cases path with
    | nil => exact here
    | cons i path =>
      cases hc : n.children[i]? with
      | none => simp [at?, hc] at present
      | some c =>
        rw [at?_cons hc] at present
        rw [trail_cons hc]
        exact below c (List.mem_of_getElem? hc) path present

theorem Ways.imp (h : n.Ways P) (imp : ∀ way, P way → Q way) : n.Ways Q :=
  fun path present => imp _ (h path present)

theorem height_eq (n : Node) : n.height = 1 + heights n.children := by
  cases n
  rw [height]

theorem heights_le {k : Nat} {ns : List Node} (h : ∀ n ∈ ns, n.height ≤ k) : heights ns ≤ k := by
  induction ns with
  | nil => exact Nat.zero_le k
  | cons n ns ih =>
    obtain ⟨here, behind⟩ := List.forall_mem_cons.mp h
    rw [heights]
    exact Nat.max_le.mpr ⟨here, ih behind⟩

/-- A tree is no higher than its longest way. -/
theorem height_le {k : Nat} (h : n.Ways fun way => way.length ≤ k) : n.height ≤ k := by
  induction n using Node.induction generalizing k with
  | step n ih =>
    obtain ⟨here, below⟩ := ways_iff.mp h
    have children : heights n.children ≤ k - 1 := by
      apply heights_le
      intro c member
      apply ih c member
      refine (below c member).imp ?_
      intro way long
      rw [List.length_cons] at long
      omega
    have positive : 1 ≤ k := here
    rw [height_eq]
    omega

/-- The blocks on a way. -/
def blocks (way : List Node) : Nat :=
  way.countP (·.kind == .block)

/-- The pairs of round brackets on a way. -/
def brackets (way : List Node) : Nat :=
  way.countP fun n => n.kind == .arguments || n.kind == .parentheses

theorem blocks_cons (n : Node) (way : List Node) : blocks (n :: way) = blocks [n] + blocks way := by
  simp only [blocks, ← List.countP_append, List.singleton_append]

theorem brackets_cons (n : Node) (way : List Node) :
    brackets (n :: way) = brackets [n] + brackets way := by
  simp only [brackets, ← List.countP_append, List.singleton_append]

/-- A way has at most `k` blocks, it has no more pairs of brackets than may stand inside of `d`
    others, and next to these it has one node for each of them and `e` others at most. -/
structure Bounded (k d e : Nat) (way : List Node) : Prop where
  blocks : blocks way ≤ k
  brackets : brackets way + d ≤ maxNesting
  length : way.length ≤ 2 * Node.blocks way + 2 * Node.brackets way + e

section Bounded

variable {k k' d e e' : Nat}

theorem Ways.mono (h : n.Ways (Bounded k d e)) (more : k ≤ k') (longer : e ≤ e') :
    n.Ways (Bounded k' d e') := by
  refine h.imp ?_
  rintro way ⟨blocks, brackets, length⟩
  exact ⟨by omega, brackets, by omega⟩

/-- Ways from a node have its own block or brackets in addition to those below it. -/
theorem ways_of_children {b r : Nat} (hb : blocks [n] = b) (hr : brackets [n] = r)
    (limit : r + d ≤ maxNesting) (fits : e + 1 ≤ 2 * b + 2 * r + e')
    (below : ∀ c ∈ n.children, c.Ways (Bounded k (r + d) e)) :
    n.Ways (Bounded (k + b) d e') := by
  refine ways_iff.mpr ⟨⟨?_, ?_, ?_⟩, fun c member => (below c member).imp ?_⟩
  · rw [hb]
    exact Nat.le_add_left b k
  · rw [hr]
    exact limit
  · rw [hb, hr, List.length_singleton]
    omega
  · rintro way ⟨blocksBelow, bracketsBelow, length⟩
    have blocks := blocks_cons n way
    have brackets := brackets_cons n way
    rw [hb] at blocks
    rw [hr] at brackets
    refine ⟨by omega, by omega, ?_⟩
    rw [blocks, brackets, List.length_cons]
    omega

theorem ways_leaf {kind : NodeKind} {content : String} {p : Position} (limit : d ≤ maxNesting)
    (hb : blocks [leaf kind content p] = 0) (hr : brackets [leaf kind content p] = 0) :
    (leaf kind content p).Ways (Bounded 0 d 1) :=
  ways_of_children (e := 0) hb hr (by omega) (by omega) (by simp [leaf])

end Bounded

end Node

/-- The leaf of a token is neither a block nor a pair of brackets. -/
theorem countless_leaf? {inSelector : Bool} {t : Token} {n : Node}
    (h : t.leaf? inSelector = some n) : Node.blocks [n] = 0 ∧ Node.brackets [n] = 0 := by
  unfold Token.leaf? at h
  cases kind : t.kind <;> simp only [kind] at h
  case comment => cases h
  case hash => split at h <;> cases h <;> exact ⟨rfl, rfl⟩
  case number =>
    cases h
    split <;> exact ⟨rfl, rfl⟩
  all_goals
    cases h
    exact ⟨rfl, rfl⟩

section Values

variable {inSelector : Bool} {d : Nat} {gs : List Group} {ts : List Token} {ns : List Node}

theorem ways_leaf? {t : Token} {n : Node} (limit : d ≤ maxNesting)
    (h : t.leaf? inSelector = some n) : n.Ways (Node.Bounded 0 d 1) := by
  obtain ⟨noBlock, noBrackets⟩ := countless_leaf? h
  obtain ⟨kind, content, -, rfl⟩ := exists_leaf_of_leaf? h
  exact Node.ways_leaf limit noBlock noBrackets

/-- Brackets have room for what stands inside of them. -/
theorem ways_brackets {kind : NodeKind} (p : Position)
    (isPair : kind = .arguments ∨ kind = .parentheses) (below : d < maxNesting)
    (inside : ∀ c ∈ ns, c.Ways (Node.Bounded 0 (d + 1) 1)) :
    (Node.branch kind p ns).Ways (Node.Bounded 0 d 0) := by
  rw [Nat.add_comm] at inside
  rcases isPair with rfl | rfl
  · exact Node.ways_of_children (b := 0) (r := 1) rfl rfl (by omega) (by omega) inside
  · exact Node.ways_of_children (b := 0) (r := 1) rfl rfl (by omega) (by omega) inside

/-- The nodes of groups that stand inside of `d` pairs of brackets leave room for these. -/
theorem ways_nodesOf (covers : Group.Covers gs ts) (limit : d ≤ maxNesting)
    (h : Group.nodesOf inSelector d gs = .ok ns) : ∀ n ∈ ns, n.Ways (Node.Bounded 0 d 1) := by
  induction covers generalizing d ns with
  | nil =>
    cases h
    simp
  | single _ _ _ ih =>
    obtain ⟨rest, behind, rfl⟩ := Group.nodesOf_single.mp h
    refine List.forall_mem_append.mpr ⟨fun n hn => ?_, ih limit behind⟩
    exact ways_leaf? limit (Option.mem_toList.mp hn)
  | @parens o _ _ _ _ _ _ _ _ _ ihWithin ih =>
    obtain ⟨below, children, rest, inside, behind, rfl⟩ := Group.nodesOf_parens.mp h
    have pair := ways_brackets o.position (.inr rfl) below (ihWithin below inside)
    exact List.forall_mem_cons.mpr ⟨pair.mono (Nat.le_refl 0) (Nat.zero_le 1), ih limit behind⟩
  | @call _ o _ _ _ _ _ _ _ _ _ _ ihWithin ih =>
    obtain ⟨below, children, rest, inside, behind, rfl⟩ := Group.nodesOf_call.mp h
    have arguments := ways_brackets o.position (.inl rfl) below (ihWithin below inside)
    -- the name of a function is the one node that comes with its brackets
    refine List.forall_mem_cons.mpr ⟨?_, ih limit behind⟩
    refine Node.ways_of_children (b := 0) (r := 0) (e := 0) rfl rfl (by omega) (by omega) ?_
    simpa using arguments

theorem ways_values (h : values inSelector ts = .ok ns) :
    ∀ n ∈ ns, n.Ways (Node.Bounded 0 0 1) := by
  obtain ⟨gs, covers, nodes⟩ := covers_of_values h
  exact ways_nodesOf covers (Nat.zero_le maxNesting) nodes

end Values

namespace Statement

variable {first : Token} {rest : List Token} {node : Node} {nodes : List Node} {k : Nat}

/-- A value, a selector or a call is one node above what it holds. -/
theorem ways_holder {inSelector : Bool} {kind : NodeKind} {ts : List Token} (content : String)
    (p : Position) (isHolder : kind = .value ∨ kind = .selector ∨ kind = .mixinCall)
    (read : values inSelector ts = .ok nodes) :
    (Node.mk kind content p nodes).Ways (Node.Bounded 0 0 2) := by
  have inside := ways_values read
  rcases isHolder with rfl | rfl | rfl
  · exact Node.ways_of_children (b := 0) (r := 0) rfl rfl (by decide) (by omega) inside
  · exact Node.ways_of_children (b := 0) (r := 0) rfl rfl (by decide) (by omega) inside
  · exact Node.ways_of_children (b := 0) (r := 0) rfl rfl (by decide) (by omega) inside

theorem ways_space? {trivia : List Token} :
    ∀ n ∈ (space? trivia).toList, n.Ways (Node.Bounded 0 0 2) := by
  intro n member
  obtain ⟨content, p, rfl⟩ := exists_leaf_of_space? (Option.mem_toList.mp member)
  exact (Node.ways_leaf (by decide) rfl rfl).mono (by decide) (by decide)

/-- A declaration has no blocks, and next to its brackets three nodes on a way at most. -/
theorem ways_declaration {before after : List Token} {colon : Token}
    (h : declaration before colon after = .ok node) : node.Ways (Node.Bounded 0 0 3) := by
  obtain ⟨first, more, nodes, -, value, rfl⟩ := declaration_eq_ok.mp h
  have leaf {kind : NodeKind} {content : String} {p : Position}
      (hb : Node.blocks [.leaf kind content p] = 0)
      (hr : Node.brackets [.leaf kind content p] = 0) :
      (Node.leaf kind content p).Ways (Node.Bounded 0 0 2) :=
    (Node.ways_leaf (by decide) hb hr).mono (by decide) (by decide)
  refine Node.ways_of_children (b := 0) (r := 0) (e := 2) rfl rfl (by decide) (by omega) ?_
  simp only [declarationNode, Node.branch, List.forall_mem_append, List.forall_mem_singleton]
  exact ⟨⟨⟨⟨leaf rfl rfl, ways_space?⟩, leaf rfl rfl⟩, ways_space?⟩,
    ways_holder _ _ (.inl rfl) value⟩

theorem ways_atRule {name : Token} {block : Option Node}
    (inside : ∀ b ∈ block.toList, b.Ways (Node.Bounded k 0 2))
    (h : atRule name rest block = .ok node) : node.Ways (Node.Bounded k 0 3) := by
  obtain ⟨value, rfl, made⟩ := atRule_eq_ok.mp h
  refine Node.ways_of_children (b := 0) (r := 0) (e := 2) rfl rfl (by decide) (by omega) ?_
  refine List.forall_mem_append.mpr ⟨?_, inside⟩
  rcases made with ⟨-, rfl⟩ | ⟨first, more, nodes, -, read, rfl⟩
  · simp
  · rw [List.forall_mem_singleton]
    exact (ways_holder _ _ (.inl rfl) read).mono (Nat.zero_le k) (by decide)

theorem ways_withoutBlock (h : withoutBlock first rest = .ok node) :
    node.Ways (Node.Bounded 0 0 3) := by
  cases withoutBlock_eq_ok.mp h with
  | declaration _ read => exact ways_declaration read
  | atRule _ _ read => exact ways_atRule (by simp) read
  | call _ _ read => exact (ways_holder _ _ (.inr (.inr rfl)) read).mono (by decide) (by decide)

/-- The statement of a block has one block more than the statements inside. -/
theorem ways_withBlock {p : Position} {body : List Node}
    (inside : ∀ n ∈ body, n.Ways (Node.Bounded k 0 3))
    (h : withBlock first rest (.branch .block p body) = .ok node) :
    node.Ways (Node.Bounded (k + 1) 0 3) := by
  have block : (Node.branch .block p body).Ways (Node.Bounded (k + 1) 0 2) :=
    Node.ways_of_children (b := 1) (r := 0) rfl rfl (by decide) (by omega) inside
  rcases withBlock_eq_ok.mp h with ⟨-, read⟩ | ⟨-, nodes, read, rfl⟩
  · exact ways_atRule (by simpa using block) read
  · have selector := (ways_holder (Token.sourceText (first :: rest)) first.position
      (.inr (.inl rfl)) read).mono (Nat.zero_le (k + 1)) (Nat.le_refl 2)
    refine Node.ways_of_children (b := 0) (r := 0) (e := 2) rfl rfl (by decide) (by omega) ?_
    simpa [Node.branch] using ⟨selector, block⟩

end Statement

namespace Reader

variable {r r' : Reader} {t : Token}

/-- The statements in front of the open blocks: those that stand inside of more blocks can hold
    fewer. -/
def Leveled : List OpenBlock → Prop
  | [] => True
  | b :: outer =>
    outer.length < maxNesting ∧
      (∀ n ∈ b.before, n.Ways (Node.Bounded (maxNesting - outer.length) 0 3)) ∧ Leveled outer

/-- A reader inside of some blocks has statements that leave room for these. -/
structure Shallow (r : Reader) : Prop where
  done : ∀ n ∈ r.done, n.Ways (Node.Bounded (maxNesting - r.blocks.length) 0 3)
  blocks : Leveled r.blocks

theorem shallow_initial : Shallow initial :=
  ⟨by simp [initial], trivial⟩

theorem Shallow.ended (shallow : Shallow r) (h : r.endStatement = .ok r') : Shallow r' := by
  rcases endStatement_eq_ok.mp h with ⟨-, rfl⟩ | ⟨first, rest, node, -, read, rfl⟩
  · exact ⟨shallow.done, shallow.blocks⟩
  · have made := (Statement.ways_withoutBlock read).mono
      (Nat.zero_le (maxNesting - r.blocks.length)) (Nat.le_refl 3)
    exact ⟨List.forall_mem_cons.mpr ⟨made, shallow.done⟩, shallow.blocks⟩

/-- Each step keeps a reader shallow. -/
theorem Shallow.step (shallow : Shallow r) (h : Step r t r') : Shallow r' := by
  cases h with
  | keep => exact ⟨shallow.done, shallow.blocks⟩
  | semicolon _ _ ended => exact shallow.ended ended
  | openBlock _ _ opened =>
    obtain ⟨first, rest, -, below, rfl⟩ := openBlock_eq_ok.mp opened
    exact ⟨by simp, below, shallow.done, shallow.blocks⟩
  | @closeBlock r₁ _ _ _ ended closed =>
    obtain ⟨b, outer, node, inside, made, rfl⟩ := closeBlock_eq_ok.mp closed
    obtain ⟨done, blocks⟩ := shallow.ended ended
    rw [inside] at done blocks
    obtain ⟨below, before, blocks⟩ := blocks
    have room : maxNesting - (b :: outer).length + 1 = maxNesting - outer.length := by
      rw [List.length_cons]
      omega
    have body : ∀ n ∈ r₁.done.reverse,
        n.Ways (Node.Bounded (maxNesting - (b :: outer).length) 0 3) := by simpa using done
    have statement := Statement.ways_withBlock body made
    rw [room] at statement
    exact ⟨List.forall_mem_cons.mpr ⟨statement, before⟩, blocks⟩

end Reader

namespace Stylesheet

/-- Every way down a tree keeps to the limits on blocks and brackets. -/
theorem ways_ofTokens {ts : List Token} {root : Node} (h : ofTokens ts = .ok root) :
    root.Ways (Node.Bounded maxNesting 0 4) := by
  obtain ⟨r, read, finished⟩ := bind_eq_ok.mp h
  have shallow : r.Shallow := by
    refine Reader.read_invariant (P := fun _ r => r.Shallow) Reader.shallow_initial ?_ read
    intro us t r₁ r₂ _ before step
    exact before.step step
  obtain ⟨-, last, ended, closed, rfl⟩ := Reader.finish_eq_ok.mp finished
  have done := (shallow.ended ended).done
  rw [closed, List.length_nil, Nat.sub_zero] at done
  refine Node.ways_of_children (k := maxNesting) (b := 0) (r := 0) (e := 3) rfl rfl (by decide)
    (by omega) ?_
  simpa [Node.branch] using done

/-- On every way from the root of a style sheet to a node there are at most 128 blocks and at most
    128 pairs of round brackets, and it has at most 516 nodes. So what is done along the tree by
    recursion, such as to write its text, goes no deeper. -/
theorem depth_parse {source : String} {root : Node} (h : parse source = .ok root) :
    (∀ path n, root.at? path = some n →
      Node.blocks (root.trail path) ≤ 128 ∧ Node.brackets (root.trail path) ≤ 128 ∧
        (root.trail path).length ≤ 516) ∧
    root.height ≤ 516 := by
  obtain ⟨ts, -, read⟩ := bind_eq_ok.mp h
  have bounded : root.Ways fun way =>
      Node.blocks way ≤ 128 ∧ Node.brackets way ≤ 128 ∧ way.length ≤ 516 := by
    refine (ways_ofTokens read).imp ?_
    rintro way ⟨blocks, brackets, length⟩
    simp only [maxNesting] at blocks brackets
    exact ⟨blocks, brackets, by omega⟩
  refine ⟨?_, Node.height_le (bounded.imp fun way h => h.2.2)⟩
  intro path n found
  exact bounded path (by simp [found])

/-- Two blocks and three pairs of brackets are on the way to the number. -/
theorem depth_parse_nested : ∃ root,
    parse "@m\x7ba\x7bb:f(g((1)))\x7d\x7d" = .ok root ∧
    (root.trail [0, 0, 0, 1, 0, 2, 0, 0, 0, 0, 0, 0]).map (·.kind) =
      [.stylesheet, .atRule, .block, .ruleset, .block, .declaration, .value, .function, .arguments,
        .function, .arguments, .parentheses, .number] ∧
    (∀ path n, root.at? path = some n →
      Node.blocks (root.trail path) ≤ 128 ∧ Node.brackets (root.trail path) ≤ 128 ∧
        (root.trail path).length ≤ 516) ∧
    root.height ≤ 516 := by
  apply exists_ok_of_map_toOption
  · decide +kernel
  · intro root parsed
    exact depth_parse parsed

end Stylesheet

end SheetLint
