import SheetLint.Proofs.Statements
import SheetLint.Proofs.TokenForm
import SheetLint.Proofs.Traversal
import Mathlib.Tactic.IntervalCases

/-!
# The shape of trees

Rules take for granted what the tree of a style sheet looks like: which kinds of nodes stand below
each kind, and what the leaves hold. `Node.Shaped` says it for one node, and every node of a tree
that is read is shaped so.
-/

namespace SheetLint

namespace NodeKind

/-- What may stand in a style sheet or a block. -/
def isStatement : NodeKind → Bool
  | ruleset | atRule | declaration | mixinCall => true
  | _ => false

/-- What may stand in a value, a selector, a call or brackets. -/
def isPiece : NodeKind → Bool
  | space | ident | number | dimension | color | string | var | function | parentheses
  | operator => true
  | _ => false

end NodeKind

namespace Node

/-- The kinds of the children from left to right. -/
def kinds (n : Node) : List NodeKind :=
  n.children.map (·.kind)

def hexDigits : List Char := "0123456789abcdefABCDEF".toList

/-- What a node of each kind looks like. -/
def Shaped (n : Node) : Prop :=
  match n.kind with
  | .stylesheet | .block => ∀ k ∈ n.kinds, k.isStatement = true
  | .ruleset => n.kinds = [.selector, .block]
  | .atRule =>
    n.kinds ∈ [[], [.value], [.block], [.value, .block]] ∧
      ∀ c ∈ n.children, c.kind = .value → c.children ≠ []
  | .declaration =>
    n.kinds ∈ [[.property, .colon, .value], [.property, .space, .colon, .value],
      [.property, .colon, .space, .value], [.property, .space, .colon, .space, .value]]
  | .function => n.kinds = [.arguments]
  | .selector | .mixinCall =>
    n.children ≠ [] ∧ (∀ k ∈ n.kinds, k.isPiece = true) ∧ ∀ m ∈ n.preorder, m.kind ≠ .color
  | .value | .arguments | .parentheses => ∀ k ∈ n.kinds, k.isPiece = true
  | .operator => n.children = [] ∧ n.content.toList.length = 1
  | .color =>
    n.children = [] ∧ n.content.toList.length ∈ [3, 4, 6, 8] ∧
      ∀ c ∈ n.content.toList, c ∈ hexDigits
  | .property | .colon | .space | .ident | .number | .dimension | .string | .var =>
    n.children = [] ∧ n.content.toList ≠ []

/-- All nodes of a tree satisfy `P`. -/
def Everywhere (P : Node → Prop) (n : Node) : Prop :=
  ∀ m ∈ n.walk, P m

theorem everywhere_iff {P : Node → Prop} {n : Node} :
    n.Everywhere P ↔ P n ∧ ∀ c ∈ n.children, c.Everywhere P := by
  constructor
  · intro h
    exact ⟨h n (mem_walk.mpr (.inl rfl)), fun c hc m hm => h m (mem_walk.mpr (.inr ⟨c, hc, hm⟩))⟩
  · rintro ⟨root, below⟩ m hm
    rcases mem_walk.mp hm with rfl | ⟨c, hc, hm⟩
    · exact root
    · exact below c hc m hm

theorem Everywhere.imp {P Q : Node → Prop} {n : Node} (h : n.Everywhere P) (imp : ∀ m, P m → Q m) :
    n.Everywhere Q :=
  fun m hm => imp m (h m hm)

theorem everywhere_leaf {P : Node → Prop} {kind : NodeKind} {content : String} {p : Position} :
    (leaf kind content p).Everywhere P ↔ P (leaf kind content p) := by
  rw [everywhere_iff]
  simp [leaf]

end Node

/-- A character in one of the ranges of hexadecimal digits is one of them. -/
theorem mem_hexDigits {c : Char}
    (h : (c.isDigit || ('a' ≤ c && c ≤ 'f') || ('A' ≤ c && c ≤ 'F')) = true) :
    c ∈ Node.hexDigits := by
  have code : (48 ≤ c.toNat ∧ c.toNat ≤ 57) ∨ (97 ≤ c.toNat ∧ c.toNat ≤ 102) ∨
      (65 ≤ c.toNat ∧ c.toNat ≤ 70) := by
    simp only [Char.isDigit, Char.reduceVal, ge_iff_le, UInt32.le_iff_toNat_le,
      UInt32.reduceToNat, Char.toNat_val, Char.le_def, Bool.or_eq_true, Bool.and_eq_true,
      decide_eq_true_eq] at h
    rcases h with (h | h) | h
    · exact .inl h
    · exact .inr (.inl h)
    · exact .inr (.inr h)
  have inverse := Char.ofNat_toNat c
  generalize c.toNat = n at code inverse
  subst inverse
  rcases code with ⟨low, high⟩ | ⟨low, high⟩ | ⟨low, high⟩ <;> interval_cases n <;> decide

/-- A node inside of a value, or of a selector or a call, where there are no colours. -/
def Node.Fits (inSelector : Bool) (n : Node) : Prop :=
  n.Shaped ∧ (inSelector = true → n.kind ≠ .color)

/-- A tree that may stand in a value, or in a selector or a call. -/
structure Node.Piece (inSelector : Bool) (n : Node) : Prop where
  kind : n.kind.isPiece = true
  fits : n.Everywhere (Fits inSelector)

section Pieces

variable {inSelector : Bool} {t : Token} {ts : List Token} {n : Node} {ns : List Node}

/-- A token of the right form makes a leaf of the right form. -/
theorem piece_leaf? (form : t.WellFormed) (h : t.leaf? inSelector = some n) :
    n.Piece inSelector := by
  have made {kind : NodeKind} {content : String} (hp : kind.isPiece = true)
      (hs : (Node.leaf kind content t.position).Shaped) (hc : inSelector = true → kind ≠ .color) :
      (Node.leaf kind content t.position).Piece inSelector :=
    ⟨hp, Node.everywhere_leaf.mpr ⟨hs, hc⟩⟩
  have text := form.text_ne_nil
  unfold Token.leaf? at h
  cases kind : t.kind <;> simp only [kind] at h
  case comment => cases h
  case hash =>
    by_cases color : !inSelector && Token.isHexColor (t.text.toList.drop 1)
    · rw [if_pos color] at h
      cases h
      simp only [Bool.and_eq_true, Bool.not_eq_eq_eq_not, Bool.not_true, Token.isHexColor,
        List.contains_iff_mem, List.all_eq_true] at color
      obtain ⟨outside, length, digits⟩ := color
      refine made rfl ⟨rfl, ?_, ?_⟩ (by simp [outside])
      · simpa [Node.leaf] using length
      · intro c hc
        exact mem_hexDigits (digits c (by simpa [Node.leaf] using hc))
    · rw [if_neg color] at h
      cases h
      exact made rfl ⟨rfl, text⟩ (by simp)
  case number =>
    cases h
    by_cases plain : Token.isUnitless t.text.toList
    · rw [if_pos plain]
      exact made rfl ⟨rfl, text⟩ (by simp)
    · rw [if_neg plain]
      exact made rfl ⟨rfl, text⟩ (by simp)
  case delimiter c =>
    cases h
    simp only [Token.WellFormed, kind] at form
    exact made rfl ⟨rfl, by simp [Node.leaf, form]⟩ (by simp)
  all_goals
    cases h
    exact made rfl ⟨rfl, text⟩ (by simp)

theorem kinds_piece (h : ∀ c ∈ n.children, c.Piece inSelector) :
    ∀ k ∈ n.kinds, k.isPiece = true :=
  List.forall_mem_map.mpr fun c hc => (h c hc).kind

theorem piece_parens {p : Position} (h : ∀ c ∈ ns, c.Piece inSelector) :
    (Node.branch .parentheses p ns).Piece inSelector := by
  refine ⟨rfl, Node.everywhere_iff.mpr ⟨⟨?_, by simp [Node.branch]⟩, fun c hc => (h c hc).fits⟩⟩
  exact kinds_piece h

theorem piece_call {content : String} {p q : Position} (h : ∀ c ∈ ns, c.Piece inSelector) :
    (Node.mk .function content p [.branch .arguments q ns]).Piece inSelector := by
  have arguments : (Node.branch .arguments q ns).Everywhere (Node.Fits inSelector) := by
    refine Node.everywhere_iff.mpr ⟨⟨?_, by simp [Node.branch]⟩, fun c hc => (h c hc).fits⟩
    exact kinds_piece h
  refine ⟨rfl, Node.everywhere_iff.mpr ⟨⟨rfl, by simp⟩, ?_⟩⟩
  simpa using arguments

/-- Groups are read into pieces. -/
theorem pieces_nodesOf {d : Nat} {gs : List Group} (covers : Group.Covers gs ts)
    (forms : ∀ t ∈ ts, t.WellFormed) (h : Group.nodesOf inSelector d gs = .ok ns) :
    ∀ n ∈ ns, n.Piece inSelector := by
  induction covers generalizing d ns with
  | nil =>
    cases h
    simp
  | single _ _ _ ih =>
    obtain ⟨form, forms⟩ := List.forall_mem_cons.mp forms
    obtain ⟨rest, behind, rfl⟩ := Group.nodesOf_single.mp h
    refine List.forall_mem_append.mpr ⟨fun n hn => ?_, ih forms behind⟩
    exact piece_leaf? form (Option.mem_toList.mp hn)
  | parens _ _ _ _ ihWithin ih =>
    obtain ⟨-, children, rest, inside, behind, rfl⟩ := Group.nodesOf_parens.mp h
    have within := ihWithin (fun t ht => forms t (by simp [ht])) inside
    have later := ih (fun t ht => forms t (by simp [ht])) behind
    exact List.forall_mem_cons.mpr ⟨piece_parens within, later⟩
  | call _ _ _ _ _ ihWithin ih =>
    obtain ⟨-, children, rest, inside, behind, rfl⟩ := Group.nodesOf_call.mp h
    have within := ihWithin (fun t ht => forms t (by simp [ht])) inside
    have later := ih (fun t ht => forms t (by simp [ht])) behind
    exact List.forall_mem_cons.mpr ⟨piece_call within, later⟩

theorem pieces_values (forms : ∀ t ∈ ts, t.WellFormed) (h : values inSelector ts = .ok ns) :
    ∀ n ∈ ns, n.Piece inSelector := by
  obtain ⟨gs, covers, nodes⟩ := covers_of_values h
  exact pieces_nodesOf covers forms nodes

/-- Only comments have no node. -/
theorem leaf?_ne_none (inSelector : Bool) (ht : t.isTrivia = false) :
    t.leaf? inSelector ≠ none := by
  unfold Token.leaf?
  cases kind : t.kind with
  | comment => simp [Token.isTrivia, kind] at ht
  | hash =>
    dsimp only
    split <;> simp
  | _ => simp

/-- Tokens that do not begin with trivia have a value. -/
theorem values_ne_nil {first : Token} {rest : List Token} (start : first.isTrivia = false)
    (h : values inSelector (first :: rest) = .ok ns) : ns ≠ [] := by
  obtain ⟨gs, covers, nodes⟩ := covers_of_values h
  cases covers with
  | single =>
    obtain ⟨more, -, rfl⟩ := Group.nodesOf_single.mp nodes
    simp [leaf?_ne_none inSelector start]
  | parens =>
    obtain ⟨-, children, more, -, -, rfl⟩ := Group.nodesOf_parens.mp nodes
    simp
  | call =>
    obtain ⟨-, children, more, -, -, rfl⟩ := Group.nodesOf_call.mp nodes
    simp

end Pieces

/-- A tree that may stand in a style sheet or a block. -/
structure Node.Stated (n : Node) : Prop where
  kind : n.kind.isStatement = true
  shaped : n.Everywhere Shaped

/-- One shaped tree of a kind, or none. -/
structure Node.Optional (kind : NodeKind) (ns : List Node) : Prop where
  kinds : ns.map (·.kind) = [] ∨ ns.map (·.kind) = [kind]
  shaped : ∀ n ∈ ns, n.Everywhere Shaped

theorem Node.optional_nil {kind : NodeKind} : Optional kind [] :=
  ⟨.inl rfl, by simp⟩

theorem Node.optional_singleton {kind : NodeKind} {n : Node} (hk : n.kind = kind)
    (hn : n.Everywhere Shaped) : Optional kind [n] :=
  ⟨.inr (by simp [hk]), by simpa using hn⟩

theorem Node.Optional.kind_eq {kind : NodeKind} {n : Node} {ns : List Node}
    (h : Optional kind ns) (hn : n ∈ ns) : n.kind = kind := by
  have found : n.kind ∈ ns.map (·.kind) := List.mem_map_of_mem hn
  rcases h.kinds with none | one
  · simp [none] at found
  · simpa [one] using found

namespace Statement

variable {first : Token} {rest : List Token} {node block : Node} {nodes : List Node}

theorem shaped_piece {inSelector : Bool} {n : Node} (h : n.Piece inSelector) :
    n.Everywhere Node.Shaped :=
  h.fits.imp fun _ => And.left

theorem shaped_value {p : Position} (h : ∀ n ∈ nodes, n.Piece false) :
    (Node.branch .value p nodes).Everywhere Node.Shaped :=
  Node.everywhere_iff.mpr ⟨kinds_piece h, fun c hc => shaped_piece (h c hc)⟩

/-- A selector or a call. -/
theorem shaped_head {kind : NodeKind} {content : String} {p : Position}
    (isHead : kind = .selector ∨ kind = .mixinCall) (some : nodes ≠ [])
    (h : ∀ n ∈ nodes, n.Piece true) : (Node.mk kind content p nodes).Everywhere Node.Shaped := by
  have colorless : ∀ m ∈ (Node.mk kind content p nodes).preorder, m.kind ≠ .color := by
    intro m hm
    rw [Node.preorder_eq_walk, Node.mem_walk] at hm
    rcases hm with rfl | ⟨c, hc, hm⟩
    · rcases isHead with rfl | rfl <;> simp
    · exact ((h c hc).fits m hm).2 rfl
  refine Node.everywhere_iff.mpr ⟨?_, fun c hc => shaped_piece (h c hc)⟩
  rcases isHead with rfl | rfl <;> exact ⟨some, kinds_piece h, colorless⟩

theorem sourceText_ne_nil (start : first.isTrivia = false) (form : first.WellFormed) :
    (Token.sourceText (first :: rest)).toList ≠ [] := by
  have spoken : first.isComment = false := by
    simp only [Token.isTrivia, Bool.or_eq_false_iff] at start
    exact start.2
  simp [Token.sourceText, String.toList_join, spoken, form.text_ne_nil]

/-- Trivia make one space or none. -/
theorem optional_space? {trivia : List Token} (forms : ∀ t ∈ trivia, t.WellFormed) :
    Node.Optional .space (space? trivia).toList := by
  unfold space?
  split
  · exact Node.optional_nil
  · rename_i first rest found
    have here : first ∈ trivia.filter (·.kind == .whitespace) := by simp [found]
    have text := (forms first (List.mem_filter.mp here).1).text_ne_nil
    refine Node.optional_singleton rfl (Node.everywhere_leaf.mpr ⟨rfl, ?_⟩)
    simp [Node.leaf, String.toList_join, text]

/-- A declaration is a statement of the right shape. -/
theorem stated_declaration {before after : List Token} {colon : Token}
    (forms : ∀ t ∈ before ++ colon :: after, t.WellFormed)
    (h : declaration before colon after = .ok node) : node.Stated := by
  obtain ⟨formsBefore, formsRest⟩ := List.forall_mem_append.mp forms
  obtain ⟨-, formsAfter⟩ := List.forall_mem_cons.mp formsRest
  obtain ⟨first, more, nodes, property, value, rfl⟩ := declaration_eq_ok.mp h
  have left : Node.Optional .space (space? (before.drop (first :: more).length)).toList :=
    optional_space? fun t ht => formsBefore t (List.mem_of_mem_drop ht)
  have right : Node.Optional .space (space? (after.takeWhile Token.isTrivia)).toList :=
    optional_space? fun t ht => formsAfter t ((List.takeWhile_sublist _).subset ht)
  have shapedProperty : (Node.leaf .property (Token.sourceText (first :: more))
      first.position).Everywhere Node.Shaped := by
    have start := Token.isTrivia_of_trim_eq_cons property
    have form := Token.forall_mem_trim formsBefore first (by simp [property])
    exact Node.everywhere_leaf.mpr ⟨rfl, sourceText_ne_nil start form⟩
  have shapedColon : (Node.leaf .colon ":" colon.position).Everywhere Node.Shaped :=
    Node.everywhere_leaf.mpr ⟨rfl, by simp [Node.leaf]⟩
  have shapedValue (p : Position) : (Node.branch .value p nodes).Everywhere Node.Shaped :=
    shaped_value (pieces_values (Token.forall_mem_trim formsAfter) value)
  refine ⟨rfl, Node.everywhere_iff.mpr ⟨?_, ?_⟩⟩
  · have kinds : (declarationNode before after colon first more nodes).kinds = [.property]
        ++ (space? (before.drop (first :: more).length)).toList.map (·.kind) ++ [.colon]
        ++ (space? (after.takeWhile Token.isTrivia)).toList.map (·.kind) ++ [.value] := by
      simp only [declarationNode, Node.kinds, Node.branch, List.map_append]
      rfl
    show Node.kinds _ ∈ _
    rw [kinds]
    rcases left.kinds with hl | hl <;> rcases right.kinds with hr | hr <;> rw [hl, hr] <;> decide
  · simp only [declarationNode, Node.branch, List.forall_mem_append, List.forall_mem_singleton]
    exact ⟨⟨⟨⟨shapedProperty, left.shaped⟩, shapedColon⟩, right.shaped⟩, shapedValue _⟩

/-- An at-rule is a statement of the right shape, with a block or without one. -/
theorem stated_atRule {name : Token} {block : Option Node} (forms : ∀ t ∈ rest, t.WellFormed)
    (optional : Node.Optional .block block.toList)
    (h : atRule name rest block = .ok node) : node.Stated := by
  obtain ⟨value, rfl, made⟩ := atRule_eq_ok.mp h
  have shapedValue : Node.Optional .value value ∧ ∀ v ∈ value, v.children ≠ [] := by
    rcases made with ⟨-, rfl⟩ | ⟨first, more, nodes, trimmed, read, rfl⟩
    · exact ⟨Node.optional_nil, by simp⟩
    · have pieces := pieces_values (trimmed ▸ Token.forall_mem_trim forms) read
      refine ⟨Node.optional_singleton rfl (shaped_value pieces), List.forall_mem_singleton.mpr ?_⟩
      exact values_ne_nil (Token.isTrivia_of_trim_eq_cons trimmed) read
  obtain ⟨shapedValue, nonempty⟩ := shapedValue
  refine ⟨rfl, Node.everywhere_iff.mpr ⟨⟨?_, ?_⟩, ?_⟩⟩
  · rcases shapedValue.kinds with hv | hv <;> rcases optional.kinds with hb | hb <;>
      simp [Node.kinds, hv, hb]
  · refine List.forall_mem_append.mpr ⟨fun v hv _ => nonempty v hv, fun b hb isValue => ?_⟩
    rw [optional.kind_eq hb] at isValue
    cases isValue
  · exact List.forall_mem_append.mpr ⟨shapedValue.shaped, optional.shaped⟩

/-- A statement with a block is of the right shape if the block is. -/
theorem stated_withBlock (start : first.isTrivia = false)
    (forms : ∀ t ∈ first :: rest, t.WellFormed) (kind : block.kind = .block)
    (shaped : block.Everywhere Node.Shaped) (h : withBlock first rest block = .ok node) :
    node.Stated := by
  rcases withBlock_eq_ok.mp h with ⟨-, read⟩ | ⟨-, nodes, read, rfl⟩
  · have optional : Node.Optional .block (some block).toList := Node.optional_singleton kind shaped
    exact stated_atRule (List.forall_mem_cons.mp forms).2 optional read
  · refine ⟨rfl, Node.everywhere_iff.mpr ⟨?_, ?_⟩⟩
    · simp [Node.Shaped, Node.branch, Node.kinds, kind]
    · have selector : (Node.mk .selector (Token.sourceText (first :: rest)) first.position
          nodes).Everywhere Node.Shaped :=
        shaped_head (.inl rfl) (values_ne_nil start read) (pieces_values forms read)
      simpa [Node.branch] using ⟨selector, shaped⟩

theorem stated_withoutBlock (start : first.isTrivia = false)
    (forms : ∀ t ∈ first :: rest, t.WellFormed) (h : withoutBlock first rest = .ok node) :
    node.Stated := by
  cases withoutBlock_eq_ok.mp h with
  | declaration cut read =>
    rw [(splitColon?_eq_some cut).1] at forms
    exact stated_declaration forms read
  | atRule _ _ read => exact stated_atRule (List.forall_mem_cons.mp forms).2 Node.optional_nil read
  | call _ _ read =>
    exact ⟨rfl, shaped_head (.inr rfl) (values_ne_nil start read) (pieces_values forms read)⟩

end Statement

theorem Node.kinds_stated {n : Node} (h : ∀ c ∈ n.children, c.Stated) :
    ∀ k ∈ n.kinds, k.isStatement = true :=
  List.forall_mem_map.mpr fun c hc => (h c hc).kind

theorem Reader.makes_stated : Makes Token.WellFormed Node.Stated where
  plain _ _ _ start forms read := Statement.stated_withoutBlock start forms read
  block first rest brace body node start forms stated read := by
    have block : (Node.branch .block brace body).Everywhere Node.Shaped :=
      Node.everywhere_iff.mpr ⟨Node.kinds_stated stated, fun c hc => (stated c hc).shaped⟩
    exact Statement.stated_withBlock start forms rfl block read

theorem Stylesheet.everywhere_shaped {source : String} {root : Node}
    (h : Stylesheet.parse source = .ok root) :
    root.kind = .stylesheet ∧ root.Everywhere Node.Shaped := by
  obtain ⟨ts, tokens, made⟩ := bind_eq_ok.mp h
  obtain ⟨body, rfl, stated⟩ := Stylesheet.forall_statement Reader.makes_stated
    (Token.wellFormed_of_tokenize tokens) made
  exact ⟨rfl, Node.everywhere_iff.mpr ⟨Node.kinds_stated stated, fun c hc => (stated c hc).shaped⟩⟩

/-- Every node of a style sheet has the shape of its kind. -/
theorem Stylesheet.shaped_parse {source : String} {root : Node}
    (h : Stylesheet.parse source = .ok root) :
    root.kind = .stylesheet ∧ ∀ n ∈ root.preorder, n.Shaped := by
  rw [Node.preorder_eq_walk]
  exact Stylesheet.everywhere_shaped h

/-- The hash is a name in the selector and in the call, and a colour in the value. -/
theorem Stylesheet.shaped_hashes : ∃ root,
    Stylesheet.parse "@media (a) \x7b #fff \x7b b : f(1px,@v) #fff; .m(#fff); \x7d \x7d" =
      .ok root ∧
    (root.preorder.map (·.kind)).count .color = 1 ∧
    root.kind = .stylesheet ∧ ∀ n ∈ root.preorder, n.Shaped := by
  have colors : (Stylesheet.parse
      "@media (a) \x7b #fff \x7b b : f(1px,@v) #fff; .m(#fff); \x7d \x7d").toOption.map
        (fun root => (root.preorder.map (·.kind)).count .color) = some 1 := by decide +kernel
  cases parsed : Stylesheet.parse
      "@media (a) \x7b #fff \x7b b : f(1px,@v) #fff; .m(#fff); \x7d \x7d" with
  | error e =>
    rw [parsed] at colors
    cases colors
  | ok root =>
    rw [parsed] at colors
    exact ⟨root, rfl, Option.some.inj colors, Stylesheet.shaped_parse parsed⟩

end SheetLint
