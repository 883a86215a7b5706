import SheetLint.Proofs.Coordinates
import SheetLint.Proofs.Places

/-!
# Nodes point at their text

The place of a node is where the node begins in the text: leaves begin with their own text, a
function with its name and a bracket, a block with its brace, and an at-rule with its sign and its
name. The other nodes stand where their first child stands.
-/

namespace SheetLint

namespace Node

/-- What stands in the text at the place of a node, for the kinds of nodes that tell. -/
def opening (n : Node) : List Char :=
  match n.kind with
  | .colon | .ident | .number | .dimension | .color | .string | .var | .operator => n.text.toList
  | .function => n.content.toList ++ ['(']
  | .arguments | .parentheses => ['(']
  | .block => ['\x7b']
  | .atRule => '@' :: n.content.toList
  | .stylesheet | .ruleset | .selector | .declaration | .property | .value | .space | .mixinCall =>
    []

/-- From the place of the node on, the text reads as the node begins. -/
def Points (source : List Char) (n : Node) : Prop :=
  n.opening <+: n.position.seek source

/-- The place of a node is where the node begins. -/
structure Located (source : List Char) (n : Node) : Prop where
  text : n.Points source
  first : n.kind = .ruleset ∨ n.kind = .declaration →
    ∃ c rest, n.children = c :: rest ∧ c.position = n.position
  value : n.kind = .value → ∀ c rest, n.children = c :: rest → c.position = n.position

theorem points_of_opening_eq_nil {source : List Char} {n : Node} (silent : n.opening = []) :
    n.Points source := by
  rw [Points, silent]
  exact List.nil_prefix

end Node

namespace Token

variable {source : List Char} {t : Token} {ts : List Token} {n : Node} {inSelector : Bool}

theorem Stands.prefix_seek (h : Stands source (t :: ts)) :
    t.text.toList <+: t.position.seek source :=
  (List.prefix_append _ _).trans h.seek

theorem WellFormed.text_of_isDelimiter {c : Char} (form : t.WellFormed)
    (h : t.isDelimiter c = true) : t.text.toList = [c] := by
  have kind : t.kind = .delimiter c := by simpa [isDelimiter] using h
  simpa [WellFormed, kind] using form

/-- A delimiter is found at the place of its token. -/
theorem Stands.delimiter {c : Char} (h : Stands source (t :: ts)) (is : t.isDelimiter c = true) :
    [c] <+: t.position.seek source := by
  have text := (h.forms t (by simp)).text_of_isDelimiter is
  exact text ▸ h.prefix_seek

/-- A leaf begins as its token does, unless it is a blank. -/
theorem opening_leaf? (form : t.WellFormed) (h : t.leaf? inSelector = some n) :
    n.opening <+: t.text.toList := by
  have text {kind : NodeKind} {p : Position}
      (own : (Node.leaf kind t.text p).opening = t.text.toList) :
      (Node.leaf kind t.text p).opening <+: t.text.toList := by
    rw [own]
  unfold Token.leaf? at h
  cases kind : t.kind <;> simp only [kind] at h
  case comment => cases h
  case whitespace =>
    cases h
    exact List.nil_prefix
  case hash =>
    obtain ⟨cs, sign⟩ : ∃ cs, t.text.toList = '#' :: cs := by simpa [WellFormed, kind] using form
    split at h <;> cases h
    · have digits : (Node.leaf .color (String.ofList (t.text.toList.drop 1)) t.position).opening =
          t.text.toList := by
        simp [Node.opening, Node.leaf, Node.text, Node.assemble, sign]
      rw [digits]
    · exact text rfl
  case number =>
    cases h
    split
    · exact text rfl
    · exact text rfl
  all_goals
    cases h
    exact text rfl

end Token

namespace Node.Origin

variable {source : List Char} {ts : List Token} {n : Node}

/-- The tokens from which a node is made stand in the text where the node says. -/
theorem points (origin : n.Origin ts) (stands : Token.Stands source ts) : n.Points source := by
  cases origin with
  | leaf part made =>
    have stood := stands.part part
    rw [Points, position_leaf? made]
    exact (Token.opening_leaf? (stood.forms _ (by simp)) made).trans stood.prefix_seek
  | brackets isPair part opening =>
    have bracket := (stands.part part).delimiter opening
    rcases isPair with rfl | rfl
    · exact bracket
    · exact bracket
  | @call w o children part opening =>
    have stood := stands.part part
    have both := stood.seek
    rw [Token.joined_cons, (stood.forms o (by simp)).text_of_isDelimiter opening, Token.joined_nil,
      List.append_nil] at both
    exact both
  | property => exact points_of_opening_eq_nil rfl
  | space _ made =>
    obtain ⟨content, p, rfl⟩ := Statement.exists_leaf_of_space? made
    exact points_of_opening_eq_nil rfl
  | colon part isColon =>
    have sign := (stands.part part).delimiter isColon
    simpa [Points, Node.opening, Node.leaf, Node.text, assemble] using sign
  | value => exact points_of_opening_eq_nil rfl
  | emptyValue => exact points_of_opening_eq_nil rfl
  | head isHead =>
    rcases isHead with rfl | rfl
    · exact points_of_opening_eq_nil rfl
    · exact points_of_opening_eq_nil rfl
  | declaration _ _ _ read =>
    obtain ⟨_, _, _, -, -, rfl⟩ := Statement.declaration_eq_ok.mp read
    exact points_of_opening_eq_nil rfl
  | @atRule name _ part isAt =>
    have stood := stands.part part
    obtain ⟨cs, sign⟩ : ∃ cs, name.text.toList = '@' :: cs := by
      simpa [Token.WellFormed, isAt] using stood.forms name (by simp)
    simpa [Points, Node.opening, sign] using stood.prefix_seek
  | block part opening => exact (stands.part part).delimiter opening
  | ruleset => exact points_of_opening_eq_nil rfl

end Node.Origin

namespace Stylesheet

theorem everywhere_points {source : String} {root : Node} (h : parse source = .ok root) :
    root.Everywhere (Node.Points (withoutMark source).toList) := by
  obtain ⟨ts, tokens, read⟩ := bind_eq_ok.mp h
  have isRoot := (everywhere_shaped h).1
  refine Node.everywhere_iff.mpr ⟨Node.points_of_opening_eq_nil (by rw [Node.opening, isRoot]), ?_⟩
  intro n isChild m member
  exact (everywhere_origin read n isChild m member).points (Token.stands_of_tokenize tokens)

/-- A ruleset or a declaration has children. -/
theorem exists_first_child {n : Node} (shaped : n.Shaped)
    (kind : n.kind = .ruleset ∨ n.kind = .declaration) :
    ∃ first rest, n.children = first :: rest := by
  apply List.exists_cons_of_ne_nil
  intro childless
  rcases kind with kind | kind <;> simp [Node.Shaped, kind, Node.kinds, childless] at shaped

theorem seated_of_mem {source : String} {root n : Node} (h : parse source = .ok root)
    (member : n ∈ root.walk) (below : n.kind ≠ .stylesheet) : n.Seated := by
  rcases Node.mem_walk.mp member with rfl | ⟨top, isTop, inside⟩
  · exact absurd (everywhere_shaped h).1 below
  · exact everywhere_seated h top isTop n inside

/-- Every node of a style sheet stands where it begins in the text behind the byte-order mark. -/
theorem located_parse {source : String} {root : Node} (h : parse source = .ok root) :
    ∀ n ∈ root.preorder, n.Located (withoutMark source).toList := by
  intro n member
  rw [Node.preorder_eq_walk] at member
  refine ⟨everywhere_points h n member, ?_, ?_⟩
  · intro kind
    obtain ⟨first, rest, children⟩ := exists_first_child ((everywhere_shaped h).2 n member) kind
    have seated : n.Seated :=
      seated_of_mem h member (by rcases kind with kind | kind <;> simp [kind])
    refine ⟨first, rest, children, seated ?_ first (by simp [children])⟩
    rcases kind with kind | kind <;> rw [kind] <;> rfl
  · intro kind first rest children
    have seated : n.Seated := seated_of_mem h member (by simp [kind])
    exact seated (by rw [kind]; rfl) first (by simp [children])

/-- Nodes behind a byte-order mark, a line feed and a comment are found, among them a number with a
    sign and the contents of a url. -/
theorem located_parse_nested : ∃ root,
    parse "\ufeff@m ü\x7b\n a\x7bb:f(-1px,#fff)/*x*/ url(y);c:\x7d\x7d" = .ok root ∧
    (root.preorder.filter (!·.opening.isEmpty)).map (fun n =>
        (n.position, String.ofList n.opening)) =
      [(⟨1, 1⟩, "@m"), (⟨1, 4⟩, "ü"), (⟨1, 5⟩, "\x7b"), (⟨2, 2⟩, "a"), (⟨2, 3⟩, "\x7b"),
        (⟨2, 5⟩, ":"), (⟨2, 6⟩, "f("), (⟨2, 7⟩, "("), (⟨2, 8⟩, "-1px"), (⟨2, 12⟩, ","), (⟨2, 13⟩, "#fff"),
        (⟨2, 24⟩, "url("), (⟨2, 27⟩, "("), (⟨2, 28⟩, "y"), (⟨2, 32⟩, ":")] ∧
    ∀ n ∈ root.preorder, n.Located
      (withoutMark "\ufeff@m ü\x7b\n a\x7bb:f(-1px,#fff)/*x*/ url(y);c:\x7d\x7d").toList := by
  apply exists_ok_of_map_toOption
  · decide +kernel
  · intro root parsed
    exact located_parse parsed

end Stylesheet

end SheetLint
