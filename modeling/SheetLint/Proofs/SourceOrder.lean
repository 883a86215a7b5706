import SheetLint.Proofs.Places
import Mathlib.Data.List.DropRight

/-!
# Nodes in the order of the text

From left to right, nodes with a token of their own stand at places that increase, and the other
nodes stand where their first child stands. So a visit of the tree goes through the text from its
start to its end (`Node.Orderly`), and siblings follow each other. Only an empty value has nothing
of its own: it stands where the colon in front of it stands.
-/

namespace SheetLint

namespace Position

theorem le_iff {p q : Position} : p ≤ q ↔ p = q ∨ p < q := by
  have unfolded : p ≤ q ↔ p.line < q.line ∨ (p.line = q.line ∧ p.column ≤ q.column) := Iff.rfl
  obtain ⟨pl, pc⟩ := p
  obtain ⟨ql, qc⟩ := q
  simp only [unfolded, lt_iff, mk.injEq]
  omega

theorem le_of_lt {p q : Position} (h : p < q) : p ≤ q :=
  le_iff.mpr (.inr h)

theorem le_of_eq {p q : Position} (h : p = q) : p ≤ q :=
  le_iff.mpr (.inl h)

/-- No place of an increasing list comes before its first one. -/
theorem le_of_head? {p : Position} {ps : List Position} (increasing : ps.Pairwise (· < ·))
    (first : ps.head? = some p) : ∀ q ∈ ps, p ≤ q := by
  obtain ⟨rest, rfl⟩ := List.head?_eq_some_iff.mp first
  intro q member
  rcases List.mem_cons.mp member with rfl | later
  · exact le_of_eq rfl
  · exact le_of_lt ((List.pairwise_cons.mp increasing).1 q later)

end Position

namespace Node

/-- The nodes of some trees stand in the order of the visit, at places of nodes that have tokens of
    their own. -/
structure Orderly (ns : List Node) : Prop where
  within : ∀ m ∈ walkAll ns, m.position ∈ places ns
  sorted : ((walkAll ns).map (·.position)).Pairwise (· ≤ ·)

theorem orderly_nil : Orderly [] :=
  ⟨by simp, by simp⟩

/-- Two orderly lists of trees are orderly together if their places increase. -/
theorem Orderly.append {ns ms : List Node} (left : Orderly ns) (right : Orderly ms)
    (increasing : (places (ns ++ ms)).Pairwise (· < ·)) : Orderly (ns ++ ms) := by
  rw [places_append, List.pairwise_append] at increasing
  refine ⟨?_, ?_⟩
  · intro m member
    rw [walkAll_append, List.mem_append] at member
    rw [places_append, List.mem_append]
    exact member.imp (left.within m) (right.within m)
  · rw [walkAll_append, List.map_append, List.pairwise_append]
    refine ⟨left.sorted, right.sorted, ?_⟩
    intro p hp q hq
    obtain ⟨m, here, rfl⟩ := List.mem_map.mp hp
    obtain ⟨n, there, rfl⟩ := List.mem_map.mp hq
    apply Position.le_of_lt
    exact increasing.2.2 _ (left.within m here) _ (right.within n there)

/-- The tree begins with a token at its own place. -/
def Starts (n : Node) : Prop :=
  (places [n]).head? = some n.position

theorem Starts.mem {n : Node} (h : n.Starts) : n.position ∈ places [n] :=
  List.mem_of_head? h

theorem starts_of_owns {n : Node} (owns : n.kind.ownsToken = true) : n.Starts := by
  rw [Starts, places_singleton, if_pos owns]
  rfl

/-- A node that stands where its first child stands starts as the child does. -/
theorem starts_of_first {n c : Node} {rest : List Node} (lacks : n.kind.ownsToken = false)
    (children : n.children = c :: rest) (place : c.position = n.position) (starts : c.Starts) :
    n.Starts := by
  rw [Starts, places_singleton, lacks, if_neg Bool.false_ne_true, List.nil_append, children,
    places_cons, List.head?_append, starts, place]
  rfl

/-- A tree that begins with a token at its own place is orderly if its children are. -/
theorem orderly_of_children {n : Node} (starts : n.Starts) (below : Orderly n.children)
    (increasing : (places [n]).Pairwise (· < ·)) : Orderly [n] := by
  have inside : ∀ p ∈ places n.children, p ∈ places [n] := by
    intro p member
    rw [places_singleton]
    exact List.mem_append_right _ member
  have walk : walkAll [n] = n :: walkAll n.children := by
    rw [walkAll_cons, walk_eq, walkAll_nil, List.append_nil]
  refine ⟨?_, ?_⟩
  · rw [walk, List.forall_mem_cons]
    exact ⟨starts.mem, fun m member => inside _ (below.within m member)⟩
  · rw [walk, List.map_cons, List.pairwise_cons]
    refine ⟨?_, below.sorted⟩
    intro p hp
    obtain ⟨m, member, rfl⟩ := List.mem_map.mp hp
    exact Position.le_of_head? increasing starts _ (inside _ (below.within m member))

/-- A tree without places may echo the place of the node in front of it. -/
theorem Orderly.echo {front : List Node} {colon value : Node} (h : Orderly (front ++ [colon]))
    (increasing : (places (front ++ [colon])).Pairwise (· < ·))
    (single : places [colon] = [colon.position]) (childless : value.children = [])
    (place : value.position = colon.position) : Orderly (front ++ [colon] ++ [value]) := by
  have walk : walkAll (front ++ [colon] ++ [value]) = walkAll (front ++ [colon]) ++ [value] := by
    rw [walkAll_append, walkAll_cons value, walk_eq value, childless]
    rfl
  have last : ∀ p ∈ places (front ++ [colon]), p ≤ colon.position := by
    rw [places_append, single] at increasing ⊢
    intro p member
    rcases List.mem_append.mp member with earlier | here
    · exact Position.le_of_lt ((List.pairwise_append.mp increasing).2.2 p earlier _ (by simp))
    · exact Position.le_of_eq (List.mem_singleton.mp here)
  have kept : ∀ p ∈ places (front ++ [colon]), p ∈ places (front ++ [colon] ++ [value]) := by
    intro p member
    rw [places_append _ [value]]
    exact List.mem_append_left _ member
  refine ⟨?_, ?_⟩
  · rw [walk, List.forall_mem_append, List.forall_mem_singleton, place]
    refine ⟨fun m member => kept _ (h.within m member), kept _ ?_⟩
    rw [places_append, single]
    exact List.mem_append_right _ (List.mem_singleton_self _)
  · rw [walk, List.map_append, List.pairwise_append]
    refine ⟨h.sorted, List.pairwise_singleton _ _, ?_⟩
    intro p hp q hq
    obtain ⟨m, member, rfl⟩ := List.mem_map.mp hp
    rw [List.map_singleton, List.mem_singleton] at hq
    rw [hq, place]
    exact last _ (h.within m member)

/-- Trees that begin with tokens of their own follow each other. -/
theorem pairwise_of_starts {ns : List Node} (starts : ∀ n ∈ ns, n.Starts)
    (increasing : (places ns).Pairwise (· < ·)) :
    ns.Pairwise fun m n => m.position < n.position := by
  induction ns with
  | nil => exact .nil
  | cons n ns ih =>
    obtain ⟨here, later⟩ := List.forall_mem_cons.mp starts
    rw [places_cons, List.pairwise_append] at increasing
    refine List.pairwise_cons.mpr ⟨?_, ih later increasing.2.1⟩
    intro m member
    have inside : m.position ∈ places ns := by
      obtain ⟨before, after, rfl⟩ := List.append_of_mem member
      rw [places_append, places_cons]
      exact List.mem_append_right _ (List.mem_append_left _ (later m member).mem)
    exact increasing.2.2 _ here.mem _ inside

/-- The node has neither a token of its own nor children. -/
def Hollow (n : Node) : Prop :=
  n.kind.ownsToken = false ∧ n.children = []

/-- If the last child of a declaration, its value, is empty, then it stands directly behind the
    colon and at its place. -/
def Tight (n : Node) : Prop :=
  n.kind = .declaration → ∀ front value, n.children = front ++ [value] → value.children = [] →
    ∃ before colon, front = before ++ [colon] ∧ colon.kind = .colon ∧
      value.position = colon.position

theorem tight_of_other {n : Node} (other : (n.kind == .declaration) = false) : n.Tight := by
  intro kind
  exact absurd kind (ne_of_beq_false other)

/-- The children stand in the order of their places. Only the value of a declaration stands at the
    place of the colon if it is empty. -/
def InOrder (n : Node) : Prop :=
  n.children.Pairwise fun a b =>
    if n.kind = .declaration ∧ a.kind = .colon ∧ b.kind = .value ∧ b.children = [] then
      b.position = a.position
    else a.position < b.position

/-- Only style sheets and values may be hollow. -/
theorem not_hollow_of_shaped {n : Node} (shaped : n.Shaped) (noSheet : n.kind ≠ .stylesheet)
    (noValue : n.kind ≠ .value) : ¬ n.Hollow := by
  rintro ⟨lacks, childless⟩
  unfold Shaped at shaped
  cases kind : n.kind <;> simp_all [NodeKind.ownsToken, kinds]

/-- Apart from declarations, no node has a style sheet or an empty value as its child. -/
theorem child_of_shaped {n c : Node} (shaped : n.Shaped) (isChild : c ∈ n.children)
    (other : n.kind ≠ .declaration) :
    c.kind ≠ .stylesheet ∧ (c.kind = .value → c.children ≠ []) := by
  have listed : c.kind ∈ n.kinds := List.mem_map_of_mem isChild
  have neither (h : c.kind ≠ .stylesheet ∧ c.kind ≠ .value) :
      c.kind ≠ .stylesheet ∧ (c.kind = .value → c.children ≠ []) :=
    ⟨h.1, fun isValue => absurd isValue h.2⟩
  have statement (h : c.kind.isStatement = true) : c.kind ≠ .stylesheet ∧ c.kind ≠ .value := by
    cases kind : c.kind <;> simp_all [NodeKind.isStatement]
  have piece (h : c.kind.isPiece = true) : c.kind ≠ .stylesheet ∧ c.kind ≠ .value := by
    cases kind : c.kind <;> simp_all [NodeKind.isPiece]
  unfold Shaped at shaped
  cases kind : n.kind <;> simp only [kind] at shaped
  case stylesheet => exact neither (statement (shaped _ listed))
  case block => exact neither (statement (shaped _ listed))
  case ruleset =>
    apply neither
    rw [shaped] at listed
    rcases List.mem_pair.mp listed with isKind | isKind <;> simp [isKind]
  case atRule =>
    refine ⟨?_, shaped.2 c isChild⟩
    intro isSheet
    rw [isSheet] at listed
    have kinds := shaped.1
    simp only [List.mem_cons, List.not_mem_nil, or_false] at kinds
    rcases kinds with h | h | h | h <;> simp [h] at listed
  case declaration => exact absurd kind other
  case function =>
    apply neither
    rw [shaped, List.mem_singleton] at listed
    simp [listed]
  case selector => exact neither (piece (shaped.2.1 _ listed))
  case mixinCall => exact neither (piece (shaped.2.1 _ listed))
  case value => exact neither (piece (shaped _ listed))
  case arguments => exact neither (piece (shaped _ listed))
  case parentheses => exact neither (piece (shaped _ listed))
  all_goals
    rw [shaped.1] at isChild
    cases isChild

/-- A declaration ends with its value, and what stands before it has tokens of its own; one of these
    nodes is a colon. -/
theorem exists_value_of_shaped {n : Node} (shaped : n.Shaped) (kind : n.kind = .declaration) :
    ∃ front value, n.children = front ++ [value] ∧ value.kind = .value ∧
      (∀ c ∈ front, c.kind.ownsToken = true) ∧ (front.map (·.kind)).count .colon = 1 := by
  obtain ⟨ks, kinds, owns, colons⟩ : ∃ ks, n.kinds = ks ++ [.value] ∧
      (∀ k ∈ ks, k.ownsToken = true) ∧ ks.count .colon = 1 := by
    simp only [Shaped, kind, List.mem_cons, List.not_mem_nil, or_false] at shaped
    rcases shaped with h | h | h | h
    · exact ⟨[.property, .colon], h, by decide⟩
    · exact ⟨[.property, .space, .colon], h, by decide⟩
    · exact ⟨[.property, .colon, .space], h, by decide⟩
    · exact ⟨[.property, .space, .colon, .space], h, by decide⟩
  obtain ⟨front, last, children, rfl, single⟩ := List.map_eq_append_iff.mp kinds
  obtain ⟨value, rfl, isValue⟩ := List.map_eq_singleton_iff.mp single
  exact ⟨front, value, children, isValue, fun c hc => owns _ (List.mem_map_of_mem hc), colons⟩

/-- A declaration without a value: what stands for it echoes the colon in front of it. -/
structure Bare (n : Node) (front : List Node) (colon value : Node) : Prop where
  kind : n.kind = .declaration
  children : n.children = front ++ [colon] ++ [value]
  owns : ∀ c ∈ front ++ [colon], c.kind.ownsToken = true
  isColon : colon.kind = .colon
  others : ∀ c ∈ front, c.kind ≠ .colon
  isValue : value.kind = .value
  childless : value.children = []
  place : value.position = colon.position

theorem not_hollow_of_owns {n : Node} (owns : n.kind.ownsToken = true) : ¬ n.Hollow := by
  rintro ⟨lacks, -⟩
  rw [owns] at lacks
  cases lacks

/-- The children of a node are solid, or the node is a declaration without a value. -/
theorem solid_or_bare {n : Node} (shaped : n.Shaped) (tight : n.Tight)
    (below : ∀ c ∈ n.children, c.Shaped) :
    (∀ c ∈ n.children, ¬ c.Hollow) ∨ ∃ front colon value, n.Bare front colon value := by
  by_cases kind : n.kind = .declaration
  · obtain ⟨front, value, children, isValue, owns, colons⟩ := exists_value_of_shaped shaped kind
    by_cases childless : value.children = []
    · obtain ⟨before, colon, rfl, isColon, place⟩ := tight kind front value children childless
      have others : ∀ c ∈ before, c.kind ≠ .colon := by
        intro c hc again
        rw [List.map_append, List.count_append, List.map_singleton, isColon,
          List.count_singleton_self] at colons
        have listed : .colon ∈ before.map (·.kind) := again ▸ List.mem_map_of_mem hc
        have counted := List.count_pos_iff.mpr listed
        omega
      exact .inr ⟨before, colon, value, kind, children, owns, isColon, others, isValue, childless,
        place⟩
    · left
      rw [children, List.forall_mem_append, List.forall_mem_singleton]
      exact ⟨fun c hc => not_hollow_of_owns (owns c hc), fun hollow => childless hollow.2⟩
  · left
    intro c isChild hollow
    obtain ⟨noSheet, filled⟩ := child_of_shaped shaped isChild kind
    by_cases isValue : c.kind = .value
    · exact filled isValue hollow.2
    · exact not_hollow_of_shaped (below c isChild) noSheet isValue hollow

/-! ### The order of a tree -/

/-- What the trees of statements are known to satisfy. -/
structure Regular (n : Node) : Prop where
  shaped : n.Shaped
  seated : n.Seated
  tight : n.Tight

/-- The tree stands in the text in the order of its nodes. -/
structure Settled (n : Node) : Prop where
  starts : n.Starts
  orderly : Orderly [n]
  inOrder : n.Everywhere InOrder

/-- Trees that follow each other are in order if each of them is. -/
theorem orderly_of_settled {ns : List Node}
    (each : ∀ c ∈ ns, (places [c]).Pairwise (· < ·) → c.Settled)
    (increasing : (places ns).Pairwise (· < ·)) : (∀ c ∈ ns, c.Settled) ∧ Orderly ns := by
  induction ns with
  | nil => exact ⟨by simp, orderly_nil⟩
  | cons n ns ih =>
    obtain ⟨here, later⟩ := List.forall_mem_cons.mp each
    obtain ⟨first, rest, -⟩ := List.pairwise_append.mp (places_cons n ns ▸ increasing)
    obtain ⟨settled, orderly⟩ := ih later rest
    have settledHere := here first
    exact ⟨List.forall_mem_cons.mpr ⟨settledHere, settled⟩,
      settledHere.orderly.append orderly increasing⟩

theorem inOrder_of_solid {n : Node} (solid : ∀ c ∈ n.children, ¬ c.Hollow)
    (settled : ∀ c ∈ n.children, c.Settled) (increasing : (places n.children).Pairwise (· < ·)) :
    n.InOrder := by
  have follows := pairwise_of_starts (fun c hc => (settled c hc).starts) increasing
  refine follows.imp_of_mem ?_
  intro a b _ isChild before
  rw [if_neg]
  · exact before
  · rintro ⟨-, -, isValue, childless⟩
    exact solid b isChild ⟨by rw [isValue]; rfl, childless⟩

/-- A node whose children are in order is in order itself, if its tree begins where it stands. -/
theorem settled_of_children {n : Node} (starts : n.Starts) (orderly : Orderly n.children)
    (increasing : (places [n]).Pairwise (· < ·)) (here : n.InOrder)
    (below : ∀ c ∈ n.children, c.Everywhere InOrder) : n.Settled :=
  ⟨starts, orderly_of_children starts orderly increasing, everywhere_iff.mpr ⟨here, below⟩⟩

section Bare

variable {n colon value : Node} {front : List Node}

/-- A declaration without a value is in order if its other children are. -/
theorem Bare.inOrder (bare : n.Bare front colon value)
    (follows : (front ++ [colon]).Pairwise fun a b => a.position < b.position) : n.InOrder := by
  rw [InOrder, bare.children, List.pairwise_append]
  refine ⟨follows.imp_of_mem ?_, List.pairwise_singleton _ _, ?_⟩
  · intro a b _ member before
    rw [if_neg]
    · exact before
    · rintro ⟨-, -, isValue, -⟩
      have owned := bare.owns b member
      rw [isValue] at owned
      cases owned
  · intro a member b isLast
    rw [List.mem_singleton] at isLast
    subst isLast
    rcases List.mem_append.mp member with earlier | last
    · have before := (List.pairwise_append.mp follows).2.2 a earlier colon (by simp)
      rw [if_neg (fun h => bare.others a earlier h.2.1), bare.place]
      exact before
    · rw [List.mem_singleton] at last
      subst last
      rw [if_pos ⟨bare.kind, bare.isColon, bare.isValue, bare.childless⟩, bare.place]

/-- A declaration without a value begins with a token at its own place. -/
theorem Bare.starts (bare : n.Bare front colon value) (seated : n.Seated) : n.Starts := by
  have inhabited : front ++ [colon] ≠ [] := by simp
  obtain ⟨c, rest, split⟩ := List.exists_cons_of_ne_nil inhabited
  have children : n.children = c :: (rest ++ [value]) := by
    rw [bare.children, split]
    rfl
  have lacks : n.kind.ownsToken = false := by
    rw [bare.kind]
    rfl
  have owns : c.kind.ownsToken = true := bare.owns c (by rw [split]; exact List.mem_cons_self)
  exact starts_of_first lacks children (seated lacks c (by simp [children])) (starts_of_owns owns)

/-- A declaration without a value is settled if its other children are. -/
theorem Bare.settled (bare : n.Bare front colon value) (seated : n.Seated)
    (leaf : colon.children = [])
    (each : ∀ c ∈ front ++ [colon], (places [c]).Pairwise (· < ·) → c.Settled)
    (increasing : (places [n]).Pairwise (· < ·)) : n.Settled := by
  have increasingFront : (places (front ++ [colon])).Pairwise (· < ·) := by
    rw [places_singleton, bare.children, places_append _ [value]] at increasing
    exact (List.pairwise_append.mp (List.pairwise_append.mp increasing).2.1).1
  obtain ⟨settled, orderly⟩ := orderly_of_settled each increasingFront
  have single : places [colon] = [colon.position] := by
    rw [places_singleton, bare.isColon, leaf]
    rfl
  refine settled_of_children (bare.starts seated) ?_ increasing ?_ ?_
  · rw [bare.children]
    exact orderly.echo increasingFront single bare.childless bare.place
  · apply bare.inOrder
    exact pairwise_of_starts (fun c hc => (settled c hc).starts) increasingFront
  · rw [bare.children, List.forall_mem_append, List.forall_mem_singleton]
    refine ⟨fun c hc => (settled c hc).inOrder, everywhere_iff.mpr ⟨?_, by simp [bare.childless]⟩⟩
    rw [InOrder, bare.childless]
    exact .nil

end Bare

/-- A regular tree is in order if the places of its tokens are. -/
theorem settled_of_regular {n : Node} (regular : n.Everywhere Regular) (solid : ¬ n.Hollow)
    (increasing : (places [n]).Pairwise (· < ·)) : n.Settled := by
  induction n using induction with
  | step n ih =>
    obtain ⟨⟨shaped, seated, tight⟩, below⟩ := everywhere_iff.mp regular
    have shapedBelow : ∀ c ∈ n.children, c.Shaped := by
      intro c isChild
      exact ((everywhere_iff.mp (below c isChild)).1).shaped
    rcases solid_or_bare shaped tight shapedBelow with all | ⟨front, colon, value, bare⟩
    · have increasingBelow : (places n.children).Pairwise (· < ·) := by
        rw [places_singleton] at increasing
        exact (List.pairwise_append.mp increasing).2.1
      obtain ⟨settled, orderly⟩ :=
        orderly_of_settled (fun c hc => ih c hc (below c hc) (all c hc)) increasingBelow
      have starts : n.Starts := by
        cases owns : n.kind.ownsToken with
        | true => exact starts_of_owns owns
        | false =>
          have inhabited : n.children ≠ [] := fun childless => solid ⟨owns, childless⟩
          obtain ⟨c, rest, children⟩ := List.exists_cons_of_ne_nil inhabited
          exact starts_of_first owns children (seated owns c (by simp [children]))
            (settled c (by simp [children])).starts
      exact settled_of_children starts orderly increasing
        (inOrder_of_solid all settled increasingBelow) fun c hc => (settled c hc).inOrder
    · have inside : ∀ c ∈ front ++ [colon], c ∈ n.children := by
        intro c member
        rw [bare.children]
        exact List.mem_append_left _ member
      have leaf : colon.children = [] := by
        have shapedColon := shapedBelow colon (inside colon (by simp))
        simp only [Shaped, bare.isColon] at shapedColon
        exact shapedColon.1
      refine bare.settled seated leaf ?_ increasing
      intro c member
      exact ih c (inside c member) (below c (inside c member))
        (not_hollow_of_owns (bare.owns c member))

end Node

/-- If a value has no nodes then nothing stands behind the colon, since no trivia ends a
    statement. -/
theorem Statement.after_eq_nil {after : List Token}
    (ends : ∀ us last, after = us ++ [last] → last.isTrivia = false)
    (h : values false (Token.trim after) = .ok []) : after = [] := by
  have blank : Token.trim after = [] := by
    cases trimmed : Token.trim after with
    | nil => rfl
    | cons first more =>
      rw [trimmed] at h
      exact absurd rfl (values_ne_nil (Token.isTrivia_of_trim_eq_cons trimmed) h)
  rcases List.eq_nil_or_concat after with none | ⟨us, last, split⟩
  · exact none
  · have trivia := Token.trim_eq_nil_iff.mp blank last (by simp [split])
    rw [ends us last (by rw [split, List.concat_eq_append])] at trivia
    cases trivia

/-- An empty value stands directly behind the colon, since no trivia are left at the end of a
    statement. -/
theorem Statement.tight_declaration {before after : List Token} {colon : Token} {node : Node}
    (ends : ∀ us last, after = us ++ [last] → last.isTrivia = false)
    (h : declaration before colon after = .ok node) : node.Tight := by
  obtain ⟨first, more, nodes, -, value, rfl⟩ := declaration_eq_ok.mp h
  intro _ front last children childless
  obtain ⟨rfl, isLast⟩ := List.append_inj' children rfl
  obtain rfl := (List.cons.inj isLast).1
  have empty : nodes = [] := childless
  subst empty
  obtain rfl := after_eq_nil ends value
  exact ⟨_, .leaf .colon ":" colon.position, List.append_nil _, rfl, rfl⟩

/-- Nodes that come from tokens are tight. -/
theorem Node.Origin.tight {ts : List Token} {n : Node} (origin : n.Origin ts) : n.Tight := by
  cases origin with
  | leaf _ made =>
    obtain ⟨kind, content, isPiece, rfl⟩ := exists_leaf_of_leaf? made
    rintro (rfl : kind = .declaration)
    cases isPiece
  | brackets isPair => rcases isPair with rfl | rfl <;> exact tight_of_other rfl
  | space _ made =>
    obtain ⟨content, p, rfl⟩ := Statement.exists_leaf_of_space? made
    exact tight_of_other rfl
  | head isHead => rcases isHead with rfl | rfl <;> exact tight_of_other rfl
  | @declaration us _ before after _ colon _ _ trimmed cut read =>
    refine Statement.tight_declaration ?_ read
    rintro vs last rfl
    have ends : Token.trim us = (before ++ colon :: vs) ++ [last] := by
      rw [trimmed, (Statement.splitColon?_eq_some cut).1, List.append_assoc, List.cons_append]
    exact Token.isTrivia_of_trim_eq_concat ends
  | _ => exact tight_of_other rfl

namespace Stylesheet

variable {source : String} {root : Node}

theorem everywhere_regular (h : parse source = .ok root) :
    ∀ n ∈ root.children, n.Everywhere Node.Regular := by
  obtain ⟨ts, -, read⟩ := bind_eq_ok.mp h
  have shaped := (Node.everywhere_iff.mp (everywhere_shaped h).2).2
  intro n isChild m member
  exact ⟨shaped n isChild m member, everywhere_seated h n isChild m member,
    (everywhere_origin read n isChild m member).tight⟩

/-- The places of tokens begin at the start of the text and increase. -/
theorem increasing_places (h : parse source = .ok root) :
    (Node.places [root]).Pairwise (· < ·) ∧ ∀ p ∈ Node.places [root], .start ≤ p := by
  obtain ⟨ts, tokens, read⟩ := bind_eq_ok.mp h
  obtain ⟨later, ordered⟩ := (Token.tiles_of_tokenize tokens).1.pairwise
  have within := sublist_places read
  refine ⟨(List.pairwise_map.mpr ordered).sublist within, ?_⟩
  intro p member
  obtain ⟨t, isToken, rfl⟩ := List.mem_map.mp (within.subset member)
  rcases later t isToken with first | behind
  · exact Position.le_of_eq first.symm
  · exact Position.le_of_lt behind

theorem position_root (h : parse source = .ok root) : root.position = .start := by
  obtain ⟨ts, -, read⟩ := bind_eq_ok.mp h
  obtain ⟨r, -, finished⟩ := bind_eq_ok.mp read
  obtain ⟨-, last, -, -, rfl⟩ := Reader.finish_eq_ok.mp finished
  rfl

/-- A visit of a style sheet goes through the text from its start to its end, and the children of a
    node stand one behind the other. -/
theorem inOrder_parse (h : parse source = .ok root) :
    (root.preorder.map (·.position)).Pairwise (· ≤ ·) ∧ ∀ n ∈ root.preorder, n.InOrder := by
  obtain ⟨isRoot, shaped⟩ := everywhere_shaped h
  obtain ⟨shapedRoot, shapedBelow⟩ := Node.everywhere_iff.mp shaped
  have solid : ∀ c ∈ root.children, ¬ c.Hollow := by
    have tight : root.Tight := Node.tight_of_other (by rw [isRoot]; rfl)
    have shapes : ∀ c ∈ root.children, c.Shaped :=
      fun c isChild => (Node.everywhere_iff.mp (shapedBelow c isChild)).1
    rcases Node.solid_or_bare shapedRoot tight shapes with all | ⟨front, colon, value, bare⟩
    · exact all
    · have kind := bare.kind
      rw [isRoot] at kind
      cases kind
  obtain ⟨increasing, later⟩ := increasing_places h
  have below : Node.places [root] = Node.places root.children := by
    rw [Node.places_singleton, isRoot]
    rfl
  rw [below] at increasing later
  have each c (isChild : c ∈ root.children) :=
    Node.settled_of_regular (everywhere_regular h c isChild) (solid c isChild)
  obtain ⟨settled, orderly⟩ := Node.orderly_of_settled each increasing
  have inOrder := Node.inOrder_of_solid solid settled increasing
  rw [Node.preorder_eq_walk]
  refine ⟨?_, Node.everywhere_iff.mpr ⟨inOrder, fun c isChild => (settled c isChild).inOrder⟩⟩
  rw [Node.walk_eq, List.map_cons, List.pairwise_cons, position_root h]
  refine ⟨?_, orderly.sorted⟩
  intro p hp
  obtain ⟨m, member, rfl⟩ := List.mem_map.mp hp
  exact later _ (orderly.within m member)

/-- Places in a tree with nested statements, brackets and an empty value. -/
theorem inOrder_parse_nested : ∃ root,
    parse "@m x\x7ba b\x7bc:;d : f(1,\n(2))\x7d\x7d" = .ok root ∧
    root.preorder.map (fun n => (n.kind, n.position)) =
      [(.stylesheet, ⟨1, 1⟩), (.atRule, ⟨1, 1⟩), (.value, ⟨1, 4⟩), (.ident, ⟨1, 4⟩),
        (.block, ⟨1, 5⟩), (.ruleset, ⟨1, 6⟩), (.selector, ⟨1, 6⟩), (.ident, ⟨1, 6⟩),
        (.space, ⟨1, 7⟩), (.ident, ⟨1, 8⟩), (.block, ⟨1, 9⟩), (.declaration, ⟨1, 10⟩),
        (.property, ⟨1, 10⟩), (.colon, ⟨1, 11⟩), (.value, ⟨1, 11⟩), (.declaration, ⟨1, 13⟩),
        (.property, ⟨1, 13⟩), (.space, ⟨1, 14⟩), (.colon, ⟨1, 15⟩), (.space, ⟨1, 16⟩),
        (.value, ⟨1, 17⟩), (.function, ⟨1, 17⟩), (.arguments, ⟨1, 18⟩), (.number, ⟨1, 19⟩),
        (.operator, ⟨1, 20⟩), (.space, ⟨1, 21⟩), (.parentheses, ⟨2, 1⟩), (.number, ⟨2, 2⟩)] ∧
    (root.preorder.map (·.position)).Pairwise (· ≤ ·) ∧ ∀ n ∈ root.preorder, n.InOrder := by
  apply exists_ok_of_map_toOption
  · decide +kernel
  · intro root parsed
    exact inOrder_parse parsed

end Stylesheet

end SheetLint
