import SheetLint.Position

/-!
# Nodes

The labelled tree that a style sheet is read into and that rules look at.
-/

namespace SheetLint

/-- The labels of the tree. -/
inductive NodeKind where
  | stylesheet
  | ruleset
  | selector
  | block
  | atRule
  | declaration
  | property
  | colon
  | value
  | space
  | ident
  | number
  | dimension
  | color
  | string
  | var
  | function
  | arguments
  | parentheses
  | operator
  | mixinCall
  deriving DecidableEq, Repr

namespace NodeKind

/-- All labels. -/
def all : List NodeKind :=
  [stylesheet, ruleset, selector, block, atRule, declaration, property, colon, value, space, ident,
   number, dimension, color, string, var, function, arguments, parentheses, operator, mixinCall]

/-- The word for a label. -/
def name : NodeKind → String
  | stylesheet => "stylesheet"
  | ruleset => "ruleset"
  | selector => "selector"
  | block => "block"
  | atRule => "at_rule"
  | declaration => "declaration"
  | property => "property"
  | colon => "colon"
  | value => "value"
  | space => "space"
  | ident => "ident"
  | number => "number"
  | dimension => "dimension"
  | color => "color"
  | string => "string"
  | var => "variable"
  | function => "function"
  | arguments => "arguments"
  | parentheses => "parentheses"
  | operator => "operator"
  | mixinCall => "mixin_call"

/-- The label with this word. -/
def ofName? (word : String) : Option NodeKind :=
  all.find? (·.name == word)

@[simp]
theorem ofName?_name (k : NodeKind) : ofName? k.name = some k := by
  cases k <;> decide

end NodeKind

/-- A labelled tree. Leaves carry their text in `content`; some branches carry a name there. -/
structure Node where
  kind : NodeKind
  content : String
  position : Position
  children : List Node
  deriving Repr

namespace Node

mutual

/-- Equality of trees is decided label by label. -/
protected def decEq : (m n : Node) → Decidable (m = n)
  | ⟨k, c, p, ms⟩, ⟨l, d, q, ns⟩ =>
    if h : k = l ∧ c = d ∧ p = q then
      match Node.decEqs ms ns with
      | isTrue hs => isTrue (by obtain ⟨rfl, rfl, rfl⟩ := h; rw [hs])
      | isFalse hs => isFalse (by intro he; cases he; exact hs rfl)
    else isFalse (by intro he; cases he; exact h ⟨rfl, rfl, rfl⟩)

/-- Equality of lists of trees. -/
protected def decEqs : (ms ns : List Node) → Decidable (ms = ns)
  | [], [] => isTrue rfl
  | [], _ :: _ => isFalse (by intro he; cases he)
  | _ :: _, [] => isFalse (by intro he; cases he)
  | m :: ms, n :: ns =>
    match Node.decEq m n, Node.decEqs ms ns with
    | isTrue h, isTrue hs => isTrue (by rw [h, hs])
    | isFalse h, _ => isFalse (by intro he; cases he; exact h rfl)
    | _, isFalse hs => isFalse (by intro he; cases he; exact hs rfl)

end

instance : DecidableEq Node := Node.decEq

/-- A node without children. -/
def leaf (kind : NodeKind) (content : String) (position : Position) : Node :=
  ⟨kind, content, position, []⟩

/-- A node without a text of its own. -/
def branch (kind : NodeKind) (position : Position) (children : List Node) : Node :=
  ⟨kind, "", position, children⟩

@[simp]
theorem children_branch (kind : NodeKind) (p : Position) (ns : List Node) :
    (branch kind p ns).children = ns := rfl

/-- The first child with this label. -/
def first? (n : Node) (kind : NodeKind) : Option Node :=
  n.children.find? (·.kind == kind)

/-- The place among the children of the first one with this label. -/
def indexOf? (n : Node) (kind : NodeKind) : Option Nat :=
  n.children.findIdx? (·.kind == kind)

/-- What a node writes, given what its children write. A colour has its hash sign, a function its
    name in front of its arguments, and round brackets stand around arguments and parentheses. -/
def assemble (kind : NodeKind) (content : String) (leafless : Bool) (inner : String) : String :=
  match kind with
  | .color => "#" ++ content
  | .function => content ++ inner
  | .arguments | .parentheses => "(" ++ inner ++ ")"
  | _ => if leafless then content else inner

mutual

/-- The text that a tree stands for, without comments. -/
def text : Node → String
  | ⟨kind, content, _, children⟩ => assemble kind content children.isEmpty (texts children)

/-- The texts of some trees, one behind the other. -/
def texts : List Node → String
  | [] => ""
  | n :: ns => n.text ++ texts ns

end

mutual

/-- The number of nodes of a tree. -/
def size : Node → Nat
  | ⟨_, _, _, children⟩ => 1 + sizes children

/-- The number of nodes of some trees. -/
def sizes : List Node → Nat
  | [] => 0
  | n :: ns => n.size + sizes ns

end

theorem size_eq (n : Node) : n.size = 1 + sizes n.children := by
  cases n; simp [size]

theorem sizes_append (ns ms : List Node) : sizes (ns ++ ms) = sizes ns + sizes ms := by
  induction ns with
  | nil => simp [sizes]
  | cons n ns ih => simp [sizes, ih, Nat.add_assoc]

/-- The nodes below a stack of pending trees in the order of a depth-first visit: the node on top of
    the stack comes next, and its children take its place. -/
def visit : List Node → List Node
  | [] => []
  | n :: pending => n :: visit (n.children ++ pending)
termination_by pending => sizes pending
decreasing_by simp only [sizes_append, sizes, size_eq n]; omega

/-- All nodes of a tree, each before its children. -/
def preorder (root : Node) : List Node :=
  visit [root]

end Node

end SheetLint
