import SheetLint.Check
import SheetLint.Proofs.Pairing
import Mathlib.Data.List.Nodup

/-!
# Traversal

Nodes are visited from a stack of pending trees. That is the plain recursive visit: a node, then its
children from left to right (`Node.preorder_eq_walk`), and every place of the tree comes up once.
Checking a tree makes the calls of its rules in that order, up to the first that fails.
-/

namespace SheetLint

namespace Node

mutual

/-- The nodes of a tree: the root, then the nodes of its children from left to right. -/
def walk : Node → List Node
  | ⟨kind, content, position, children⟩ =>
    ⟨kind, content, position, children⟩ :: walkAll children

/-- The nodes of some trees, one tree behind the other. -/
def walkAll : List Node → List Node
  | [] => []
  | n :: ns => n.walk ++ walkAll ns

end

theorem walk_eq (n : Node) : n.walk = n :: walkAll n.children := by
  cases n
  rw [walk]

@[simp]
theorem walkAll_nil : walkAll [] = [] := rfl

@[simp]
theorem walkAll_cons (n : Node) (ns : List Node) : walkAll (n :: ns) = n.walk ++ walkAll ns := rfl

theorem walkAll_append (ns ms : List Node) : walkAll (ns ++ ms) = walkAll ns ++ walkAll ms := by
  induction ns with
  | nil => rfl
  | cons n ns ih => rw [List.cons_append, walkAll_cons, walkAll_cons, ih, List.append_assoc]

/-- The stack holds the trees that are still to be walked, the next one on top. -/
theorem visit_eq_walkAll (pending : List Node) : visit pending = walkAll pending := by
  fun_induction visit pending with
  | case1 => rfl
  | case2 n pending ih => rw [ih, walkAll_append, walkAll_cons, walk_eq, List.cons_append]

theorem preorder_eq_walk (root : Node) : root.preorder = root.walk := by
  rw [preorder, visit_eq_walkAll, walkAll_cons, walkAll_nil, List.append_nil]

theorem mem_walkAll {m : Node} {ns : List Node} : m ∈ walkAll ns ↔ ∃ n ∈ ns, m ∈ n.walk := by
  induction ns with
  | nil => simp
  | cons n ns ih => simp [ih]

theorem mem_walk {m n : Node} : m ∈ n.walk ↔ m = n ∨ ∃ c ∈ n.children, m ∈ c.walk := by
  rw [walk_eq, List.mem_cons, mem_walkAll]

/-- What holds of a node whenever it holds of its children holds of every tree. -/
theorem induction {motive : Node → Prop}
    (step : ∀ n, (∀ c ∈ n.children, motive c) → motive n) (n : Node) : motive n :=
  step n fun c _ => induction step c
termination_by sizeOf n
decreasing_by
  rename_i hc
  have below := List.sizeOf_lt_of_mem hc
  cases n
  simp only [mk.sizeOf_spec] at below ⊢
  omega

/-- The node at a place: the way down from the root by the numbers of children. -/
def at? (n : Node) : List Nat → Option Node
  | [] => some n
  | i :: path => n.children[i]?.bind (·.at? path)

mutual

/-- The places of a tree in the order of the visit. -/
def paths : Node → List (List Nat)
  | ⟨_, _, _, children⟩ => [] :: pathsFrom 0 children

/-- The places of some trees that are the children from number `i` on. -/
def pathsFrom (i : Nat) : List Node → List (List Nat)
  | [] => []
  | n :: ns => n.paths.map (i :: ·) ++ pathsFrom (i + 1) ns

end

@[simp]
theorem pathsFrom_nil (i : Nat) : pathsFrom i [] = [] := rfl

@[simp]
theorem pathsFrom_cons (i : Nat) (n : Node) (ns : List Node) :
    pathsFrom i (n :: ns) = n.paths.map (i :: ·) ++ pathsFrom (i + 1) ns := rfl

theorem paths_eq (n : Node) : n.paths = [] :: pathsFrom 0 n.children := by
  cases n
  rw [paths]

/-- The node at a place that goes down through child `i`. -/
theorem at?_cons {n c : Node} {i : Nat} (hc : n.children[i]? = some c) (path : List Nat) :
    n.at? (i :: path) = c.at? path := by
  rw [at?, hc, Option.bind_some]

/-- A place below some trees is the number of a tree and a place in it. -/
theorem mem_pathsFrom {i : Nat} {ns : List Node} {path : List Nat} :
    path ∈ pathsFrom i ns ↔
      ∃ j c rest, ns[j]? = some c ∧ rest ∈ c.paths ∧ path = (i + j) :: rest := by
  induction ns generalizing i with
  | nil => simp
  | cons n ns ih =>
    rw [pathsFrom_cons, List.mem_append, ih, List.mem_map]
    constructor
    · rintro (⟨rest, hrest, rfl⟩ | ⟨j, c, rest, hc, hrest, rfl⟩)
      · exact ⟨0, n, rest, rfl, hrest, rfl⟩
      · exact ⟨j + 1, c, rest, hc, hrest, by rw [Nat.add_right_comm, Nat.add_assoc]⟩
    · rintro ⟨j, c, rest, hc, hrest, rfl⟩
      cases j with
      | zero =>
        cases hc
        exact .inl ⟨rest, hrest, rfl⟩
      | succ j => exact .inr ⟨j, c, rest, hc, hrest, by rw [Nat.add_right_comm, Nat.add_assoc]⟩

/-- The listed places are all places of the tree. -/
theorem mem_paths {n : Node} {path : List Nat} : path ∈ n.paths ↔ (n.at? path).isSome = true := by
  induction path generalizing n with
  | nil => simp [paths_eq, at?]
  | cons i path ih =>
    rw [paths_eq, List.mem_cons, mem_pathsFrom]
    constructor
    · rintro (⟨⟨⟩⟩ | ⟨j, c, rest, hc, hrest, same⟩)
      obtain ⟨rfl, rfl⟩ := List.cons.inj same
      rw [Nat.zero_add, at?_cons hc]
      exact ih.mp hrest
    · intro present
      cases hc : n.children[i]? with
      | none => simp [at?, hc] at present
      | some c =>
        rw [at?_cons hc] at present
        exact .inr ⟨i, c, path, hc, ih.mpr present, by rw [Nat.zero_add]⟩

/-- No place is listed twice. -/
theorem nodup_paths (n : Node) : n.paths.Nodup := by
  induction n using induction with
  | step n ih =>
    have below (i : Nat) (ns : List Node) (hns : ∀ c ∈ ns, c.paths.Nodup) :
        (pathsFrom i ns).Nodup := by
      induction ns generalizing i with
      | nil => simp
      | cons c ns ihns =>
        obtain ⟨hc, hns⟩ := List.forall_mem_cons.mp hns
        rw [pathsFrom_cons]
        refine List.Nodup.append (hc.map fun _ _ same => (List.cons.inj same).2) (ihns _ hns) ?_
        intro path here there
        obtain ⟨rest, -, rfl⟩ := List.mem_map.mp here
        obtain ⟨j, _, _, -, -, same⟩ := mem_pathsFrom.mp there
        have := (List.cons.inj same).1
        omega
    rw [paths_eq, List.nodup_cons]
    refine ⟨fun root => ?_, below 0 n.children ih⟩
    obtain ⟨_, _, _, -, -, same⟩ := mem_pathsFrom.mp root
    cases same

/-- The nodes that are visited are those at the listed places. -/
theorem map_at?_paths (n : Node) : n.paths.map n.at? = n.walk.map some := by
  induction n using induction with
  | step n ih =>
    -- `ns` are the children from number `i` on, so places below them are places of `n`
    have below (i : Nat) (ns : List Node) (hns : n.children.drop i = ns) :
        (pathsFrom i ns).map n.at? = (walkAll ns).map some := by
      induction ns generalizing i with
      | nil => simp
      | cons c ns ihns =>
        have hc : n.children[i]? = some c := by
          rw [← List.head?_drop, hns, List.head?_cons]
        have tail : n.children.drop (i + 1) = ns := by
          rw [← List.tail_drop, hns, List.tail_cons]
        rw [pathsFrom_cons, walkAll_cons, List.map_append, List.map_append, ihns _ tail,
          List.map_map, ← ih c (List.mem_of_getElem? hc)]
        congr 2
        funext path
        exact at?_cons hc path
    rw [paths_eq, walk_eq, List.map_cons, List.map_cons, below 0 n.children List.drop_zero]
    rfl

end Node

section Collect

variable {α β γ ε : Type}

/-- Makes some calls one after another and joins what they return. The first error ends it. -/
def collect (f : α → Except ε (List β)) : List α → Except ε (List β)
  | [] => .ok []
  | x :: xs => do
    let first ← f x
    let rest ← collect f xs
    return first ++ rest

@[simp]
theorem collect_nil (f : α → Except ε (List β)) : collect f [] = .ok [] := rfl

theorem collect_cons (f : α → Except ε (List β)) (x : α) (xs : List α) :
    collect f (x :: xs) = (do
      let first ← f x
      let rest ← collect f xs
      return first ++ rest) := rfl

theorem mapM_flatten_eq_collect (f : α → Except ε (List β)) (xs : List α) :
    (do let parts ← xs.mapM f; return parts.flatten) = collect f xs := by
  induction xs with
  | nil => rfl
  | cons x xs ih =>
    rw [List.mapM_cons, collect_cons, ← ih]
    cases f x with
    | error e => rfl
    | ok first => cases xs.mapM f <;> rfl

theorem mapM_eq_collect (f : α → Except ε β) (xs : List α) :
    xs.mapM f = collect (fun x => do return [← f x]) xs := by
  induction xs with
  | nil => rfl
  | cons x xs ih =>
    rw [List.mapM_cons, collect_cons, ← ih]
    cases f x with
    | error e => rfl
    | ok y => cases xs.mapM f <;> rfl

/-- Two lists are collected one after the other. -/
theorem collect_append (f : α → Except ε (List β)) (xs ys : List α) :
    collect f (xs ++ ys) = (do
      let first ← collect f xs
      let rest ← collect f ys
      return first ++ rest) := by
  induction xs with
  | nil => cases h : collect f ys <;> simp [h, bind, Except.bind, pure, Except.pure]
  | cons x xs ih =>
    rw [List.cons_append, collect_cons, collect_cons, ih]
    cases f x with
    | error e => rfl
    | ok here =>
      cases collect f xs with
      | error e => rfl
      | ok first =>
        cases collect f ys with
        | error e => rfl
        | ok rest => exact congrArg Except.ok (List.append_assoc here first rest).symm

theorem collect_map (f : β → Except ε (List γ)) (g : α → β) (xs : List α) :
    collect f (xs.map g) = collect (fun x => f (g x)) xs := by
  induction xs with
  | nil => rfl
  | cons x xs ih => rw [List.map_cons, collect_cons, collect_cons, ih]

theorem collect_flatMap (f : β → Except ε (List γ)) (g : α → List β) (xs : List α) :
    collect f (xs.flatMap g) = collect (fun x => collect f (g x)) xs := by
  induction xs with
  | nil => rfl
  | cons x xs ih => rw [List.flatMap_cons, collect_append, collect_cons, ih]

/-- A call that is left out is as good as one that returns nothing. -/
theorem collect_filter (f : α → Except ε (List β)) (p : α → Bool) (xs : List α) :
    collect f (xs.filter p) = collect (fun x => if p x then f x else .ok []) xs := by
  induction xs with
  | nil => rfl
  | cons x xs ih =>
    rw [List.filter_cons, collect_cons, ← ih]
    by_cases h : p x = true
    · rw [if_pos h, if_pos h, collect_cons]
    · rw [if_neg h, if_neg h]
      cases collect f (xs.filter p) <;> rfl

/-- All calls succeed, and what they return is joined in their order. -/
theorem collect_eq_ok {f : α → Except ε (List β)} {xs : List α} {ys : List β} :
    collect f xs = .ok ys ↔
      ∃ parts : List (List β), xs.map f = parts.map .ok ∧ ys = parts.flatten := by
  induction xs generalizing ys with
  | nil =>
    constructor
    · rintro ⟨⟩
      exact ⟨[], rfl, rfl⟩
    · rintro ⟨parts, none, rfl⟩
      cases List.map_eq_nil_iff.mp none.symm
      rfl
  | cons x xs ih =>
    simp only [collect_cons, bind_eq_ok, ih]
    constructor
    · rintro ⟨first, hx, _, ⟨parts, hxs, rfl⟩, ⟨⟩⟩
      exact ⟨first :: parts, by rw [List.map_cons, List.map_cons, hx, hxs], rfl⟩
    · rintro ⟨parts, all, rfl⟩
      cases parts with
      | nil => cases all
      | cons first parts =>
        obtain ⟨hx, hxs⟩ := List.cons.inj all
        exact ⟨first, hx, parts.flatten, ⟨parts, hxs, rfl⟩, rfl⟩

/-- A list is collected if none of its elements fails. -/
theorem exists_collect_eq_ok {f : α → Except ε (List β)} {xs : List α} :
    (∃ ys, collect f xs = .ok ys) ↔ ∀ x ∈ xs, ∃ ys, f x = .ok ys := by
  induction xs with
  | nil => simp
  | cons x xs ih =>
    simp only [collect_cons, bind_eq_ok, List.forall_mem_cons, ← ih]
    constructor
    · rintro ⟨_, first, here, rest, behind, -⟩
      exact ⟨⟨first, here⟩, rest, behind⟩
    · rintro ⟨⟨first, here⟩, rest, behind⟩
      exact ⟨first ++ rest, first, here, rest, behind, rfl⟩

/-- A call fails after others that succeed. -/
theorem collect_eq_error {f : α → Except ε (List β)} {xs : List α} {e : ε} :
    collect f xs = .error e ↔ ∃ before x after, xs = before ++ x :: after ∧
      (∀ b ∈ before, ∃ ys, f b = .ok ys) ∧ f x = .error e := by
  constructor
  · intro failed
    induction xs with
    | nil => cases failed
    | cons x xs ih =>
      rw [collect_cons] at failed
      cases hx : f x with
      | error e' =>
        rw [hx] at failed
        cases failed
        exact ⟨[], x, xs, rfl, nofun, hx⟩
      | ok first =>
        have later : collect f xs = .error e := by
          cases hxs : collect f xs with
          | error e' =>
            rw [hx, hxs] at failed
            cases failed
            rfl
          | ok rest =>
            rw [hx, hxs] at failed
            cases failed
        obtain ⟨before, y, after, rfl, succeed, fails⟩ := ih later
        exact ⟨x :: before, y, after, rfl, List.forall_mem_cons.mpr ⟨⟨first, hx⟩, succeed⟩, fails⟩
  · rintro ⟨before, x, after, rfl, succeed, fails⟩
    induction before with
    | nil =>
      rw [List.nil_append, collect_cons, fails]
      rfl
    | cons b before ih =>
      obtain ⟨⟨first, hb⟩, succeed⟩ := List.forall_mem_cons.mp succeed
      rw [List.cons_append, collect_cons, hb, ih succeed]
      rfl

end Collect

/-- A rule looks at a node. -/
structure Call where
  active : ActiveRule
  node : Node

/-- What a rule says about the node. -/
def Call.run (c : Call) : Except RuleError (List Diagnostic) :=
  c.active.rule.check c.active.config c.node

/-- The calls at one node: the rules of its kind in order. -/
def callsAt (active : ActiveRules) (n : Node) : List Call :=
  (active.rulesFor n.kind).map (⟨·, n⟩)

/-- The calls for a tree: those at each node before those at its children. -/
def calls (active : ActiveRules) (root : Node) : List Call :=
  root.walk.flatMap (callsAt active)

mutual

/-- Checks a tree by recursion: the node, then its children from left to right. -/
def checkFrom (active : ActiveRules) : Node → Except RuleError (List Diagnostic)
  | ⟨kind, content, position, children⟩ => do
    let here ← collect Call.run (callsAt active ⟨kind, content, position, children⟩)
    let below ← checkAllFrom active children
    return here ++ below

/-- Checks some trees, one behind the other. -/
def checkAllFrom (active : ActiveRules) : List Node → Except RuleError (List Diagnostic)
  | [] => .ok []
  | n :: ns => do
    let first ← checkFrom active n
    let rest ← checkAllFrom active ns
    return first ++ rest

end

theorem checkFrom_eq (active : ActiveRules) (n : Node) :
    checkFrom active n = (do
      let here ← collect Call.run (callsAt active n)
      let below ← checkAllFrom active n.children
      return here ++ below) := by
  cases n
  rw [checkFrom]

theorem checkNode_eq_collect (active : ActiveRules) (n : Node) :
    checkNode active n = collect Call.run (callsAt active n) := by
  rw [checkNode, mapM_flatten_eq_collect, callsAt, collect_map]
  rfl

/-- The stack of pending trees makes the calls in the order of the recursive visit. -/
theorem traverse_eq_collect (active : ActiveRules) (root : Node) :
    traverse active root = collect Call.run (calls active root) := by
  rw [traverse, mapM_flatten_eq_collect, calls, collect_flatMap, Node.preorder_eq_walk]
  congr 1
  funext n
  exact checkNode_eq_collect active n

/-- The calls of a traversal, made one after the other, are the recursive check. -/
theorem collect_calls_eq_checkFrom (active : ActiveRules) (root : Node) :
    collect Call.run (calls active root) = checkFrom active root := by
  induction root using Node.induction with
  | step n ih =>
    have below (ns : List Node)
        (hns : ∀ c ∈ ns, collect Call.run (calls active c) = checkFrom active c) :
        collect Call.run ((Node.walkAll ns).flatMap (callsAt active)) = checkAllFrom active ns := by
      induction ns with
      | nil => rw [checkAllFrom]; rfl
      | cons c ns ihns =>
        obtain ⟨hc, hns⟩ := List.forall_mem_cons.mp hns
        rw [Node.walkAll_cons, List.flatMap_append, collect_append, ihns hns, checkAllFrom, ← hc,
          calls]
    rw [calls, Node.walk_eq, List.flatMap_cons, collect_append, below n.children ih, checkFrom_eq]

/-- Checking a tree is the recursive check. It gives what all calls return, in their order, if all
    of them succeed, and else the error of the first that fails; and the visit comes to each place
    of the tree once. -/
theorem traverse_recursive (active : ActiveRules) (root : Node) :
    traverse active root = checkFrom active root ∧
    (∀ ds, traverse active root = .ok ds ↔
      ∃ parts : List (List Diagnostic),
        (calls active root).map Call.run = parts.map .ok ∧ ds = parts.flatten) ∧
    (∀ e, traverse active root = .error e ↔
      ∃ before c after, calls active root = before ++ c :: after ∧
        (∀ b ∈ before, ∃ ds, b.run = .ok ds) ∧ c.run = .error e) ∧
    (root.preorder.map some = root.paths.map root.at? ∧ root.paths.Nodup ∧
      ∀ path, path ∈ root.paths ↔ (root.at? path).isSome = true) := by
  rw [traverse_eq_collect, Node.preorder_eq_walk]
  exact ⟨collect_calls_eq_checkFrom active root, fun _ => collect_eq_ok, fun _ => collect_eq_error,
    root.map_at?_paths.symm, root.nodup_paths, fun _ => Node.mem_paths⟩

end SheetLint
