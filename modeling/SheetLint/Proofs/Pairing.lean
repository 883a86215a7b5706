import SheetLint.Proofs.Nesting
import SheetLint.Stylesheet.Value

/-!
# Paired brackets

What the groups of a stretch of tokens say about the tokens. `Group.Covers` relates groups to the
tokens they were made from; grouping without a fault gives groups that cover the tokens, it has no
fault exactly on balanced tokens, and the nodes of the groups exist exactly if the round brackets
are not nested too deep (`values_ok_iff`).
-/

namespace SheetLint

/-- Two computations in a row succeed if the first one does and the second one does with its
    result. -/
theorem bind_eq_ok {ε α β : Type} {x : Except ε α} {f : α → Except ε β} {b : β} :
    (x >>= f) = .ok b ↔ ∃ a, x = .ok a ∧ f a = .ok b := by
  cases x <;> simp [bind, Except.bind]

theorem forM_eq_ok {α ε : Type} {f : α → Except ε Unit} {xs : List α} (h : xs.forM f = .ok ()) :
    ∀ x ∈ xs, f x = .ok () := by
  induction xs with
  | nil => nofun
  | cons x xs ih =>
    have h : (f x >>= fun _ => xs.forM f) = .ok () := h
    obtain ⟨_, here, behind⟩ := bind_eq_ok.mp h
    exact List.forall_mem_cons.mpr ⟨here, ih behind⟩

theorem exists_ok_of_isOk {ε α : Type} {x : Except ε α} (h : x.isOk = true) : ∃ a, x = .ok a := by
  cases x with
  | error e => cases h
  | ok a => exact ⟨a, rfl⟩

/-- What holds of every result holds of the one that is computed. -/
theorem exists_ok_of_map_toOption {ε α β : Type} {x : Except ε α} {f : α → β} {b : β}
    {P : α → Prop} (computed : x.toOption.map f = some b) (each : ∀ a, x = .ok a → P a) :
    ∃ a, x = .ok a ∧ f a = b ∧ P a := by
  cases x with
  | error e => cases computed
  | ok a => exact ⟨a, rfl, Option.some.inj computed, each a rfl⟩

namespace Token

variable {t : Token}

/-- A token is one delimiter at most. -/
theorem isDelimiter_unique {c d : Char} (hc : t.isDelimiter c = true)
    (hd : t.isDelimiter d = true) : c = d := by
  simp only [isDelimiter, beq_iff_eq] at hc hd
  rw [hc] at hd
  exact TokenKind.delimiter.inj hd

theorem not_isDelimiter_of_ne {c d : Char} (hc : t.isDelimiter c = true) (hne : c ≠ d) :
    t.isDelimiter d = false := by
  cases hd : t.isDelimiter d with
  | false => rfl
  | true => exact absurd (isDelimiter_unique hc hd) hne

end Token

namespace Bracket

variable {t : Token}

@[simp]
theorem opens_round : round.opens t = t.isDelimiter '(' := by
  simp [opens, round]

@[simp]
theorem closes_round : round.closes t = t.isDelimiter ')' := by
  simp [closes, round]

theorem depth_round_opening (ho : t.isDelimiter '(' = true) : round.depth [t] = 1 := by
  refine depth_of_opens (by simpa using ho) ?_
  rw [closes_round]
  exact Token.not_isDelimiter_of_ne ho (by decide)

theorem depth_round_closing (hc : t.isDelimiter ')' = true) : round.depth [t] = -1 := by
  refine depth_of_closes ?_ (by simpa using hc)
  rw [opens_round]
  exact Token.not_isDelimiter_of_ne hc (by decide)

theorem depth_round_other (ho : t.isDelimiter '(' = false) (hc : t.isDelimiter ')' = false) :
    round.depth [t] = 0 :=
  depth_of_other (by simpa using ho) (by simpa using hc)

theorem depth_round_word (hw : t.kind = .word) : round.depth [t] = 0 :=
  depth_round_other (by simp [Token.isDelimiter, hw]) (by simp [Token.isDelimiter, hw])

end Bracket

namespace Group

/-- The groups were made from the tokens: each group covers the next stretch of them, and the
    brackets around a group's inner groups are round ones. -/
inductive Covers : List Group → List Token → Prop
  | nil : Covers [] []
  | single {t : Token} {gs : List Group} {ts : List Token} (noOpening : t.isDelimiter '(' = false)
      (noClosing : t.isDelimiter ')' = false) (rest : Covers gs ts) :
      Covers (single t :: gs) (t :: ts)
  | parens {o c : Token} {inner gs : List Group} {us ts : List Token}
      (opening : o.isDelimiter '(' = true) (closing : c.isDelimiter ')' = true)
      (within : Covers inner us) (rest : Covers gs ts) :
      Covers (parens o inner :: gs) (o :: (us ++ c :: ts))
  | call {w o c : Token} {inner gs : List Group} {us ts : List Token} (word : w.kind = .word)
      (opening : o.isDelimiter '(' = true) (closing : c.isDelimiter ')' = true)
      (within : Covers inner us) (rest : Covers gs ts) :
      Covers (call w o inner :: gs) (w :: o :: (us ++ c :: ts))

/-- Two lists of groups cover the tokens of both. -/
theorem Covers.append {gs hs : List Group} {ts us : List Token} (left : Covers gs ts)
    (right : Covers hs us) : Covers (gs ++ hs) (ts ++ us) := by
  induction left with
  | nil => exact right
  | single noOpening noClosing _ ih => exact .single noOpening noClosing ih
  | parens opening closing within _ _ ih =>
    simpa only [List.cons_append, List.append_assoc] using Covers.parens opening closing within ih
  | call word opening closing within _ _ ih =>
    simpa only [List.cons_append, List.append_assoc] using
      Covers.call word opening closing within ih

/-- What two lists of groups cover is covered by one after the other. -/
theorem Covers.of_append {gs hs : List Group} {ts : List Token} (h : Covers (gs ++ hs) ts) :
    ∃ us vs, ts = us ++ vs ∧ Covers gs us ∧ Covers hs vs := by
  induction gs generalizing ts with
  | nil => exact ⟨[], ts, rfl, .nil, h⟩
  | cons g gs ih =>
    cases h with
    | single noOpening noClosing rest =>
      obtain ⟨us, vs, rfl, left, right⟩ := ih rest
      exact ⟨_ :: us, vs, rfl, .single noOpening noClosing left, right⟩
    | parens opening closing within rest =>
      obtain ⟨us, vs, rfl, left, right⟩ := ih rest
      exact ⟨_, vs, by simp, .parens opening closing within left, right⟩
    | call word opening closing within rest =>
      obtain ⟨us, vs, rfl, left, right⟩ := ih rest
      exact ⟨_, vs, by simp, .call word opening closing within left, right⟩

/-- Only one token is covered by a single group, and it is the group's own. -/
theorem Covers.of_single {t : Token} {ts : List Token} (h : Covers [.single t] ts) : ts = [t] := by
  cases h with
  | single _ _ rest => cases rest; rfl

/-- Every bracket that is opened in covered tokens is closed in them. -/
theorem Covers.depth_eq_zero {gs : List Group} {ts : List Token} (h : Covers gs ts) :
    Bracket.round.depth ts = 0 := by
  have pair {o c : Token} {us ts : List Token} (opening : o.isDelimiter '(' = true)
      (closing : c.isDelimiter ')' = true) (hu : Bracket.round.depth us = 0)
      (ht : Bracket.round.depth ts = 0) : Bracket.round.depth (o :: (us ++ c :: ts)) = 0 := by
    rw [Bracket.depth_cons, Bracket.depth_append, Bracket.depth_cons c,
      Bracket.depth_round_opening opening, Bracket.depth_round_closing closing, hu, ht]
    rfl
  induction h with
  | nil => rfl
  | single noOpening noClosing _ ih =>
    rw [Bracket.depth_cons, Bracket.depth_round_other noOpening noClosing, ih, add_zero]
  | parens opening closing _ _ ihWithin ih => exact pair opening closing ihWithin ih
  | call word opening closing _ _ ihWithin ih =>
    rw [Bracket.depth_cons, Bracket.depth_round_word word, pair opening closing ihWithin ih,
      add_zero]

/-- The tokens that a grouping has read: those before each open bracket, with the bracket and the
    word in front of it, and those behind the innermost one. -/
inductive HasRead : List Pending → List Group → List Token → Prop
  | outermost {current : List Group} {us : List Token} (within : Covers current.reverse us) :
      HasRead [] current us
  | parens {o : Token} {before current : List Group} {pending : List Pending} {vs us : List Token}
      (outside : HasRead pending before vs) (opening : o.isDelimiter '(' = true)
      (within : Covers current.reverse us) :
      HasRead (⟨none, o, before⟩ :: pending) current (vs ++ o :: us)
  | call {w o : Token} {before current : List Group} {pending : List Pending} {vs us : List Token}
      (outside : HasRead pending before vs) (word : w.kind = .word)
      (opening : o.isDelimiter '(' = true) (within : Covers current.reverse us) :
      HasRead (⟨some w, o, before⟩ :: pending) current (vs ++ w :: o :: us)

/-- A finished group extends what has been read by the tokens it covers. -/
theorem HasRead.snoc {pending : List Pending} {current : List Group} {us vs : List Token}
    {g : Group} (h : HasRead pending current us) (covers : Covers [g] vs) :
    HasRead pending (g :: current) (us ++ vs) := by
  cases h with
  | outermost within => exact .outermost (by simpa using within.append covers)
  | parens outside opening within =>
    simpa using HasRead.parens outside opening
      (by simpa using within.append covers : Covers (g :: _).reverse _)
  | call outside word opening within =>
    simpa using HasRead.call outside word opening
      (by simpa using within.append covers : Covers (g :: _).reverse _)

/-- The last token read can be taken back if it is a group of its own. -/
theorem HasRead.of_single {pending : List Pending} {current : List Group} {us : List Token}
    {t : Token} (h : HasRead pending (.single t :: current) us) :
    ∃ vs, us = vs ++ [t] ∧ HasRead pending current vs := by
  have unsnoc {us : List Token} (within : Covers (Group.single t :: current).reverse us) :
      ∃ vs, us = vs ++ [t] ∧ Covers current.reverse vs := by
    rw [List.reverse_cons] at within
    obtain ⟨vs, ws, rfl, left, right⟩ := within.of_append
    exact ⟨vs, by rw [right.of_single], left⟩
  cases h with
  | outermost within =>
    obtain ⟨vs, rfl, left⟩ := unsnoc within
    exact ⟨vs, rfl, .outermost left⟩
  | parens outside opening within =>
    obtain ⟨vs, rfl, left⟩ := unsnoc within
    exact ⟨_, by simp, .parens outside opening left⟩
  | call outside word opening within =>
    obtain ⟨vs, rfl, left⟩ := unsnoc within
    exact ⟨_, by simp, .call outside word opening left⟩

/-- An opening bracket starts a new level, with nothing in it so far. -/
theorem HasRead.open {pending : List Pending} {current : List Group} {us : List Token} {t : Token}
    (h : HasRead pending current us) (opening : t.isDelimiter '(' = true) :
    HasRead (.ofOpening t current :: pending) [] (us ++ [t]) := by
  have nothing : Covers ([] : List Group).reverse [] := .nil
  unfold Pending.ofOpening
  split
  · rename_i word rest
    split
    · rename_i isWord
      obtain ⟨vs, rfl, outside⟩ := h.of_single
      simpa using HasRead.call outside isWord opening nothing
    · exact .parens h opening nothing
  · exact .parens h opening nothing

theorem HasRead.close {p : Pending} {pending : List Pending} {current : List Group}
    {us : List Token} {t : Token} (h : HasRead (p :: pending) current us)
    (closing : t.isDelimiter ')' = true) :
    HasRead pending (p.close current.reverse :: p.before) (us ++ [t]) := by
  cases h with
  | parens outside opening within =>
    have covers := Covers.parens opening closing within .nil
    simpa [Pending.close] using outside.snoc covers
  | call outside word opening within =>
    have covers := Covers.call word opening closing within .nil
    simpa [Pending.close] using outside.snoc covers

/-- A grouping without a fault covers what it has read and what it still reads. -/
theorem covers_of_pair {pending : List Pending} {current gs : List Group} {us ts : List Token}
    (h : HasRead pending current us) (hp : pair pending current ts = (gs, none)) :
    Covers gs (us ++ ts) := by
  -- each token moves from what is still read to what has been read, and `HasRead` follows it
  fun_induction pair pending current ts generalizing us with
  | case1 pending current last =>
    cases hp
    cases h with
    | outermost within => simpa using within
    | parens => simp at last
    | call => simp at last
  | case2 => simp at hp
  | case3 pending current t ts opening ih =>
    simpa using ih (h.open opening) hp
  | case4 => simp at hp
  | case5 current t ts _ closing p pending ih =>
    simpa using ih (h.close closing) hp
  | case6 pending current t ts noOpening noClosing ih =>
    have covers : Covers [.single t] [t] :=
      .single (by simpa using noOpening) (by simpa using noClosing) .nil
    simpa using ih (h.snoc covers) hp

/-- A grouping has no fault exactly if the tokens close all brackets that are open, and no more. -/
theorem pair_fault_eq_none_iff {pending : List Pending} {current : List Group} {ts : List Token} :
    (pair pending current ts).2 = none ↔ Bracket.round.BalancedFrom pending.length ts := by
  fun_induction pair pending current ts with
  | case1 pending current last =>
    simp [Bracket.balancedFrom_nil, List.getLast?_eq_none_iff.mp last]
  | case2 pending current p last =>
    have : pending ≠ [] := by rintro rfl; simp at last
    simp [Bracket.balancedFrom_nil, this]
  | case3 pending current t ts opening ih =>
    rw [ih, Bracket.balancedFrom_cons, Bracket.depth_round_opening opening]
    simp
  | case4 current t ts _ closing =>
    rw [Bracket.balancedFrom_cons, Bracket.depth_round_closing closing]
    simp only [List.length_nil, reduceCtorEq, false_iff, not_and]
    intro _ h
    have := h.start
    omega
  | case5 current t ts _ closing p pending ih =>
    rw [ih, Bracket.balancedFrom_cons, Bracket.depth_round_closing closing, List.length_cons,
      Nat.cast_succ, add_neg_cancel_right]
    exact (and_iff_right (by omega)).symm
  | case6 pending current t ts noOpening noClosing ih =>
    rw [ih, Bracket.balancedFrom_cons_neutral
      (Bracket.depth_round_other (by simpa using noOpening) (by simpa using noClosing))]

theorem covers_of_ofTokens {gs : List Group} {ts : List Token}
    (h : ofTokens ts = (gs, none)) : Covers gs ts := by
  have start : HasRead [] [] [] := .outermost Covers.nil
  simpa using covers_of_pair start h

section Nodes

variable {inSelector : Bool} {d : Nat} {gs inner : List Group} {ns : List Node} {t w o : Token}

theorem nodesOf_cons {g : Group} : nodesOf inSelector d (g :: gs) = .ok ns ↔
    ∃ first rest, g.nodes inSelector d = .ok first ∧ nodesOf inSelector d gs = .ok rest ∧
      ns = first ++ rest := by
  rw [nodesOf]
  simp only [bind_eq_ok, pure, Except.pure, Except.ok.injEq, @eq_comm _ ns]
  constructor
  · rintro ⟨first, here, rest, behind, same⟩
    exact ⟨first, rest, here, behind, same⟩
  · rintro ⟨first, rest, here, behind, same⟩
    exact ⟨first, here, rest, behind, same⟩

/-- What is in brackets has nodes unless the brackets are nested too deep. -/
theorem nodes_bracketed {e : SyntaxError} {make : List Node → Node} {first : List Node} :
    (if maxNesting ≤ d then .error e
      else do
        let children ← nodesOf inSelector (d + 1) inner
        return [make children]) = .ok first ↔
    d < maxNesting ∧ ∃ children, nodesOf inSelector (d + 1) inner = .ok children ∧
      first = [make children] := by
  by_cases deep : maxNesting ≤ d
  · simp [deep]
  · simp [deep, Nat.lt_of_not_le deep, bind_eq_ok, pure, Except.pure, @eq_comm _ first]

theorem nodesOf_single : nodesOf inSelector d (.single t :: gs) = .ok ns ↔
    ∃ rest, nodesOf inSelector d gs = .ok rest ∧ ns = (t.leaf? inSelector).toList ++ rest := by
  rw [nodesOf_cons, nodes]
  constructor
  · rintro ⟨_, rest, ⟨⟩, behind, rfl⟩
    exact ⟨rest, behind, rfl⟩
  · rintro ⟨rest, behind, rfl⟩
    exact ⟨_, rest, rfl, behind, rfl⟩

theorem nodesOf_parens : nodesOf inSelector d (.parens o inner :: gs) = .ok ns ↔
    d < maxNesting ∧ ∃ children rest, nodesOf inSelector (d + 1) inner = .ok children ∧
      nodesOf inSelector d gs = .ok rest ∧
      ns = .branch .parentheses o.position children :: rest := by
  simp only [nodesOf_cons, nodes, nodes_bracketed]
  constructor
  · rintro ⟨_, rest, ⟨below, children, inside, rfl⟩, behind, rfl⟩
    exact ⟨below, children, rest, inside, behind, rfl⟩
  · rintro ⟨below, children, rest, inside, behind, rfl⟩
    exact ⟨_, rest, ⟨below, children, inside, rfl⟩, behind, rfl⟩

theorem nodesOf_call : nodesOf inSelector d (.call w o inner :: gs) = .ok ns ↔
    d < maxNesting ∧ ∃ children rest, nodesOf inSelector (d + 1) inner = .ok children ∧
      nodesOf inSelector d gs = .ok rest ∧
      ns = ⟨.function, w.text, w.position, [.branch .arguments o.position children]⟩ :: rest := by
  simp only [nodesOf_cons, nodes, nodes_bracketed]
  constructor
  · rintro ⟨_, rest, ⟨below, children, inside, rfl⟩, behind, rfl⟩
    exact ⟨below, children, rest, inside, behind, rfl⟩
  · rintro ⟨below, children, rest, inside, behind, rfl⟩
    exact ⟨_, rest, ⟨below, children, inside, rfl⟩, behind, rfl⟩

/-- The depth inside and behind a pair of brackets. -/
theorem depthAtMostFrom_pair {c : Token} {us ts : List Token} {limit : Nat} {d : Int}
    (opening : o.isDelimiter '(' = true) (closing : c.isDelimiter ')' = true)
    (within : Covers inner us) :
    Bracket.round.DepthAtMostFrom limit d (o :: (us ++ c :: ts)) ↔
      Bracket.round.DepthAtMostFrom limit (d + 1) us ∧ d < limit ∧
        Bracket.round.DepthAtMostFrom limit d ts := by
  rw [Bracket.depthAtMostFrom_cons, Bracket.depth_round_opening opening,
    Bracket.depthAtMostFrom_append within.depth_eq_zero, Bracket.depthAtMostFrom_cons,
    Bracket.depth_round_closing closing, add_neg_cancel_right, Int.add_one_le_iff]
  constructor
  · rintro ⟨-, inside, below, behind⟩
    exact ⟨inside, below, behind⟩
  · rintro ⟨inside, below, behind⟩
    exact ⟨below.le, inside, below, behind⟩

/-- The nodes of covered tokens exist exactly if the brackets are not nested too deep. -/
theorem nodesOf_ok_iff {ts : List Token} (h : Covers gs ts) (hd : d ≤ maxNesting) :
    (∃ ns, nodesOf inSelector d gs = .ok ns) ↔ Bracket.round.DepthAtMostFrom maxNesting d ts := by
  induction h generalizing d with
  | nil => simp [nodesOf, Bracket.depthAtMostFrom_nil, hd]
  | single noOpening noClosing _ ih =>
    rw [Bracket.depthAtMostFrom_cons_neutral (Bracket.depth_round_other noOpening noClosing),
      ← ih hd]
    simp only [nodesOf_single]
    constructor
    · rintro ⟨_, rest, behind, -⟩
      exact ⟨rest, behind⟩
    · rintro ⟨rest, behind⟩
      exact ⟨_, rest, behind, rfl⟩
  | parens opening closing within _ ihWithin ih =>
    rw [depthAtMostFrom_pair opening closing within, ← ih hd, Nat.cast_lt, ← Nat.cast_succ]
    simp only [nodesOf_parens]
    constructor
    · rintro ⟨_, below, children, rest, inside, behind, -⟩
      exact ⟨(ihWithin below).mp ⟨children, inside⟩, below, rest, behind⟩
    · rintro ⟨inside, below, rest, behind⟩
      obtain ⟨children, inside⟩ := (ihWithin below).mpr inside
      exact ⟨_, below, children, rest, inside, behind, rfl⟩
  | call word opening closing within _ ihWithin ih =>
    rw [Bracket.depthAtMostFrom_cons_neutral (Bracket.depth_round_word word),
      depthAtMostFrom_pair opening closing within, ← ih hd, Nat.cast_lt, ← Nat.cast_succ]
    simp only [nodesOf_call]
    constructor
    · rintro ⟨_, below, children, rest, inside, behind, -⟩
      exact ⟨(ihWithin below).mp ⟨children, inside⟩, below, rest, behind⟩
    · rintro ⟨inside, below, rest, behind⟩
      obtain ⟨children, inside⟩ := (ihWithin below).mpr inside
      exact ⟨_, below, children, rest, inside, behind, rfl⟩

end Nodes

end Group

/-- The nodes of some tokens are those of the groups that cover them. -/
theorem values_eq_ok {inSelector : Bool} {ts : List Token} {ns : List Node} :
    values inSelector ts = .ok ns ↔
      ∃ gs, Group.ofTokens ts = (gs, none) ∧ Group.nodesOf inSelector 0 gs = .ok ns := by
  rcases h : Group.ofTokens ts with ⟨gs, fault⟩
  simp only [values, h, bind_eq_ok]
  cases fault with
  | none => simp [pure, Except.pure]
  | some e => simp [throw, throwThe, MonadExceptOf.throw]

theorem covers_of_values {inSelector : Bool} {ts : List Token} {ns : List Node}
    (h : values inSelector ts = .ok ns) :
    ∃ gs, Group.Covers gs ts ∧ Group.nodesOf inSelector 0 gs = .ok ns := by
  obtain ⟨gs, grouped, nodes⟩ := values_eq_ok.mp h
  exact ⟨gs, Group.covers_of_ofTokens grouped, nodes⟩

/-- A stretch of tokens has nodes exactly if its round brackets are balanced and not nested too
    deep. -/
theorem values_ok_iff (inSelector : Bool) {ts : List Token} :
    (∃ ns, values inSelector ts = .ok ns) ↔
      Bracket.round.Balanced ts ∧ Bracket.round.DepthAtMost maxNesting ts := by
  have balanced : (Group.ofTokens ts).2 = none ↔ Bracket.round.Balanced ts :=
    Group.pair_fault_eq_none_iff
  constructor
  · rintro ⟨ns, h⟩
    obtain ⟨gs, grouped, nodes⟩ := values_eq_ok.mp h
    refine ⟨balanced.mp (by rw [grouped]), ?_⟩
    exact (Group.nodesOf_ok_iff (Group.covers_of_ofTokens grouped) (Nat.zero_le _)).mp ⟨ns, nodes⟩
  · rintro ⟨closed, bounded⟩
    have grouped : Group.ofTokens ts = ((Group.ofTokens ts).1, none) := by
      rw [← balanced.mpr closed]
    obtain ⟨ns, nodes⟩ := (Group.nodesOf_ok_iff (Group.covers_of_ofTokens grouped)
      (Nat.zero_le _)).mpr bounded
    exact ⟨ns, values_eq_ok.mpr ⟨_, grouped, nodes⟩⟩

end SheetLint
