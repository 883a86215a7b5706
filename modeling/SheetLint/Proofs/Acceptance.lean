import SheetLint.Proofs.Segments
import SheetLint.Proofs.Statements

/-!
# What is read

Tokens are read as a style sheet exactly if they are well formed in the sense of
`Stylesheet.WellFormed`. The proof follows the reader: what is still to be read, with the statement
that has been begun in front of it, is well formed from inside of the open blocks.
-/

namespace SheetLint

/-- Tokens whose round brackets allow them to be read as values. -/
def Readable (ts : List Token) : Prop :=
  Bracket.round.Balanced ts ∧ Bracket.round.DepthAtMost maxNesting ts

theorem readable_nil : Readable [] :=
  ⟨Bracket.balancedFrom_nil.mpr rfl, Bracket.depthAtMostFrom_nil.mpr (by decide)⟩

theorem readable_congr_trivia {ts us : List Token}
    (h : ts.filter (!·.isTrivia) = us.filter (!·.isTrivia)) : Readable ts ↔ Readable us :=
  and_congr (Bracket.balancedFrom_congr_trivia h) (Bracket.depthAtMostFrom_congr_trivia h)

theorem readable_trim {ts : List Token} : Readable (Token.trim ts) ↔ Readable ts :=
  readable_congr_trivia (Token.filter_trim ts)

/-- The name of an at-rule is no bracket. -/
theorem readable_cons_atWord {t : Token} {ts : List Token} (ht : t.kind = .atWord) :
    Readable (t :: ts) ↔ Readable ts := by
  have neutral : Bracket.round.depth [t] = 0 :=
    Bracket.depth_round_other (by simp [Token.isDelimiter, ht]) (by simp [Token.isDelimiter, ht])
  exact and_congr (Bracket.balancedFrom_cons_neutral neutral)
    (Bracket.depthAtMostFrom_cons_neutral neutral)

/-! ### Single statements -/

namespace Statement

variable {ts rest before after : List Token} {first colon name : Token}

/-- A declaration is read if something stands in front of the colon and its value can be read. -/
theorem declaration_ok_iff : (∃ node, declaration before colon after = .ok node) ↔
    Token.trim before ≠ [] ∧ Readable after := by
  rw [← readable_trim, Readable, ← values_ok_iff false]
  simp only [declaration_eq_ok]
  constructor
  · rintro ⟨_, first, more, nodes, property, value, -⟩
    exact ⟨by simp [property], nodes, value⟩
  · rintro ⟨property, nodes, value⟩
    obtain ⟨first, more, property⟩ := List.exists_cons_of_ne_nil property
    exact ⟨_, first, more, nodes, property, value, rfl⟩

/-- An at-rule is read if the tokens behind its name can be read, whether it has a block or not. -/
theorem atRule_ok_iff {block : Option Node} :
    (∃ node, atRule name rest block = .ok node) ↔ Readable rest := by
  rw [← readable_trim]
  simp only [atRule_eq_ok]
  cases trimmed : Token.trim rest with
  | nil => simp [readable_nil]
  | cons first more =>
    rw [Readable, ← values_ok_iff false]
    constructor
    · rintro ⟨_, value, -, ⟨⟨⟩, -⟩ | ⟨_, _, nodes, ⟨⟩, read, -⟩⟩
      exact ⟨nodes, read⟩
    · rintro ⟨nodes, read⟩
      exact ⟨_, _, rfl, .inr ⟨first, more, nodes, rfl, read, rfl⟩⟩

theorem withBlock_ok_iff {block : Node} :
    (∃ node, withBlock first rest block = .ok node) ↔ Readable (first :: rest) := by
  simp only [withBlock_eq_ok]
  by_cases isAt : first.kind = .atWord
  · simp [isAt, atRule_ok_iff, readable_cons_atWord]
  · rw [Readable, ← values_ok_iff true]
    simp [isAt]

/-- The depth behind a token, counted up and down, is the depth in brackets as long as no bracket is
    closed that is not open. -/
theorem cast_innerDepth {d : Nat} {t : Token} (nonneg : 0 ≤ d + Bracket.any.depth [t]) :
    ((if t.isDelimiter '(' || t.isDelimiter '[' then d + 1
      else if t.isDelimiter ')' || t.isDelimiter ']' then d - 1 else d : Nat) : Int) =
      d + Bracket.any.depth [t] := by
  have opens : (t.isDelimiter '(' || t.isDelimiter '[') = decide (t.role = .opening) := by
    rw [← Token.opens_any_eq]
    simp [Bracket.opens, Bracket.any]
  have closes : (t.isDelimiter ')' || t.isDelimiter ']') = decide (t.role = .closing) := by
    rw [← Token.closes_any_eq]
    simp [Bracket.closes, Bracket.any]
  rw [opens, closes]
  by_cases ho : t.role = .opening
  · simp [ho, Token.depth_any_opening ho]
  · by_cases hc : t.role = .closing
    · rw [Token.depth_any_closing hc] at nonneg ⊢
      simp only [hc, reduceCtorEq, decide_false, Bool.false_eq_true, if_false, decide_true, if_true]
      omega
    · simp [ho, hc, Token.depth_any_other ho hc]

/-- Where no bracket is closed that is not open, a statement is cut at its first colon outside of
    all brackets. -/
theorem splitColon?_eq_afterColon? {d : Nat}
    (nonneg : ∀ p, p <+: ts → 0 ≤ d + Bracket.any.depth p) :
    (splitColon? d ts).map (·.2.2) =
      (Segment.afterColon? (Token.placeFrom d ts)).map (·.map (·.token)) := by
  induction ts generalizing d with
  | nil => rfl
  | cons t ts ih =>
    rw [splitColon?, Token.placeFrom_cons]
    split
    · rename_i colon
      rw [Segment.afterColon?_cons_of_colon
        (by simp [Token.Placed.isOuterColon, Token.Placed.isOuter, colon])]
      simp
    · rename_i other
      have uncut : Token.Placed.isOuterColon ⟨t, d⟩ = false := by
        rw [not_and, Bool.not_eq_true] at other
        by_cases hd : d = 0
        · simp [Token.Placed.isOuterColon, other hd]
        · simp [Token.Placed.isOuterColon, Token.Placed.isOuter, hd]
      -- the count of `splitColon?` stops at zero and the depth does not: `nonneg` makes them agree
      have inner := cast_innerDepth
        (nonneg [t] ((List.cons_prefix_cons).mpr ⟨rfl, List.nil_prefix⟩))
      rw [Segment.afterColon?_cons_of_other uncut, ← inner, ← ih fun p hp => ?_, Option.map_map]
      · rfl
      · rw [inner, add_assoc, ← Bracket.depth_cons]
        exact nonneg (t :: p) ((List.cons_prefix_cons).mpr ⟨rfl, hp⟩)

/-- The property of a declaration is missing exactly if the colon comes first. -/
theorem trim_before_ne_nil_iff (significant : first.isTrivia = false)
    (cut : splitColon? 0 (first :: rest) = some (before, colon, after)) :
    Token.trim before ≠ [] ↔ first.isDelimiter ':' = false := by
  cases isColon : first.isDelimiter ':' with
  | true =>
    simp only [splitColon?, isColon, and_self, if_true, Option.some.injEq, Prod.mk.injEq] at cut
    rw [← cut.1]
    simp [Token.trim]
  | false =>
    obtain ⟨split, colonIs⟩ := splitColon?_eq_some cut
    cases before with
    | nil =>
      obtain ⟨rfl, -⟩ := List.cons.inj split
      rw [isColon] at colonIs
      cases colonIs
    | cons t before =>
      obtain ⟨rfl, -⟩ := List.cons.inj split
      simp [Token.trim_eq_nil_iff, significant]

/-- What is read of a statement without a block is what stands behind its colon, or all of it. -/
theorem valuePart_place (nonneg : ∀ p, p <+: ts → 0 ≤ Bracket.any.depth p) :
    Segment.valuePart ⟨Token.place ts, none⟩ = ((splitColon? 0 ts).map (·.2.2)).getD ts := by
  rw [@splitColon?_eq_afterColon? ts 0 (by simpa using nonneg), Segment.valuePart_of_plain rfl,
    Token.place, Nat.cast_zero]
  cases Segment.afterColon? (Token.placeFrom 0 ts) with
  | none => simp
  | some after => rfl

/-- A statement without a block needs a token in front of its colon, if it has one, and brackets
    that allow its value to be read. -/
theorem withoutBlock_ok_iff (significant : first.isTrivia = false)
    (nonneg : ∀ p, p <+: first :: rest → 0 ≤ Bracket.any.depth p) :
    (∃ node, withoutBlock first rest = .ok node) ↔
      first.isDelimiter ':' = false ∧
        Readable (Segment.valuePart ⟨Token.place (first :: rest), none⟩) := by
  rw [valuePart_place nonneg]
  simp only [withoutBlock_eq_ok]
  cases cut : splitColon? 0 (first :: rest) with
  | some parts =>
    obtain ⟨before, colon, after⟩ := parts
    rw [← trim_before_ne_nil_iff significant cut, Option.map_some, Option.getD_some,
      ← declaration_ok_iff]
    refine exists_congr fun node => ⟨fun plain => ?_, .declaration cut⟩
    cases plain with
    | declaration again read =>
      cases cut.symm.trans again
      exact read
    | atRule uncut => cases cut.symm.trans uncut
    | call uncut => cases cut.symm.trans uncut
  | none =>
    have noColon : first.isDelimiter ':' = false := by
      cases isColon : first.isDelimiter ':' with
      | false => rfl
      | true => simp [splitColon?, isColon] at cut
    simp only [noColon, Option.map_none, Option.getD_none, true_and]
    constructor
    · rintro ⟨node, plain⟩
      cases plain with
      | declaration again => cases cut.symm.trans again
      | atRule _ isAt read => exact (readable_cons_atWord isAt).mpr (atRule_ok_iff.mp ⟨_, read⟩)
      | call _ _ read => exact (values_ok_iff true).mp ⟨_, read⟩
    · intro readable
      by_cases isAt : first.kind = .atWord
      · obtain ⟨node, read⟩ := atRule_ok_iff.mpr ((readable_cons_atWord isAt).mp readable)
        exact ⟨node, .atRule cut isAt read⟩
      · obtain ⟨nodes, read⟩ := (values_ok_iff true).mpr readable
        exact ⟨_, .call cut isAt read⟩

end Statement

namespace Segment

variable {s : Segment} {us : List Token} {ending : Option Token.Placed}

theorem sound_iff : s.Sound ↔ (s.opensBlock = true → s.first?.isSome = true) ∧
    (s.opensBlock = false → ∀ t, s.first? = some t → t.isDelimiter ':' = false) ∧
    Readable s.valuePart :=
  ⟨fun h => ⟨h.headed, h.named, h.balanced, h.bounded⟩,
    fun ⟨headed, named, balanced, bounded⟩ => ⟨headed, named, balanced, bounded⟩⟩

theorem first?_place : first? ⟨Token.place us, ending⟩ = us.find? (!·.isTrivia) := by
  rw [first?, Token.place, Token.map_token_placeFrom]

/-- Trimming does not change whether the value of a segment can be read. -/
theorem readable_valuePart_trim : Readable (valuePart ⟨Token.place (Token.trim us), ending⟩) ↔
    Readable (valuePart ⟨Token.place us, ending⟩) := by
  refine readable_congr_trivia ?_
  rw [filter_valuePart, filter_valuePart, Token.place, Token.place, Token.placeFrom_filter_trivia,
    Token.placeFrom_filter_trivia, Token.filter_trim]

/-- A segment in front of a block is sound if there is something to be read in it and it can be
    read. -/
theorem sound_of_opensBlock (opens : opensBlock ⟨Token.place us, ending⟩ = true) :
    Sound ⟨Token.place us, ending⟩ ↔
      ∃ first rest, Token.trim us = first :: rest ∧ Readable (first :: rest) := by
  have whole : valuePart ⟨Token.place us, ending⟩ = us := by
    rw [valuePart, if_pos opens, Token.place, Token.map_token_placeFrom]
  rw [sound_iff, first?_place, whole, ← readable_trim]
  simp only [opens, forall_const, Bool.true_eq_false, false_implies, true_and]
  cases trimmed : Token.trim us with
  | nil =>
    have trivia := Token.trim_eq_nil_iff.mp trimmed
    simpa [readable_nil] using trivia
  | cons first rest => simp [Token.find?_of_trim_eq_cons trimmed]

end Segment

namespace Reader

variable {r r' : Reader} {t : Token} {ts us : List Token}

/-- Trimmed tokens close no bracket that is not open if the whole tokens close none. -/
theorem nonneg_trim (nonneg : ∀ p, p <+: us → 0 ≤ Bracket.any.depth p) :
    ∀ p, p <+: Token.trim us → 0 ≤ Bracket.any.depth p := by
  intro p hp
  obtain ⟨lead, trail, split, hlead, -⟩ := Token.exists_trim us
  have front : lead ++ p <+: us := by
    rw [split]
    exact (List.prefix_append_right_inj lead).mpr (hp.trans (List.prefix_append _ trail))
  have := nonneg (lead ++ p) front
  rwa [Bracket.depth_append, Bracket.depth_eq_zero_of_neutral fun t ht =>
    Token.depth_of_isTrivia _ (hlead t ht), zero_add] at this

/-- A statement without a block can be ended exactly if its segment is sound. -/
theorem endStatement_ok_iff {ending : Option Token.Placed}
    (plain : Segment.opensBlock ⟨Token.place r.statement.reverse, ending⟩ = false)
    (nonneg : ∀ p, p <+: r.statement.reverse → 0 ≤ Bracket.any.depth p) :
    (∃ r', r.endStatement = .ok r') ↔
      Segment.Sound ⟨Token.place r.statement.reverse, ending⟩ := by
  have value (ps : List Token.Placed) :
      Segment.valuePart ⟨ps, ending⟩ = Segment.valuePart ⟨ps, none⟩ := by
    have plain : Segment.opensBlock ⟨ps, ending⟩ = false := plain
    rw [Segment.valuePart_of_plain plain, Segment.valuePart_of_plain rfl]
  rw [Segment.sound_iff, Segment.first?_place, ← Segment.readable_valuePart_trim, value]
  simp only [plain, endStatement_eq_ok, Bool.false_eq_true, false_implies, forall_const, true_and]
  cases trimmed : Token.trim r.statement.reverse with
  | nil =>
    have trivia := Token.trim_eq_nil_iff.mp trimmed
    have unread : r.statement.reverse.find? (!·.isTrivia) = none := by
      simpa using trivia
    rw [unread]
    refine iff_of_true ⟨_, .inl ⟨rfl, rfl⟩⟩ ⟨fun t ht => ?_, readable_nil⟩
    cases ht
  | cons first rest =>
    rw [Token.find?_of_trim_eq_cons trimmed]
    have read := Statement.withoutBlock_ok_iff (Token.isTrivia_of_trim_eq_cons trimmed)
      (trimmed ▸ nonneg_trim nonneg)
    simp only [Option.some.injEq, forall_eq', ← read]
    constructor
    · rintro ⟨_, ⟨⟨⟩, -⟩ | ⟨_, _, node, ⟨⟩, read, -⟩⟩
      exact ⟨node, read⟩
    · rintro ⟨node, read⟩
      exact ⟨_, .inr ⟨first, rest, node, rfl, read, rfl⟩⟩

/-- The statement that has been begun stands inside of the open brackets, and nothing in it ends
    it. -/
structure Coherent (r : Reader) : Prop where
  nonneg : ∀ p, p <+: r.statement.reverse → 0 ≤ Bracket.any.depth p
  count : Bracket.any.depth r.statement.reverse = r.brackets.length
  uncut : ∀ p ∈ Token.place r.statement.reverse, p.cuts = false
  shallow : r.blocks.length ≤ maxNesting

/-- A reader between two statements. -/
theorem coherent_of_nil (statement : r.statement = []) (brackets : r.brackets = [])
    (shallow : r.blocks.length ≤ maxNesting) : r.Coherent := by
  refine ⟨fun p hp => ?_, by simp [statement, brackets], by simp [statement, Token.place],
    shallow⟩
  rw [statement, List.reverse_nil, List.prefix_nil] at hp
  simp [hp]

/-- Each step keeps the reader coherent. -/
theorem Coherent.step (coherent : r.Coherent) (h : Step r t r') : r'.Coherent := by
  cases h with
  | keep brackets count inside =>
    have depth : Bracket.any.depth (r.statement.reverse ++ [t]) = brackets.length := by
      rw [Bracket.depth_append, coherent.count, count]
    refine ⟨?_, ?_, ?_, coherent.shallow⟩
    · intro p hp
      rw [List.reverse_cons, List.prefix_concat_iff] at hp
      rcases hp with rfl | hp
      · rw [depth]
        omega
      · exact coherent.nonneg p hp
    · rw [List.reverse_cons, depth]
    · rw [List.reverse_cons, Token.place_append_cons, Token.placeFrom_nil]
      intro p hp
      rcases List.mem_append.mp hp with hp | hp
      · exact coherent.uncut p hp
      · obtain rfl := List.mem_singleton.mp hp
        cases cut : t.cuts with
        | false => simp [Token.Placed.cuts, cut]
        | true => simp [Token.Placed.cuts, Token.Placed.isOuter, coherent.count, inside cut]
  | semicolon outside _ ended =>
    obtain ⟨statement, brackets, blocks⟩ := endStatement_frame ended
    exact coherent_of_nil statement (brackets.trans outside) (blocks ▸ coherent.shallow)
  | openBlock _ _ opened =>
    obtain ⟨first, rest, -, below, rfl⟩ := openBlock_eq_ok.mp opened
    exact coherent_of_nil rfl rfl below
  | closeBlock _ _ ended closed =>
    obtain ⟨-, -, blocks⟩ := endStatement_frame ended
    obtain ⟨b, outer, node, inside, -, rfl⟩ := closeBlock_eq_ok.mp closed
    have shallow := coherent.shallow
    rw [← blocks, inside] at shallow
    exact coherent_of_nil rfl rfl ((Nat.le_succ _).trans shallow)

end Reader

namespace Stylesheet

variable {n : Int} {t : Token} {ts us : List Token}

theorem depth_brace_outer (uncut : ∀ p ∈ Token.place us, p.cuts = false) :
    ∀ t ∈ Token.outer us, Bracket.brace.depth [t] = 0 := by
  intro t ht
  obtain ⟨p, hp, rfl⟩ := List.mem_map.mp ht
  obtain ⟨placed, isOuter⟩ := List.mem_filter.mp hp
  have := uncut p placed
  rw [Token.Placed.cuts, isOuter, Bool.and_true] at this
  rcases Token.cuts_eq_false_iff.mp this with ht | ht | ht <;>
    exact Token.depth_brace_other (by simp [ht]) (by simp [ht])

/-- Tokens that hold no end of a segment form a style sheet if they are a sound segment. -/
theorem wellFormedFrom_end (balanced : Bracket.any.Balanced us)
    (uncut : ∀ p ∈ Token.place us, p.cuts = false) :
    WellFormedFrom n us ↔ n = 0 ∧ Segment.Sound ⟨Token.place us, none⟩ := by
  have neutral := depth_brace_outer uncut
  have braces : Bracket.brace.BalancedFrom n (Token.outer us) ↔ n = 0 := by
    have := @Bracket.balancedFrom_append_neutral _ n [] _ neutral
    rwa [List.append_nil, Bracket.balancedFrom_nil] at this
  have nesting : Bracket.brace.DepthAtMostFrom 128 n (Token.outer us) ↔ n ≤ 128 := by
    have := @Bracket.depthAtMostFrom_append_neutral _ 128 n [] _ neutral
    rwa [List.append_nil, Bracket.depthAtMostFrom_nil] at this
  have segment : segments us = [⟨Token.place us, none⟩] := Segment.ofPlaced_of_uncut uncut
  constructor
  · intro h
    exact ⟨braces.mp h.braces, h.statements _ (by simp [segment])⟩
  · rintro ⟨rfl, sound⟩
    refine ⟨balanced, braces.mpr rfl, nesting.mpr (by decide), fun s hs => ?_⟩
    rw [segment, List.mem_singleton] at hs
    exact hs ▸ sound

/-- Behind the end of a segment the count of brackets begins again. -/
theorem place_append_cut (settled : Bracket.any.depth us = 0) (cut : t.cuts = true) :
    Token.place (us ++ t :: ts) = Token.place us ++ ⟨t, 0⟩ :: Token.place ts := by
  rw [Token.place_append_cons, Bracket.depth_append, settled, Token.depth_of_cuts cut]
  rfl

/-- A token that ends a segment cuts it off, and the rest is cut on its own. -/
theorem segments_append_cut (settled : Bracket.any.depth us = 0)
    (uncut : ∀ p ∈ Token.place us, p.cuts = false) (cut : t.cuts = true) :
    segments (us ++ t :: ts) = ⟨Token.place us, some ⟨t, 0⟩⟩ :: segments ts := by
  rw [segments, place_append_cut settled cut]
  exact Segment.ofPlaced_append_cut uncut (by simp [Token.Placed.cuts, Token.Placed.isOuter, cut])

/-- Tokens with an end of a segment form a style sheet if the segment is sound and the rest goes on
    well from behind that end. -/
theorem wellFormedFrom_cut (balanced : Bracket.any.Balanced us)
    (uncut : ∀ p ∈ Token.place us, p.cuts = false) (cut : t.cuts = true) :
    WellFormedFrom n (us ++ t :: ts) ↔ (0 ≤ n ∧ n ≤ 128) ∧
      Segment.Sound ⟨Token.place us, some ⟨t, 0⟩⟩ ∧
      WellFormedFrom (n + Bracket.brace.depth [t]) ts := by
  have settled : Bracket.any.depth us = 0 := by simpa using balanced.settled
  have noBracket : Bracket.any.depth [t] = 0 := Token.depth_of_cuts cut
  have outer : Token.outer (us ++ t :: ts) = Token.outer us ++ t :: Token.outer ts := by
    simp [Token.outer, place_append_cut settled cut, Token.Placed.isOuter]
  have cutHere : segments (us ++ t :: ts) = ⟨Token.place us, some ⟨t, 0⟩⟩ :: segments ts :=
    segments_append_cut settled uncut cut
  have brackets : Bracket.any.Balanced (us ++ t :: ts) ↔ Bracket.any.Balanced ts :=
    (Bracket.balancedFrom_append balanced).trans (Bracket.balancedFrom_cons_neutral noBracket)
  have neutral := depth_brace_outer uncut
  constructor
  · intro h
    have braces := h.braces
    have nesting := h.nesting
    rw [outer, Bracket.balancedFrom_append_neutral neutral, Bracket.balancedFrom_cons] at braces
    rw [outer, Bracket.depthAtMostFrom_append_neutral neutral, Bracket.depthAtMostFrom_cons]
      at nesting
    refine ⟨⟨braces.1, nesting.1⟩, h.statements _ (by simp [cutHere]), ?_⟩
    exact ⟨brackets.mp h.brackets, braces.2, nesting.2,
      fun s hs => h.statements s (cutHere ▸ List.mem_cons_of_mem _ hs)⟩
  · rintro ⟨⟨nonneg, bounded⟩, sound, h⟩
    refine ⟨brackets.mpr h.brackets, ?_, ?_, fun s hs => ?_⟩
    · rw [outer, Bracket.balancedFrom_append_neutral neutral, Bracket.balancedFrom_cons]
      exact ⟨nonneg, h.braces⟩
    · rw [outer, Bracket.depthAtMostFrom_append_neutral neutral, Bracket.depthAtMostFrom_cons]
      exact ⟨bounded, h.nesting⟩
    · rw [cutHere] at hs
      rcases List.mem_cons.mp hs with rfl | hs
      · exact sound
      · exact h.statements s hs

end Stylesheet

/-! ### Following the reader -/

namespace Reader

variable {r r' : Reader} {t : Token} {ts : List Token}

/-- What is still to be read goes on well from where the reader stands, and what stands in front of
    the open blocks can be read when they are closed. -/
structure Promising (r : Reader) (ts : List Token) : Prop where
  rest : Stylesheet.WellFormedFrom r.blocks.length (r.statement.reverse ++ ts)
  heads : ∀ b ∈ r.blocks, Readable (b.first :: b.rest)

theorem Coherent.balanced (coherent : r.Coherent) (outside : r.brackets = []) :
    Bracket.any.Balanced r.statement.reverse :=
  ⟨by simpa using coherent.nonneg, by simp [coherent.count, outside]⟩

/-- Behind a semicolon or a closing brace all depends on the statement before it and on the rest. -/
theorem wellFormedFrom_endStatement (coherent : r.Coherent) (outside : r.brackets = [])
    (cut : t.cuts = true) (plain : t.role ≠ .openBrace) :
    Stylesheet.WellFormedFrom r.blocks.length (r.statement.reverse ++ t :: ts) ↔
      (∃ r', r.endStatement = .ok r') ∧
        Stylesheet.WellFormedFrom (r.blocks.length + Bracket.brace.depth [t]) ts := by
  have shallow : (r.blocks.length : Int) ≤ 128 := by
    have := coherent.shallow
    simp only [maxNesting] at this
    omega
  have noBlock : Segment.opensBlock ⟨Token.place r.statement.reverse, some ⟨t, 0⟩⟩ = false := by
    simp [Segment.opensBlock, Token.isDelimiter_openBrace_eq, plain]
  rw [Stylesheet.wellFormedFrom_cut (coherent.balanced outside) coherent.uncut cut,
    endStatement_ok_iff noBlock coherent.nonneg]
  exact and_iff_right ⟨by omega, shallow⟩

/-- With nothing left to read, the reader is promising exactly if it can finish. -/
theorem promising_nil (coherent : r.Coherent) :
    r.Promising [] ↔ ∃ root, r.finish = .ok root := by
  simp only [finish_eq_ok]
  constructor
  · rintro ⟨rest, -⟩
    rw [List.append_nil] at rest
    have outside : r.brackets = [] := by
      have := rest.brackets.settled
      rw [coherent.count] at this
      exact List.eq_nil_of_length_eq_zero (by omega)
    obtain ⟨empty, sound⟩ :=
      (Stylesheet.wellFormedFrom_end (coherent.balanced outside) coherent.uncut).mp rest
    obtain ⟨last, ended⟩ := (endStatement_ok_iff rfl coherent.nonneg).mpr sound
    refine ⟨_, outside, last, ended, ?_, rfl⟩
    rw [(endStatement_frame ended).2.2]
    exact List.eq_nil_of_length_eq_zero (by omega)
  · rintro ⟨_, outside, last, ended, closed, -⟩
    rw [(endStatement_frame ended).2.2] at closed
    refine ⟨?_, by simp [closed]⟩
    rw [List.append_nil, Stylesheet.wellFormedFrom_end (coherent.balanced outside) coherent.uncut]
    exact ⟨by simp [closed], (endStatement_ok_iff rfl coherent.nonneg).mp ⟨last, ended⟩⟩

/-- A semicolon leaves the reader promising exactly if the statement can be ended and the rest goes
    on well. -/
theorem promising_semicolon (coherent : r.Coherent) (outside : r.brackets = [])
    (ht : t.role = .semicolon) :
    r.Promising (t :: ts) ↔ ∃ r', r.endStatement = .ok r' ∧ r'.Promising ts := by
  have cut : t.cuts = true := by simp [Token.cuts, Token.isDelimiter_semicolon_eq, ht]
  have noBrace : Bracket.brace.depth [t] = 0 :=
    Token.depth_brace_other (by simp [ht]) (by simp [ht])
  have whole := @wellFormedFrom_endStatement _ _ ts coherent outside cut (by simp [ht])
  rw [noBrace, add_zero] at whole
  constructor
  · rintro ⟨rest, heads⟩
    obtain ⟨⟨r', ended⟩, rest⟩ := whole.mp rest
    obtain ⟨statement, -, blocks⟩ := endStatement_frame ended
    exact ⟨r', ended, by rw [statement, blocks]; simpa using rest, by rwa [blocks]⟩
  · rintro ⟨r', ended, rest, heads⟩
    obtain ⟨statement, -, blocks⟩ := endStatement_frame ended
    rw [statement, blocks, List.reverse_nil, List.nil_append] at rest
    exact ⟨whole.mpr ⟨⟨r', ended⟩, rest⟩, by rwa [blocks] at heads⟩

/-- A brace leaves the reader promising exactly if the block can be opened and the rest goes on well
    inside of it. -/
theorem promising_openBlock (coherent : r.Coherent) (outside : r.brackets = [])
    (ht : t.role = .openBrace) :
    r.Promising (t :: ts) ↔ ∃ r', r.openBlock t.position = .ok r' ∧ r'.Promising ts := by
  have cut : t.cuts = true := by simp [Token.cuts, Token.isDelimiter_openBrace_eq, ht]
  have opens : Segment.opensBlock ⟨Token.place r.statement.reverse, some ⟨t, 0⟩⟩ = true := by
    simp [Segment.opensBlock, Token.isDelimiter_openBrace_eq, ht]
  have whole := @Stylesheet.wellFormedFrom_cut r.blocks.length t ts _
    (coherent.balanced outside) coherent.uncut cut
  rw [Segment.sound_of_opensBlock opens, Token.depth_brace_openBrace ht, ← Nat.cast_succ] at whole
  simp only [openBlock_eq_ok]
  constructor
  · rintro ⟨rest, heads⟩
    obtain ⟨-, ⟨first, more, trimmed, readable⟩, rest⟩ := whole.mp rest
    -- the rest begins one block deeper, which is where the limit shows
    have below : r.blocks.length + 1 ≤ maxNesting := by exact_mod_cast rest.nesting.start
    refine ⟨_, ⟨first, more, trimmed, below, rfl⟩, rest, ?_⟩
    exact List.forall_mem_cons.mpr ⟨readable, heads⟩
  · rintro ⟨_, ⟨first, more, trimmed, below, rfl⟩, rest, heads⟩
    obtain ⟨readable, heads⟩ := List.forall_mem_cons.mp heads
    have shallow : (r.blocks.length : Int) ≤ 128 := by exact_mod_cast coherent.shallow
    exact ⟨whole.mpr ⟨⟨by omega, shallow⟩, ⟨first, more, trimmed, readable⟩, rest⟩, heads⟩

/-- A closing brace leaves the reader promising exactly if the last statement and then the block can
    be ended. -/
theorem promising_closeBlock (coherent : r.Coherent) (outside : r.brackets = [])
    (ht : t.role = .closeBrace) :
    r.Promising (t :: ts) ↔
      ∃ r', (do let r ← r.endStatement; r.closeBlock t.position) = .ok r' ∧ r'.Promising ts := by
  have cut : t.cuts = true := by simp [Token.cuts, Token.isDelimiter_closeBrace_eq, ht]
  have whole := @wellFormedFrom_endStatement _ _ ts coherent outside cut (by simp [ht])
  rw [Token.depth_brace_closeBrace ht] at whole
  simp only [bind_eq_ok, closeBlock_eq_ok]
  constructor
  · rintro ⟨rest, heads⟩
    obtain ⟨⟨r₁, ended⟩, rest⟩ := whole.mp rest
    obtain ⟨-, -, blocks⟩ := endStatement_frame ended
    cases inside : r.blocks with
    | nil =>
      -- the rest would begin below the outermost level
      have := rest.braces.start
      simp [inside] at this
    | cons b outer =>
      rw [inside] at heads rest
      obtain ⟨readable, heads⟩ := List.forall_mem_cons.mp heads
      obtain ⟨node, read⟩ := Statement.withBlock_ok_iff.mpr readable
      refine ⟨_, ⟨r₁, ended, b, outer, node, blocks.trans inside, read, rfl⟩, ?_, heads⟩
      simpa using rest
  · rintro ⟨_, ⟨r₁, ended, b, outer, node, inside, read, rfl⟩, rest, heads⟩
    obtain ⟨-, -, blocks⟩ := endStatement_frame ended
    rw [blocks] at inside
    refine ⟨whole.mpr ⟨⟨r₁, ended⟩, ?_⟩, ?_⟩
    · simpa [inside] using rest
    · rw [inside]
      exact List.forall_mem_cons.mpr ⟨Statement.withBlock_ok_iff.mp ⟨node, read⟩, heads⟩

/-- One token: what goes on well can be read, and what follows goes on well. -/
theorem promising_cons (coherent : r.Coherent) :
    r.Promising (t :: ts) ↔ ∃ r', r.step t = .ok r' ∧ r'.Promising ts := by
  cases move r t with
  | keep brackets _ _ eq =>
    rw [eq]
    constructor
    · rintro ⟨rest, heads⟩
      exact ⟨_, rfl, by simpa using rest, heads⟩
    · rintro ⟨_, ⟨⟩, rest, heads⟩
      exact ⟨by simpa using rest, heads⟩
  | refuse e outside ht eq =>
    simp only [eq, reduceCtorEq, false_and, exists_false, iff_false]
    rintro ⟨rest, -⟩
    have := rest.brackets.nonneg (r.statement.reverse ++ [t]) (by simp)
    rw [Bracket.depth_append, coherent.count, outside, Token.depth_any_closing ht] at this
    simp at this
  | semicolon outside ht eq => rw [eq]; exact promising_semicolon coherent outside ht
  | openBlock outside ht eq => rw [eq]; exact promising_openBlock coherent outside ht
  | closeBlock outside ht eq => rw [eq]; exact promising_closeBlock coherent outside ht

/-- A whole run: the rest can be read to the end exactly if it goes on well. -/
theorem promising_iff (coherent : r.Coherent) :
    r.Promising ts ↔ ∃ root, (do let r ← r.read ts; r.finish) = .ok root := by
  induction ts generalizing r with
  | nil => simpa [read, bind, Except.bind, pure, Except.pure] using promising_nil coherent
  | cons t ts ih =>
    rw [promising_cons coherent]
    simp only [read_cons, bind_eq_ok]
    constructor
    · rintro ⟨r', stepped, promising⟩
      obtain ⟨root, finished⟩ := (ih (coherent.step (step_cases stepped))).mp promising
      obtain ⟨last, rest, finished⟩ := bind_eq_ok.mp finished
      exact ⟨root, last, ⟨r', stepped, rest⟩, finished⟩
    · rintro ⟨root, last, ⟨r', stepped, rest⟩, finished⟩
      exact ⟨r', stepped, (ih (coherent.step (step_cases stepped))).mpr
        ⟨root, bind_eq_ok.mpr ⟨last, rest, finished⟩⟩⟩

end Reader

/-- Tokens are read as a style sheet exactly if they are well formed. -/
theorem Stylesheet.ofTokens_ok_iff (ts : List Token) :
    (∃ root, Stylesheet.ofTokens ts = .ok root) ↔ Stylesheet.WellFormed ts := by
  have start : Reader.initial.Coherent := Reader.coherent_of_nil rfl rfl (by decide)
  rw [Stylesheet.ofTokens, ← Reader.promising_iff start]
  exact ⟨fun h => h.rest, fun h => ⟨h, by simp [Reader.initial]⟩⟩

end SheetLint
