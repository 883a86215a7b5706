import SheetLint.Proofs.Agreement

/-!
# Style sheets one behind the other

Tokens that form a style sheet and end with a statement leave the reader as they found it, but for
the statements they have made. What is read behind them is read as if it stood alone, and put behind
those statements (`Stylesheet.ofTokens_append`).
-/

namespace SheetLint

/-- The last token that is no trivia ends a statement, or there is none. -/
def Token.EndsStatement (ts : List Token) : Prop :=
  ∀ t ∈ (ts.filter (!·.isTrivia)).getLast?, t.isDelimiter ';' = true ∨ t.isDelimiter '\x7d' = true

instance (ts : List Token) : Decidable (Token.EndsStatement ts) :=
  inferInstanceAs (Decidable (∀ t ∈ (ts.filter (!·.isTrivia)).getLast?,
    t.isDelimiter ';' = true ∨ t.isDelimiter '\x7d' = true))

namespace Token

variable {t : Token} {us : List Token}

/-- Trivia at the end do not matter. -/
theorem EndsStatement.of_concat (h : EndsStatement (us ++ [t])) (trivia : t.isTrivia = true) :
    EndsStatement us := by
  have same : (us ++ [t]).filter (!·.isTrivia) = us.filter (!·.isTrivia) := by
    simp [List.filter_append, trivia]
  rw [EndsStatement, same] at h
  exact h

/-- A last token that is no trivia is a brace or a semicolon. -/
theorem EndsStatement.cuts (h : EndsStatement (us ++ [t])) (noTrivia : t.isTrivia = false) :
    t.cuts = true := by
  have last : ((us ++ [t]).filter (!·.isTrivia)).getLast? = some t := by
    simp [List.filter_append, noTrivia]
  rcases h t last with semicolon | brace
  · simp [Token.cuts, semicolon]
  · simp [Token.cuts, brace]

theorem trim_append_of_trivia {lead : List Token} (trivia : ∀ t ∈ lead, t.isTrivia = true)
    (ts : List Token) : trim (lead ++ ts) = trim ts := by
  have skipped : (lead ++ ts).dropWhile isTrivia = ts.dropWhile isTrivia := by
    rw [List.dropWhile_append, List.dropWhile_eq_nil_iff.mpr trivia]
    rfl
  rw [trim, skipped, trim]

end Token

namespace Reader

variable {r r' : Reader} {t : Token} {us ts : List Token} {base : List Node}

/-- Outside of brackets, nothing is left of a statement that has been ended. -/
def Settled (us : List Token) (r : Reader) : Prop :=
  r.brackets = [] → Token.EndsStatement us → ∀ t ∈ r.statement, t.isTrivia = true

/-- Each step keeps the reader settled with one more token read. -/
theorem Settled.step (settled : Settled us r) (h : Step r t r') : Settled (us ++ [t]) r' := by
  have ended (none : r'.statement = []) : Settled (us ++ [t]) r' := by
    intro _ _ t ht
    rw [none] at ht
    cases ht
  cases h with
  | keep brackets count inside =>
    intro outside ends
    dsimp only at outside
    -- a token that is no bracket has been kept outside of all brackets
    have outsideBefore (neutral : Bracket.any.depth [t] = 0) : r.brackets = [] := by
      rw [outside, neutral, add_zero] at count
      simpa using count.symm
    cases trivia : t.isTrivia with
    | true =>
      have none := outsideBefore (Token.depth_of_isTrivia Bracket.any trivia)
      exact List.forall_mem_cons.mpr ⟨trivia, settled none (ends.of_concat trivia)⟩
    | false =>
      have cuts := ends.cuts trivia
      exact absurd (outsideBefore (Token.depth_of_cuts cuts)) (inside cuts)
  | semicolon _ _ ends => exact ended (endStatement_frame ends).1
  | openBlock _ _ opened =>
    obtain ⟨first, rest, -, -, rfl⟩ := openBlock_eq_ok.mp opened
    exact ended rfl
  | closeBlock _ _ _ closed =>
    obtain ⟨b, blocks, node, -, -, rfl⟩ := closeBlock_eq_ok.mp closed
    exact ended rfl

theorem settled_of_read (read : initial.read ts = .ok r) : Settled ts r := by
  apply read_invariant _ _ read
  · intro _ _ t ht
    cases ht
  · intro us t r₁ r₂ _ settled step
    exact settled.step step

/-- The second list of levels is the first one with the statements `base` put below its outermost
    level. Levels are given by their statements, and the blocks around them. -/
inductive Above (base : List Node) :
    List Node → List OpenBlock → List Node → List OpenBlock → Prop
  | outermost {done : List Node} : Above base done [] (done ++ base) []
  | inside {done before : List Node} {b : OpenBlock} {blocks blocks' : List OpenBlock}
      (outer : Above base b.before blocks before blocks') :
      Above base done (b :: blocks) done ({ b with before := before } :: blocks')

theorem Above.cons {done done' : List Node} {blocks blocks' : List OpenBlock}
    (h : Above base done blocks done' blocks') (n : Node) :
    Above base (n :: done) blocks (n :: done') blocks' := by
  cases h with
  | outermost => exact .outermost
  | inside outer => exact .inside outer

theorem Above.map_brace {done done' : List Node} {blocks blocks' : List OpenBlock}
    (h : Above base done blocks done' blocks') : blocks'.map (·.brace) = blocks.map (·.brace) := by
  induction h with
  | outermost => rfl
  | inside _ ih => rw [List.map_cons, List.map_cons, ih]

/-- The second reader has read what the first one has, behind the statements `base` and some
    trivia. -/
structure Continues (base : List Node) (r r' : Reader) : Prop where
  brackets : r'.brackets = r.brackets
  statement : ∃ lead, (∀ t ∈ lead, t.isTrivia = true) ∧
    r'.statement.reverse = lead ++ r.statement.reverse
  levels : Above base r.done r.blocks r'.done r'.blocks

theorem Continues.trim_eq (h : Continues base r r') :
    Token.trim r'.statement.reverse = Token.trim r.statement.reverse := by
  obtain ⟨lead, trivia, split⟩ := h.statement
  rw [split, Token.trim_append_of_trivia trivia]

/-- The statement is over in both readers. -/
theorem continues_of_levels {brackets : List Position} {done done' : List Node}
    {blocks blocks' : List OpenBlock} (levels : Above base done blocks done' blocks') :
    Continues base ⟨brackets, [], done, blocks⟩ ⟨brackets, [], done', blocks'⟩ :=
  ⟨rfl, ⟨[], List.forall_mem_nil _, rfl⟩, levels⟩

theorem Continues.keep (h : Continues base r r') (t : Token) (bs : List Position) :
    Continues base { r with brackets := bs, statement := t :: r.statement }
      { r' with brackets := bs, statement := t :: r'.statement } := by
  obtain ⟨lead, trivia, split⟩ := h.statement
  refine ⟨rfl, ⟨lead, trivia, ?_⟩, h.levels⟩
  rw [List.reverse_cons, List.reverse_cons, split, List.append_assoc]

/-- Two readers that continue alike end a statement alike. -/
theorem Continues.endStatement (h : Continues base r r') :
    Agrees (Continues base) r.endStatement r'.endStatement := by
  unfold Reader.endStatement
  rw [h.trim_eq, h.brackets]
  cases Token.trim r.statement.reverse with
  | nil => exact .ok (continues_of_levels h.levels)
  | cons first rest =>
    apply (agrees_refl (fun n => Eq.refl n) (Statement.withoutBlock first rest)).bind
    intro node node' same
    rw [← same]
    exact .ok (continues_of_levels (h.levels.cons node))

/-- Two readers that continue alike open a block alike. -/
theorem Continues.openBlock (h : Continues base r r') (p : Position) :
    Agrees (Continues base) (r.openBlock p) (r'.openBlock p) := by
  have depth : r'.blocks.length = r.blocks.length := by
    simpa using congrArg List.length h.levels.map_brace
  unfold Reader.openBlock
  rw [h.trim_eq, depth]
  cases Token.trim r.statement.reverse with
  | nil => exact .error _
  | cons first rest =>
    dsimp only
    split
    · exact .error _
    · exact .ok (continues_of_levels (.inside h.levels))

/-- Two readers that continue alike close a block alike. -/
theorem Continues.closeBlock (h : Continues base r r') (p : Position) :
    Agrees (Continues base) (r.closeBlock p) (r'.closeBlock p) := by
  obtain ⟨brackets, statement, done, blocks⟩ := r
  obtain ⟨brackets', statement', done', blocks'⟩ := r'
  have levels := h.levels
  cases levels with
  | outermost => exact .error _
  | @inside _ before b _ _ outer =>
    apply (agrees_refl (fun n => Eq.refl n)
      (Statement.withBlock b.first b.rest (.branch .block b.brace done.reverse))).bind
    intro node node' same
    rw [← same]
    exact .ok (continues_of_levels (outer.cons node))

theorem Continues.step (h : Continues base r r') (t : Token) :
    Agrees (Continues base) (r.step t) (r'.step t) := by
  apply step_agrees h.brackets (h.keep t) h.endStatement h.openBlock
  intro r₁ r₁' p related
  exact related.closeBlock p

theorem Continues.read (h : Continues base r r') (ts : List Token) :
    Agrees (Continues base) (r.read ts) (r'.read ts) := by
  apply read_agrees _ ts h
  intro r r' t related
  exact related.step t

/-- At the end the statements of the first part stand in front of the others. -/
theorem Continues.finish (h : Continues base r r') :
    Agrees (fun root root' => root' =
      .branch .stylesheet .start (base.reverse ++ root.children)) r.finish r'.finish := by
  apply finish_agrees h.brackets h.endStatement
  · intro last last' related
    exact related.levels.map_brace
  · intro last last' related outermost
    have levels := related.levels
    rw [outermost] at levels
    generalize last'.done = done' at levels
    generalize last'.blocks = blocks' at levels
    cases levels with
    | outermost => rw [List.reverse_append, Node.children_branch]

end Reader

namespace Stylesheet

/-- Tokens behind a style sheet that ends with a statement are read as if they stood alone: with the
    same error, or to statements that follow those of the style sheet. -/
theorem ofTokens_append {ts : List Token} {root : Node} (h : ofTokens ts = .ok root)
    (ends : Token.EndsStatement ts) (us : List Token) :
    ofTokens (ts ++ us) = (ofTokens us).map fun rest =>
      .branch .stylesheet .start (root.children ++ rest.children) := by
  obtain ⟨r, read, finished⟩ := bind_eq_ok.mp h
  obtain ⟨outside, last, ended, closed, rfl⟩ := Reader.finish_eq_ok.mp finished
  have trivia := Reader.settled_of_read read outside ends
  have nothing : Token.trim r.statement.reverse = [] := by
    apply Token.trim_eq_nil_iff.mpr
    intro t ht
    exact trivia t (List.mem_reverse.mp ht)
  rcases Reader.endStatement_eq_ok.mp ended with ⟨-, rfl⟩ | ⟨first, rest, _, trimmed, -, -⟩
  · have start : Reader.Continues r.done .initial r := by
      refine ⟨outside, ⟨r.statement.reverse, ?_, by simp [Reader.initial]⟩, ?_⟩
      · intro t ht
        exact trivia t (List.mem_reverse.mp ht)
      · have blocks : r.blocks = [] := closed
        rw [blocks]
        exact .outermost
    have whole : ofTokens (ts ++ us) = r.read us >>= Reader.finish := by
      rw [ofTokens, Reader.read_append, read]
      rfl
    rw [whole]
    apply Agrees.eq_map
    apply (start.read us).bind
    intro r₁ r₁' related
    exact related.finish
  · rw [nothing] at trimmed
    cases trimmed

/-- A rule and a comment behind it, and then a declaration without a semicolon. -/
theorem ofTokens_append_declaration :
    let ts := (Token.tokenize "a\x7bb:c;\x7d/*;*/\n").toOption.getD []
    let us := (Token.tokenize " d:f(1)").toOption.getD []
    ∃ root, ofTokens ts = .ok root ∧ root.children.map (·.kind) = [.ruleset] ∧
      Token.EndsStatement ts ∧
      (ofTokens us).toOption.map (·.children.map (·.kind)) = some [.declaration] ∧
      ofTokens (ts ++ us) = (ofTokens us).map fun rest =>
        .branch .stylesheet .start (root.children ++ rest.children) := by
  intro ts us
  have computed : (ofTokens ts).toOption.map (·.children.map (·.kind)) = some [.ruleset] := by
    decide +kernel
  have ends : Token.EndsStatement ts := by decide +kernel
  apply exists_ok_of_map_toOption computed
  intro root parsed
  exact ⟨ends, by decide +kernel, ofTokens_append parsed ends us⟩

end Stylesheet

end SheetLint
