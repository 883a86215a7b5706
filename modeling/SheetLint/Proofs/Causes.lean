import SheetLint.Proofs.Acceptance
import SheetLint.Proofs.Agreement
import SheetLint.Proofs.CarriageReturns.Lexemes
import SheetLint.Proofs.Pointing

/-!
# Errors point at their cause

The message of a syntax error tells what stands in the text at the place of the error
(`SyntaxError.Shows`). An error of a lexeme stands where the lexeme would begin. Every other error
is found at a token that is a sign of its cause (`SyntaxError.FoundIn`), except one: a block that is
not closed shows only at the end, and then the error names the innermost block that is still open
(`Token.LastOpen`).
-/

namespace SheetLint

/-- Two computations in a row fail if the first one does, or if the second one does with the result
    of the first. -/
theorem bind_eq_error {ε α β : Type} {x : Except ε α} {f : α → Except ε β} {e : ε} :
    (x >>= f) = .error e ↔ x = .error e ∨ ∃ a, x = .ok a ∧ f a = .error e := by
  cases x <;> simp [bind, Except.bind]

/-- A computation whose result is only wrapped up fails if it fails itself. -/
theorem eq_error_of_bind_pure {ε α β : Type} {x : Except ε α} {f : α → β} {e : ε}
    (h : (x >>= fun a => pure (f a)) = .error e) : x = .error e := by
  rcases bind_eq_error.mp h with failed | ⟨a, -, made⟩
  · exact failed
  · cases made

theorem map_eq_error {ε α β : Type} {x : Except ε α} {f : α → β} {e : ε} :
    x.map f = .error e ↔ x = .error e := by
  cases x <;> simp [Except.map]

namespace SyntaxError

/-- The messages of syntax errors, each with the beginnings of a text that it speaks of. -/
inductive Shows : String → List Char → Prop
  | unclosedBlock (cs : List Char) : Shows "unclosed block" ('\x7b' :: cs)
  | blockWithoutSelector (cs : List Char) : Shows "block without selector" ('\x7b' :: cs)
  | unexpectedBrace (cs : List Char) : Shows "unexpected '\x7d'" ('\x7d' :: cs)
  | unclosedRound (cs : List Char) : Shows "unclosed parenthesis" ('(' :: cs)
  | unclosedSquare (cs : List Char) : Shows "unclosed parenthesis" ('[' :: cs)
  | unexpectedRound (cs : List Char) : Shows "unexpected ')'" (')' :: cs)
  | unexpectedSquare (cs : List Char) : Shows "unexpected ']'" (']' :: cs)
  | deepBlock (cs : List Char) : Shows "nesting too deep" ('\x7b' :: cs)
  | deepBracket (cs : List Char) : Shows "nesting too deep" ('(' :: cs)
  | declarationWithoutProperty (cs : List Char) : Shows "declaration without property" (':' :: cs)
  | unterminatedComment (cs : List Char) : Shows "unterminated comment" ('/' :: '*' :: cs)
  | unterminatedString (quote : Char) (cs : List Char) (isQuote : quote = '"' ∨ quote = '\'') :
      Shows "unterminated string" (quote :: cs)
  | unexpectedCharacter (c : Char) (cs : List Char) :
      Shows ("unexpected character '" ++ String.ofList (Text.escaped c) ++ "'") (c :: cs)

/-- The delimiters at which a cause is found. Causes of lexemes have none, and a block that is not
    closed is not found before the end. -/
def Cause.signs : Cause → List Char
  | unexpectedClosing c => [')', ']', '\x7d'].filter (· == c)
  | unclosedParenthesis => ['(', '[']
  | blockWithoutSelector => ['\x7b']
  | declarationWithoutProperty => [':']
  | nestingTooDeep => ['\x7b', '(']
  | _ => []

/-- The error is found at one of the tokens, which is a sign of its cause. -/
def FoundIn (ts : List Token) (e : SyntaxError) : Prop :=
  ∃ t ∈ ts, t.position = e.position ∧ ∃ c ∈ e.cause.signs, t.isDelimiter c = true

variable {ts us : List Token} {t : Token} {c : Char} {cause : Cause} {e : SyntaxError}

theorem foundIn_of_mem (member : t ∈ ts) (sign : c ∈ cause.signs) (is : t.isDelimiter c = true) :
    FoundIn ts ⟨cause, t.position⟩ :=
  ⟨t, member, rfl, c, sign, is⟩

theorem FoundIn.mono (h : e.FoundIn ts) (part : ts ⊆ us) : e.FoundIn us := by
  obtain ⟨t, member, found⟩ := h
  exact ⟨t, part member, found⟩

/-- A sign of the cause is what the message speaks of. -/
theorem shows_of_mem_signs (h : c ∈ cause.signs) (cs : List Char) :
    Shows cause.message (c :: cs) := by
  cases cause with
  | unexpectedClosing d =>
    obtain ⟨closing, same⟩ := List.mem_filter.mp h
    obtain rfl : c = d := by simpa using same
    simp only [List.mem_cons, List.not_mem_nil, or_false] at closing
    rcases closing with rfl | rfl | rfl
    · have words : (Cause.unexpectedClosing ')').message = "unexpected ')'" := by decide
      exact words ▸ .unexpectedRound cs
    · have words : (Cause.unexpectedClosing ']').message = "unexpected ']'" := by decide
      exact words ▸ .unexpectedSquare cs
    · have words : (Cause.unexpectedClosing '\x7d').message = "unexpected '\x7d'" := by decide
      exact words ▸ .unexpectedBrace cs
  | unclosedParenthesis =>
    rcases List.mem_pair.mp h with rfl | rfl
    · exact .unclosedRound cs
    · exact .unclosedSquare cs
  | blockWithoutSelector =>
    obtain rfl := List.mem_singleton.mp h
    exact .blockWithoutSelector cs
  | declarationWithoutProperty =>
    obtain rfl := List.mem_singleton.mp h
    exact .declarationWithoutProperty cs
  | nestingTooDeep =>
    rcases List.mem_pair.mp h with rfl | rfl
    · exact .deepBlock cs
    · exact .deepBracket cs
  | unterminatedComment => cases h
  | unterminatedString => cases h
  | unexpectedCharacter => cases h
  | unclosedBlock => cases h
  | other => cases h

/-- The words for what is not expected are no words for a block that is not closed. -/
theorem unexpected_ne {front : String} (long : 3 ≤ front.toList.length)
    (unexpected : front.toList.take 3 = ['u', 'n', 'e']) (s t : String) :
    front ++ s ++ t ≠ "unclosed block" := by
  intro same
  have letters := congrArg (fun s => s.toList.take 3) same
  simp only [String.toList_append, List.append_assoc] at letters
  rw [List.take_append_of_le_length long, unexpected] at letters
  revert letters
  decide

/-- No cause with a sign is told in the words for a block that is not closed. -/
theorem message_ne_of_mem_signs (h : c ∈ cause.signs) : cause.message ≠ "unclosed block" := by
  cases cause with
  | unexpectedClosing d => exact unexpected_ne (by decide) (by decide) _ _
  | unclosedParenthesis => decide
  | blockWithoutSelector => decide
  | declarationWithoutProperty => decide
  | nestingTooDeep => decide
  | unterminatedComment => cases h
  | unterminatedString => cases h
  | unexpectedCharacter => cases h
  | unclosedBlock => cases h
  | other => cases h

end SyntaxError

open SyntaxError

/-! ### Lexemes -/

namespace Lexeme

variable {c : Char} {cs : List Char} {cause : Cause} {e : SyntaxError}

/-- What begins no lexeme is a comment or a string without an end, or a character out of place. -/
theorem classify_eq_error (h : classify c cs = .error cause) :
    (cause = .unterminatedComment ∧ ∃ ds, c :: cs = '/' :: '*' :: ds) ∨
      (cause = .unterminatedString ∧ (c = '"' ∨ c = '\'')) ∨ cause = .unexpectedCharacter c := by
  by_cases slash : c = '/'
  · subst slash
    unfold classify at h
    rw [if_neg (by decide), if_pos rfl] at h
    split at h
    · split at h <;> cases h
      exact .inl ⟨rfl, _, rfl⟩
    · cases h
    · cases h
  by_cases quote : c = '"' ∨ c = '\''
  · rw [classify_string quote] at h
    split at h <;> cases h
    exact .inr (.inl ⟨rfl, quote⟩)
  by_cases blank : isSpace c = true
  · rw [classify_blank blank] at h
    cases h
  by_cases url : opensUrl c cs = true
  · rw [classify_url url] at h
    cases h
  rcases classify_of_plain (by simpa using blank) quote (fun isSlash => absurd isSlash slash)
    (by simpa using url) with ⟨kind, n, eq, -⟩ | eq
  · rw [eq] at h
    cases h
  · rw [eq] at h
    cases h
    exact .inr (.inr rfl)

/-- A text that cannot be cut into lexemes goes on, from the place of the error, as the message
    says. -/
theorem shows_of_split {p : Position} (h : split p cs = .error e) :
    e.cause.message ≠ "unclosed block" ∧ ∃ front back, cs = front ++ back ∧
      e.position = p.advance front ∧ Shows e.cause.message back := by
  fun_induction split p cs with
  | case1 => cases h
  | case2 p c cs cause refused =>
    cases h
    have same : c :: cs = [] ++ c :: cs := rfl
    rcases classify_eq_error refused with ⟨rfl, ds, text⟩ | ⟨rfl, quote⟩ | rfl
    · refine ⟨?_, [], _, same, rfl, text ▸ .unterminatedComment ds⟩
      show Cause.unterminatedComment.message ≠ "unclosed block"
      decide
    · refine ⟨?_, [], _, same, rfl, .unterminatedString c cs quote⟩
      show Cause.unterminatedString.message ≠ "unclosed block"
      decide
    · refine ⟨?_, [], _, same, rfl, .unexpectedCharacter c cs⟩
      exact unexpected_ne (by decide) (by decide) _ _
  | case3 p c cs kind n _ text e' failed ih =>
    cases h
    obtain ⟨lexical, front, back, rest, place, shows⟩ := ih failed
    refine ⟨lexical, text ++ front, back, ?_, ?_, shows⟩
    · rw [List.append_assoc, ← rest, List.cons_append, List.take_append_drop]
    · rw [place, Position.advance_append]
  | case4 => cases h

end Lexeme

namespace Group

variable {pending : List Pending} {current gs inner : List Group} {us ts : List Token}
  {e : SyntaxError} {inSelector : Bool} {d : Nat}

theorem HasRead.of_cons {p : Pending} (h : HasRead (p :: pending) current us) :
    (p.opening ∈ us ∧ p.opening.isDelimiter '(' = true) ∧
      ∃ vs, vs ⊆ us ∧ HasRead pending p.before vs := by
  cases h with
  | @parens _ _ _ _ vs _ outside opening =>
    exact ⟨⟨by simp, opening⟩, vs, List.subset_append_left _ _, outside⟩
  | @call _ _ _ _ _ vs _ outside _ opening =>
    exact ⟨⟨by simp, opening⟩, vs, List.subset_append_left _ _, outside⟩

/-- The outermost bracket that waits for its partner has been read, and all groups before it are
    complete. -/
theorem HasRead.of_getLast? {p : Pending} (h : HasRead pending current us)
    (last : pending.getLast? = some p) :
    (p.opening ∈ us ∧ p.opening.isDelimiter '(' = true) ∧
      ∃ vs, vs ⊆ us ∧ Covers p.before.reverse vs := by
  induction pending generalizing current us with
  | nil => cases last
  | cons q pending ih =>
    obtain ⟨here, vs, part, outside⟩ := h.of_cons
    cases pending with
    | nil =>
      obtain rfl : q = p := by simpa using last
      cases outside with
      | outermost within => exact ⟨here, vs, part, within⟩
    | cons q' pending =>
      obtain ⟨⟨member, opening⟩, ws, front, covers⟩ := ih outside (by simpa using last)
      exact ⟨⟨part member, opening⟩, ws, List.Subset.trans front part, covers⟩

/-- The fault of a grouping is found at a bracket, and the groups before it cover some of the
    tokens. -/
theorem foundIn_of_pair {fault : Option SyntaxError} (h : HasRead pending current us)
    (hp : pair pending current ts = (gs, fault)) :
    (∃ vs, vs ⊆ us ++ ts ∧ Covers gs vs) ∧ ∀ e ∈ fault, e.FoundIn (us ++ ts) := by
  fun_induction pair pending current ts generalizing us with
  | case1 pending current last =>
    cases hp
    obtain rfl := List.getLast?_eq_none_iff.mp last
    cases h with
    | outermost within =>
      refine ⟨⟨us, by simp, within⟩, ?_⟩
      intro e he
      cases he
  | case2 pending current p last =>
    cases hp
    obtain ⟨⟨member, opening⟩, vs, part, covers⟩ := h.of_getLast? last
    refine ⟨⟨vs, by simpa using part, covers⟩, ?_⟩
    rintro e ⟨⟩
    exact foundIn_of_mem (by simpa using member) (by decide : '(' ∈ _) opening
  | case3 pending current t ts opening ih =>
    simpa using ih (h.open opening) hp
  | case4 current t ts _ closing =>
    cases hp
    cases h with
    | outermost within =>
      refine ⟨⟨us, List.subset_append_left _ _, within⟩, ?_⟩
      rintro e ⟨⟩
      exact foundIn_of_mem (by simp) (by decide : ')' ∈ _) closing
  | case5 current t ts _ closing p pending ih =>
    simpa using ih (h.close closing) hp
  | case6 pending current t ts noOpening noClosing ih =>
    have covers : Covers [.single t] [t] :=
      .single (by simpa using noOpening) (by simpa using noClosing) .nil
    simpa using ih (h.snoc covers) hp

theorem nodesOf_cons_eq_error {g : Group} (h : nodesOf inSelector d (g :: gs) = .error e) :
    g.nodes inSelector d = .error e ∨ nodesOf inSelector d gs = .error e := by
  rw [nodesOf, bind_eq_error] at h
  rcases h with here | ⟨first, -, behind⟩
  · exact .inl here
  · exact .inr (eq_error_of_bind_pure behind)

/-- Brackets without nodes are nested too deep, or something in them is. -/
theorem nodes_bracketed_eq_error {deep : SyntaxError} {make : List Node → Node}
    (h : (if maxNesting ≤ d then .error deep
      else do
        let children ← nodesOf inSelector (d + 1) inner
        return [make children]) = .error e) :
    e = deep ∨ nodesOf inSelector (d + 1) inner = .error e := by
  split at h
  · cases h
    exact .inl rfl
  · exact .inr (eq_error_of_bind_pure h)

/-- Groups have no nodes only because of a bracket that is nested too deep. -/
theorem foundIn_of_nodesOf (covers : Covers gs ts) (h : nodesOf inSelector d gs = .error e) :
    e.FoundIn ts := by
  have deep {o : Token} (opening : o.isDelimiter '(' = true) {ts : List Token} (member : o ∈ ts) :
      FoundIn ts ⟨.nestingTooDeep, o.position⟩ :=
    foundIn_of_mem member (by decide : '(' ∈ _) opening
  induction covers generalizing d with
  | nil => cases h
  | single _ _ _ ih =>
    rcases nodesOf_cons_eq_error h with here | behind
    · cases here
    · exact (ih behind).mono (List.subset_cons_self _ _)
  | parens opening _ _ _ ihWithin ih =>
    rcases nodesOf_cons_eq_error h with here | behind
    · rw [nodes] at here
      rcases nodes_bracketed_eq_error here with rfl | inside
      · exact deep opening (by simp)
      · exact (ihWithin inside).mono (by grind)
    · exact (ih behind).mono (by grind)
  | call _ opening _ _ _ ihWithin ih =>
    rcases nodesOf_cons_eq_error h with here | behind
    · rw [nodes] at here
      rcases nodes_bracketed_eq_error here with rfl | inside
      · exact deep opening (by simp)
      · exact (ihWithin inside).mono (by grind)
    · exact (ih behind).mono (by grind)

end Group

/-- A value is refused because of one of its tokens. -/
theorem foundIn_of_values {inSelector : Bool} {ts : List Token} {e : SyntaxError}
    (h : values inSelector ts = .error e) : e.FoundIn ts := by
  rcases grouped : Group.ofTokens ts with ⟨gs, fault⟩
  have start : Group.HasRead [] [] [] := .outermost Group.Covers.nil
  obtain ⟨⟨vs, part, covers⟩, found⟩ := Group.foundIn_of_pair start grouped
  simp only [values, grouped, bind_eq_error] at h
  rcases h with failed | ⟨ns, -, thrown⟩
  · exact (Group.foundIn_of_nodesOf covers failed).mono part
  · cases fault with
    | none => cases thrown
    | some e' =>
      cases thrown
      exact found e rfl

namespace Statement

variable {rest before after : List Token} {first colon name : Token} {e : SyntaxError}

theorem foundIn_of_trim {inSelector : Bool} {ts : List Token}
    (h : values inSelector (Token.trim ts) = .error e) : e.FoundIn ts :=
  (foundIn_of_values h).mono (Token.isInfix_trim ts).subset

theorem foundIn_of_declaration (isColon : colon.isDelimiter ':' = true)
    (h : declaration before colon after = .error e) : e.FoundIn (before ++ colon :: after) := by
  unfold declaration at h
  split at h
  · cases h
    exact foundIn_of_mem (by simp) (by decide : ':' ∈ _) isColon
  · exact (foundIn_of_trim (eq_error_of_bind_pure h)).mono (by grind)

/-- An at-rule is refused because of a token behind its name. -/
theorem foundIn_of_atRule {block : Option Node} (h : atRule name rest block = .error e) :
    e.FoundIn rest := by
  unfold atRule at h
  dsimp only at h
  split at h
  · cases h
  · rename_i first more trimmed
    rcases bind_eq_error.mp h with failed | ⟨nodes, -, made⟩
    · exact foundIn_of_trim (trimmed ▸ failed)
    · cases made

theorem foundIn_of_withBlock {block : Node} (h : withBlock first rest block = .error e) :
    e.FoundIn (first :: rest) := by
  unfold withBlock at h
  split at h
  · exact (foundIn_of_atRule h).mono (List.subset_cons_self first rest)
  · exact foundIn_of_values (eq_error_of_bind_pure h)

/-- A statement without a block is refused because of one of its tokens. -/
theorem foundIn_of_withoutBlock (h : withoutBlock first rest = .error e) :
    e.FoundIn (first :: rest) := by
  unfold withoutBlock at h
  split at h
  · rename_i before colon after cut
    obtain ⟨split, isColon⟩ := splitColon?_eq_some cut
    exact split ▸ foundIn_of_declaration isColon h
  · split at h
    · exact (foundIn_of_atRule h).mono (List.subset_cons_self first rest)
    · exact foundIn_of_values (eq_error_of_bind_pure h)

end Statement

/-! ### The reader -/

namespace Reader

variable {r r' : Reader} {t : Token} {ts us : List Token} {e : SyntaxError}

/-- Ending a statement fails because of a token that the reader has kept. -/
theorem foundIn_of_endStatement (kept : ∀ t ∈ r.statement, t ∈ ts)
    (h : r.endStatement = .error e) : e.FoundIn ts := by
  unfold endStatement at h
  split at h
  · cases h
  · rename_i first rest trimmed
    have part : first :: rest ⊆ ts := by
      rw [← trimmed]
      exact Token.forall_mem_trim fun t ht => kept t (List.mem_reverse.mp ht)
    exact (Statement.foundIn_of_withoutBlock (eq_error_of_bind_pure h)).mono part

theorem foundIn_of_openBlock (member : t ∈ ts) (ht : t.role = .openBrace)
    (h : r.openBlock t.position = .error e) : e.FoundIn ts := by
  have brace : t.isDelimiter '\x7b' = true := by simp [Token.isDelimiter_openBrace_eq, ht]
  unfold openBlock at h
  split at h
  · cases h
    exact foundIn_of_mem member (by decide : '\x7b' ∈ _) brace
  · split at h <;> cases h
    exact foundIn_of_mem member (by decide : '\x7b' ∈ _) brace

/-- Closing a block fails because of the brace or of a token in the head of the block. -/
theorem foundIn_of_closeBlock (heads : ∀ b ∈ r.blocks, ∀ t ∈ b.first :: b.rest, t ∈ ts)
    (member : t ∈ ts) (ht : t.role = .closeBrace) (h : r.closeBlock t.position = .error e) :
    e.FoundIn ts := by
  have brace : t.isDelimiter '\x7d' = true := by simp [Token.isDelimiter_closeBrace_eq, ht]
  unfold closeBlock at h
  split at h
  · cases h
    exact foundIn_of_mem member (by decide : '\x7d' ∈ _) brace
  · rename_i b blocks inside
    have failed := eq_error_of_bind_pure h
    exact (Statement.foundIn_of_withBlock failed).mono (heads b (by simp [inside]))

/-- A step fails at its token, or at a token that has been kept. -/
theorem foundIn_of_step (keeps : Keeps (· ∈ ts) r) (member : t ∈ ts) (h : r.step t = .error e) :
    e.FoundIn ts := by
  cases move r t with
  | keep _ _ _ eq =>
    rw [eq] at h
    cases h
  | refuse _ outside ht _ =>
    obtain ⟨c, is, eq⟩ := step_closing ht
    rw [eq r outside] at h
    cases h
    have sign : c = ')' ∨ c = ']' := by
      rcases (Token.role_eq_iff t).2.1.mp ht with closing | closing
      · exact .inl (Token.isDelimiter_unique is closing)
      · exact .inr (Token.isDelimiter_unique is closing)
    exact foundIn_of_mem member (by rcases sign with rfl | rfl <;> decide) is
  | semicolon _ _ eq => exact foundIn_of_endStatement keeps.statement (eq ▸ h)
  | openBlock _ ht eq => exact foundIn_of_openBlock member ht (eq ▸ h)
  | closeBlock _ ht eq =>
    rw [eq, bind_eq_error] at h
    rcases h with failed | ⟨r₁, ended, failed⟩
    · exact foundIn_of_endStatement keeps.statement failed
    · exact foundIn_of_closeBlock (keeps.ended ended).heads member ht failed

/-- A run that fails does so at one of its steps. -/
theorem exists_step_of_read (h : r.read ts = .error e) :
    ∃ us t vs r₁, ts = us ++ t :: vs ∧ r.read us = .ok r₁ ∧ r₁.step t = .error e := by
  induction ts generalizing r with
  | nil => cases h
  | cons t ts ih =>
    rw [read_cons, bind_eq_error] at h
    rcases h with failed | ⟨r₁, first, rest⟩
    · exact ⟨[], t, ts, r, rfl, rfl, failed⟩
    · obtain ⟨us, t', vs, r₂, rfl, before, failed⟩ := ih rest
      refine ⟨t :: us, t', vs, r₂, rfl, ?_, failed⟩
      rw [read_cons, first]
      exact before

/-- A bracket that is open was open before, or the token opens it. -/
theorem mem_brackets_of_step {p : Position} (h : r.step t = .ok r') (member : p ∈ r'.brackets) :
    p ∈ r.brackets ∨ (p = t.position ∧ t.role = .opening) := by
  have opened (ht : t.role = .opening) (member : p ∈ t.position :: r.brackets) :
      p ∈ r.brackets ∨ (p = t.position ∧ t.role = .opening) := by
    rcases List.mem_cons.mp member with here | before
    · exact .inr ⟨here, ht⟩
    · exact .inl before
  unfold step at h
  split at h
  · rename_i kind
    cases h
    exact opened (by simp [Token.role, kind]) member
  · rename_i kind
    cases h
    exact opened (by simp [Token.role, kind]) member
  · cases h
  · cases h
  · rename_i inside
    cases h
    exact .inl (inside ▸ List.mem_cons_of_mem _ member)
  · rename_i inside
    cases h
    exact .inl (inside ▸ List.mem_cons_of_mem _ member)
  · exact .inl ((endStatement_frame h).2.1 ▸ member)
  · obtain ⟨_, _, -, -, rfl⟩ := openBlock_eq_ok.mp h
    cases member
  · obtain ⟨_, -, closed⟩ := bind_eq_ok.mp h
    obtain ⟨_, _, _, -, -, rfl⟩ := closeBlock_eq_ok.mp closed
    cases member
  · cases h
    exact .inl member

/-- All that the reader can blame is found in the tokens. -/
structure Remembers (ts : List Token) (r : Reader) : Prop where
  keeps : Keeps (· ∈ ts) r
  brackets : ∀ p ∈ r.brackets, FoundIn ts ⟨.unclosedParenthesis, p⟩

theorem Remembers.step (h : r.Remembers ts) (member : t ∈ ts) (step : r.step t = .ok r') :
    r'.Remembers ts := by
  refine ⟨h.keeps.step member (step_cases step), fun p hp => ?_⟩
  rcases mem_brackets_of_step step hp with before | ⟨rfl, ht⟩
  · exact h.brackets p before
  · rcases (Token.role_eq_iff t).1.mp ht with opening | opening
    · exact foundIn_of_mem member (by decide : '(' ∈ _) opening
    · exact foundIn_of_mem member (by decide : '[' ∈ _) opening

theorem remembers_of_read (h : initial.read us = .ok r) (part : us ⊆ ts) : r.Remembers ts := by
  refine @read_induction r (fun _ r => r.Remembers ts) us ⟨keeps_initial, by simp [initial]⟩ ?_ h
  intro _ t r₁ r₂ member before step
  exact before.step (part member) step

end Reader

namespace Token

/-- The tokens outside of all brackets, if `d` brackets are open in front of them. -/
def outerFrom (d : Int) (ts : List Token) : List Token :=
  ((placeFrom d ts).filter (·.isOuter)).map (·.token)

theorem outer_append (us ts : List Token) :
    outer (us ++ ts) = outer us ++ outerFrom (Bracket.any.depth us) ts := by
  simp only [outer, outerFrom, place, placeFrom_append, List.filter_append, List.map_append,
    zero_add]

theorem outerFrom_singleton (d : Int) (t : Token) :
    outerFrom d [t] = if d = 0 then [t] else [] := by
  by_cases outside : d = 0 <;> simp [outerFrom, placeFrom, Placed.isOuter, outside]

/-- The token opens the innermost block that is open behind the tokens: behind it every block that
    is opened is closed, and no other one. -/
def LastOpen (ts : List Token) (brace : Token) : Prop :=
  ∃ us vs, ts = us ++ brace :: vs ∧ brace.isDelimiter '\x7b' = true ∧
    Bracket.any.depth us = 0 ∧ Bracket.brace.Balanced (outer vs)

end Token

namespace Reader

variable {r r' : Reader} {t : Token} {ts us vs : List Token} {b : OpenBlock} {bs : List OpenBlock}

/-- The open blocks behind some tokens, the innermost first: each is opened outside of all brackets,
    and up to the next one all blocks are closed. -/
inductive Unclosed : List Token → List OpenBlock → Prop
  | outermost {us : List Token} (balanced : Bracket.brace.Balanced (Token.outer us)) :
      Unclosed us []
  | inside {us vs : List Token} {brace : Token} {b : OpenBlock} {bs : List OpenBlock}
      (outside : Unclosed us bs) (settled : Bracket.any.depth us = 0)
      (opens : brace.role = .openBrace) (place : b.brace = brace.position)
      (balanced : Bracket.brace.Balanced (Token.outer vs)) : Unclosed (us ++ brace :: vs) (b :: bs)

/-- Tokens that close all blocks they open change nothing for the open ones. -/
theorem Unclosed.append (h : Unclosed us bs)
    (balanced : Bracket.brace.Balanced (Token.outerFrom (Bracket.any.depth us) vs)) :
    Unclosed (us ++ vs) bs := by
  cases h with
  | outermost before =>
    refine .outermost ?_
    rw [Token.outer_append]
    exact (Bracket.balancedFrom_append before).mpr balanced
  | @inside us ws brace _ _ outside settled opens place before =>
    have depth : Bracket.any.depth (us ++ brace :: ws) = Bracket.any.depth ws := by
      rw [Bracket.depth_append, settled, Bracket.depth_cons,
        Token.depth_any_other (by simp [opens]) (by simp [opens]), zero_add, zero_add]
    rw [depth] at balanced
    rw [List.append_assoc, List.cons_append]
    refine .inside outside settled opens place ?_
    rw [Token.outer_append]
    exact (Bracket.balancedFrom_append before).mpr balanced

/-- A token that is no brace, or that stands inside of brackets. -/
theorem Unclosed.concat (h : Unclosed us bs)
    (neutral : Bracket.any.depth us = 0 → Bracket.brace.depth [t] = 0) :
    Unclosed (us ++ [t]) bs := by
  apply h.append
  rw [Token.outerFrom_singleton]
  have nothing : Bracket.brace.Balanced [] := Bracket.balancedFrom_nil.mpr rfl
  split
  · rename_i outside
    exact (Bracket.balancedFrom_cons_neutral (neutral outside)).mpr nothing
  · exact nothing

/-- A block with its braces is balanced if its contents are. -/
theorem balanced_block {brace : Token} (opens : brace.role = .openBrace)
    (closes : t.role = .closeBrace) (balanced : Bracket.brace.Balanced vs) :
    Bracket.brace.Balanced (brace :: (vs ++ [t])) := by
  have settled : Bracket.brace.depth vs = 0 := by simpa using balanced.settled
  have whole : 1 + Bracket.brace.depth (vs ++ [t]) = 0 := by
    rw [Bracket.depth_append, settled, Token.depth_brace_closeBrace closes]
    rfl
  rw [Bracket.Balanced, Bracket.balancedFrom_cons, Token.depth_brace_openBrace opens, zero_add]
  refine ⟨le_refl 0, fun p hp => ?_, whole⟩
  rcases List.prefix_concat_iff.mp hp with rfl | inside
  · exact whole.ge
  · have := balanced.nonneg p inside
    omega

/-- A brace closes the innermost block. -/
theorem Unclosed.close (h : Unclosed us (b :: bs)) (settled : Bracket.any.depth us = 0)
    (closes : t.role = .closeBrace) : Unclosed (us ++ [t]) bs := by
  cases h with
  | @inside us ws brace _ _ outside settledBefore opens place balanced =>
    have neutral : Bracket.any.depth [brace] = 0 :=
      Token.depth_any_other (by simp [opens]) (by simp [opens])
    have settledInside : Bracket.any.depth ws = 0 := by
      rw [Bracket.depth_append, settledBefore, Bracket.depth_cons, neutral] at settled
      simpa using settled
    have block : Token.outerFrom 0 (brace :: (ws ++ [t])) = brace :: (Token.outer ws ++ [t]) := by
      have front := Token.outer_append [brace] (ws ++ [t])
      have back := Token.outer_append ws [t]
      rw [neutral] at front
      rw [settledInside, Token.outerFrom_singleton, if_pos rfl] at back
      exact front.trans (congrArg (brace :: ·) back)
    rw [List.append_assoc, List.cons_append]
    apply outside.append
    rw [settledBefore, block]
    exact balanced_block opens closes balanced

/-- Each step keeps the list of blocks in line with the braces that are open. -/
theorem Unclosed.step (h : Unclosed us r.blocks)
    (count : Bracket.any.depth us = r.brackets.length) (step : Step r t r') :
    Unclosed (us ++ [t]) r'.blocks := by
  have settled (outside : r.brackets = []) : Bracket.any.depth us = 0 := by simp [count, outside]
  cases step with
  | keep _ _ inside =>
    apply h.concat
    intro outer
    have outside : r.brackets = [] := List.eq_nil_of_length_eq_zero (by omega)
    have uncut : t.cuts = false := by
      cases cut : t.cuts with
      | false => rfl
      | true => exact absurd outside (inside cut)
    rcases Token.cuts_eq_false_iff.mp uncut with ht | ht | ht <;>
      exact Token.depth_brace_other (by simp [ht]) (by simp [ht])
  | semicolon _ ht ended =>
    rw [(endStatement_frame ended).2.2]
    exact h.concat fun _ => Token.depth_brace_other (by simp [ht]) (by simp [ht])
  | openBlock outside ht opened =>
    obtain ⟨first, rest, -, -, rfl⟩ := openBlock_eq_ok.mp opened
    exact .inside h (settled outside) ht rfl (Bracket.balancedFrom_nil.mpr rfl)
  | closeBlock outside ht ended closed =>
    obtain ⟨b, outer, node, inside, -, rfl⟩ := closeBlock_eq_ok.mp closed
    rw [(endStatement_frame ended).2.2] at inside
    rw [inside] at h
    exact h.close (settled outside) ht

/-- The blocks of the reader are those that are open in the tokens it has read. -/
theorem unclosed_of_read (h : initial.read ts = .ok r) : Unclosed ts r.blocks := by
  have both : Bracket.any.depth ts = r.brackets.length ∧ Unclosed ts r.blocks := by
    refine @read_invariant r
      (fun us r => Bracket.any.depth us = r.brackets.length ∧ Unclosed us r.blocks) ts
      ⟨rfl, .outermost (Bracket.balancedFrom_nil.mpr rfl)⟩ ?_ h
    rintro us t r₁ r₂ - ⟨count, unclosed⟩ step
    refine ⟨?_, unclosed.step count step⟩
    rw [Bracket.depth_append, count, step.count]
  exact both.2

theorem Unclosed.lastOpen (h : Unclosed ts (b :: bs)) :
    ∃ brace, Token.LastOpen ts brace ∧ b.brace = brace.position := by
  cases h with
  | @inside us vs brace _ _ _ settled opens place balanced =>
    refine ⟨brace, ⟨us, vs, rfl, ?_, settled, balanced⟩, place⟩
    simp [Token.isDelimiter_openBrace_eq, opens]

/-- The reader cannot finish inside of brackets, with a statement that cannot be read, or inside of
    a block. -/
theorem finish_eq_error {e : SyntaxError} (h : r.finish = .error e) :
    (∃ p ∈ r.brackets, e = ⟨.unclosedParenthesis, p⟩) ∨ r.endStatement = .error e ∨
      ∃ b bs, r.blocks = b :: bs ∧ e = ⟨.unclosedBlock, b.brace⟩ := by
  unfold finish at h
  split at h
  · rename_i p ps inside
    cases h
    exact .inl ⟨p, by simp [inside], rfl⟩
  · rcases bind_eq_error.mp h with failed | ⟨last, ended, failed⟩
    · exact .inr (.inl failed)
    · split at failed
      · rename_i b bs inside
        cases failed
        exact .inr (.inr ⟨b, bs, (endStatement_frame ended).2.2 ▸ inside, rfl⟩)
      · cases failed

end Reader

/-! ### Whole texts -/

namespace Stylesheet

/-- Tokens are no style sheet because of one of them, or because a block is open at the end. -/
theorem foundIn_of_ofTokens {ts : List Token} {e : SyntaxError} (h : ofTokens ts = .error e) :
    e.FoundIn ts ∨ ∃ brace, Token.LastOpen ts brace ∧ e = ⟨.unclosedBlock, brace.position⟩ := by
  rcases bind_eq_error.mp h with failed | ⟨r, read, failed⟩
  · obtain ⟨us, t, vs, r, rfl, read, failed⟩ := Reader.exists_step_of_read failed
    have remembers := Reader.remembers_of_read read (List.subset_append_left us (t :: vs))
    exact .inl (Reader.foundIn_of_step remembers.keeps (by simp) failed)
  · have remembers := Reader.remembers_of_read read (List.Subset.refl ts)
    rcases Reader.finish_eq_error failed with ⟨p, member, rfl⟩ | failed | ⟨b, bs, inside, rfl⟩
    · exact .inl (remembers.brackets p member)
    · exact .inl (Reader.foundIn_of_endStatement remembers.keeps.statement failed)
    · have unclosed := Reader.unclosed_of_read read
      rw [inside] at unclosed
      obtain ⟨brace, last, place⟩ := unclosed.lastOpen
      exact .inr ⟨brace, last, by rw [place]⟩

/-- A token shows in the text what a message says of it. -/
theorem shows_of_mem {source : List Char} {ts : List Token} {t : Token} {c : Char}
    {message : String} (stands : Token.Stands source ts) (member : t ∈ ts)
    (is : t.isDelimiter c = true) (shows : ∀ cs, Shows message (c :: cs)) :
    ∃ front back, source = front ++ back ∧ t.position = Position.start.advance front ∧
      Shows message back := by
  obtain ⟨us, vs, rfl⟩ := List.append_of_mem member
  have alone : Token.Stands source [t] := stands.part ⟨us, vs, by simp⟩
  obtain ⟨front, back, text, place, -⟩ := alone.text
  have letter : Token.joined [t] = [c] := by
    rw [Token.joined_cons, Token.joined_nil, List.append_nil]
    exact (stands.forms t member).text_of_isDelimiter is
  rw [letter] at text
  exact ⟨front, c :: back, text, place, shows back⟩

/-- What stands in a text at the line and the column of its syntax error is what the message says,
    and no other messages are given. A block that is not closed is the innermost one that is still
    open at the end. -/
theorem shows_parse {source : String} {e : SyntaxError} (h : parse source = .error e) :
    (∃ front back, (withoutMark source).toList = front ++ back ∧
      e.position.line = 1 + front.count '\n' ∧
      e.position.column = 1 + (Position.lastLine front).length ∧ Shows e.cause.message back) ∧
    (e.cause.message = "unclosed block" → ∃ ts brace,
      Token.tokenize (withoutMark source) = .ok ts ∧ Token.LastOpen ts brace ∧
        e.position = brace.position) := by
  have counted {source : List Char}
      (shown : ∃ front back, source = front ++ back ∧
        e.position = Position.start.advance front ∧ Shows e.cause.message back) :
      ∃ front back, source = front ++ back ∧ e.position.line = 1 + front.count '\n' ∧
        e.position.column = 1 + (Position.lastLine front).length ∧ Shows e.cause.message back := by
    obtain ⟨front, back, text, place, shows⟩ := shown
    rw [Position.start_advance] at place
    exact ⟨front, back, text, by rw [place], by rw [place], shows⟩
  rcases bind_eq_error.mp h with failed | ⟨ts, tokens, failed⟩
  · obtain ⟨other, shown⟩ := Lexeme.shows_of_split (map_eq_error.mp failed)
    exact ⟨counted shown, fun unclosed => absurd unclosed other⟩
  · have stands := Token.stands_of_tokenize tokens
    rcases foundIn_of_ofTokens failed with ⟨t, member, place, c, sign, is⟩ | ⟨brace, last, rfl⟩
    · have shown := shows_of_mem stands member is (shows_of_mem_signs sign)
      rw [place] at shown
      exact ⟨counted shown, fun unclosed => absurd unclosed (message_ne_of_mem_signs sign)⟩
    · obtain ⟨us, vs, rfl, is, -, -⟩ := id last
      have shown := shows_of_mem stands (by simp) is .unclosedBlock
      exact ⟨counted shown, fun _ => ⟨_, brace, tokens, last, rfl⟩⟩

/-- A block that is closed and a brace inside of brackets are passed over on the way back to the
    block that is open. -/
theorem shows_parse_unclosed :
    parse "a \x7b\n b \x7b c: d \x7d\n e \x7b\n f: g(\x7b)" = .error ⟨.unclosedBlock, ⟨3, 4⟩⟩ ∧
    (∃ front back,
      (withoutMark "a \x7b\n b \x7b c: d \x7d\n e \x7b\n f: g(\x7b)").toList = front ++ back ∧
      3 = 1 + front.count '\n' ∧ 4 = 1 + (Position.lastLine front).length ∧
      Shows "unclosed block" back) ∧
    ∃ ts brace,
      Token.tokenize (withoutMark "a \x7b\n b \x7b c: d \x7d\n e \x7b\n f: g(\x7b)") = .ok ts ∧
      Token.LastOpen ts brace ∧ ⟨3, 4⟩ = brace.position := by
  have failed : parse "a \x7b\n b \x7b c: d \x7d\n e \x7b\n f: g(\x7b)" =
      .error ⟨.unclosedBlock, ⟨3, 4⟩⟩ := by
    apply (map_eq_error (f := fun _ => ())).mp
    decide +kernel
  exact ⟨failed, (shows_parse failed).1, (shows_parse failed).2 rfl⟩

end Stylesheet

end SheetLint
