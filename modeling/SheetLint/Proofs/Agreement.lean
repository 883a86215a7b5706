import SheetLint.Proofs.Reading

/-!
# Runs that agree

Two computations agree if they fail with the same error, or if both succeed and their results are
related. When two readers agree on what they do at the end of a statement and of a block, they agree
on every token (`Reader.step_agrees`) and on the style sheet at the end (`Reader.finish_agrees`).
-/

namespace SheetLint

/-- Both computations fail with the same error, or both succeed with related results. -/
inductive Agrees {ε α β : Type} (R : α → β → Prop) : Except ε α → Except ε β → Prop
  | ok {a : α} {b : β} (related : R a b) : Agrees R (.ok a) (.ok b)
  | error (e : ε) : Agrees R (.error e) (.error e)

section Agrees

variable {ε α β γ δ : Type} {R S : α → β → Prop} {T : γ → δ → Prop} {x : Except ε α}
  {y : Except ε β}

/-- What is done next agrees, if it does so on related results. -/
theorem Agrees.bind {f : α → Except ε γ} {g : β → Except ε δ} (h : Agrees R x y)
    (next : ∀ a b, R a b → Agrees T (f a) (g b)) : Agrees T (x >>= f) (y >>= g) := by
  cases h with
  | ok related => exact next _ _ related
  | error e => exact .error e

theorem Agrees.imp (h : Agrees R x y) (weaken : ∀ a b, R a b → S a b) : Agrees S x y := by
  cases h with
  | ok related => exact .ok (weaken _ _ related)
  | error e => exact .error e

/-- A computation agrees with itself. -/
theorem agrees_refl {R : α → α → Prop} (refl : ∀ a, R a a) (x : Except ε α) : Agrees R x x := by
  cases x with
  | ok a => exact .ok (refl a)
  | error e => exact .error e

/-- One computation is the other with its result changed. -/
theorem Agrees.eq_map {f : α → β} (h : Agrees (fun a b => b = f a) x y) : y = x.map f := by
  cases h with
  | ok related => rw [related]; rfl
  | error e => rfl

end Agrees

namespace Reader

variable {r r' : Reader} {t : Token} {R : Reader → Reader → Prop}

/-- Outside of all brackets a closing one is refused, whatever else has been read. -/
theorem step_closing (ht : t.role = .closing) : ∃ c, t.isDelimiter c = true ∧
    ∀ r : Reader, r.brackets = [] → r.step t = .error ⟨.unexpectedClosing c, t.position⟩ := by
  rcases (Token.role_eq_iff t).2.1.mp ht with closing | closing
  · refine ⟨')', closing, ?_⟩
    intro r outside
    have kind : t.kind = .delimiter ')' := by simpa [Token.isDelimiter] using closing
    simp [step, kind, outside]
  · refine ⟨']', closing, ?_⟩
    intro r outside
    have kind : t.kind = .delimiter ']' := by simpa [Token.isDelimiter] using closing
    simp [step, kind, outside]

/-- Readers with the same open brackets agree on a token, if they agree on what it may end. -/
theorem step_agrees (brackets : r'.brackets = r.brackets)
    (kept : ∀ bs, R { r with brackets := bs, statement := t :: r.statement }
      { r' with brackets := bs, statement := t :: r'.statement })
    (ended : Agrees R r.endStatement r'.endStatement)
    (opened : ∀ p, Agrees R (r.openBlock p) (r'.openBlock p))
    (closed : ∀ r₁ r₁' p, R r₁ r₁' → Agrees R (r₁.closeBlock p) (r₁'.closeBlock p)) :
    Agrees R (r.step t) (r'.step t) := by
  have stepped := step_of_role r t
  have stepped' := step_of_role r' t
  rw [brackets] at stepped'
  have keeps {bs : List Position}
      (eq : r.step t = .ok { r with brackets := bs, statement := t :: r.statement })
      (eq' : r'.step t = .ok { r' with brackets := bs, statement := t :: r'.statement }) :
      Agrees R (r.step t) (r'.step t) := by
    rw [eq, eq']
    exact .ok (kept bs)
  cases outside : r.brackets with
  | nil =>
    cases part : t.role <;> simp only [part, outside] at stepped stepped'
    case opening => exact keeps stepped stepped'
    case plain => exact keeps stepped stepped'
    case closing =>
      obtain ⟨c, -, refused⟩ := step_closing part
      rw [refused r outside, refused r' (brackets.trans outside)]
      exact .error _
    case semicolon =>
      rw [stepped, stepped']
      exact ended
    case openBrace =>
      rw [stepped, stepped']
      exact opened t.position
    case closeBrace =>
      rw [stepped, stepped']
      apply ended.bind
      intro r₁ r₁' related
      exact closed r₁ r₁' t.position related
  | cons b bs =>
    cases part : t.role <;> simp only [part, outside] at stepped stepped'
    all_goals exact keeps stepped stepped'

/-- A run agrees if every step of it does. -/
theorem read_agrees (step : ∀ r r' t, R r r' → Agrees R (r.step t) (r'.step t)) (ts : List Token)
    (related : R r r') : Agrees R (r.read ts) (r'.read ts) := by
  induction ts generalizing r r' with
  | nil => exact .ok related
  | cons t ts ih =>
    rw [read_cons, read_cons]
    apply (step r r' t related).bind
    intro r₁ r₁' related
    exact ih related

/-- The style sheets at the end agree, if the readers agree on the last statement and have the same
    blocks open. -/
theorem finish_agrees {S : Node → Node → Prop} (brackets : r'.brackets = r.brackets)
    (ended : Agrees R r.endStatement r'.endStatement)
    (blocks : ∀ last last', R last last' →
      last'.blocks.map (·.brace) = last.blocks.map (·.brace))
    (done : ∀ last last', R last last' → last.blocks = [] →
      S (.branch .stylesheet .start last.done.reverse)
        (.branch .stylesheet .start last'.done.reverse)) :
    Agrees S r.finish r'.finish := by
  unfold finish
  rw [brackets]
  cases r.brackets with
  | cons p ps => exact .error _
  | nil =>
    apply ended.bind
    intro last last' related
    have braces := blocks last last' related
    have made := done last last' related
    cases open' : last.blocks with
    | nil =>
      rw [open', List.map_nil, List.map_eq_nil_iff] at braces
      rw [braces]
      exact .ok (made open')
    | cons b bs =>
      rw [open', List.map_cons] at braces
      obtain ⟨b', bs', inside, same, -⟩ := List.map_eq_cons_iff.mp braces
      rw [inside]
      dsimp only
      rw [same]
      exact .error _

end Reader

end SheetLint
