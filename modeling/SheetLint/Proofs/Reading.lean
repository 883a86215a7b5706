import SheetLint.Proofs.Pairing
import SheetLint.Stylesheet.Reader
import Mathlib.Data.List.DropRight

/-!
# Steps of the reader

What one token does to the reader, said once: a token is kept in the statement, or it ends the
statement, opens a block or closes one (`Reader.step_cases`). What every step keeps is kept by a
whole run (`Reader.read_invariant`), and what holds of a statement whenever it holds of the
statements in its block holds of all statements of a style sheet (`Stylesheet.forall_statement`).
-/

namespace SheetLint

/-- The parts that a token can play in the division of a style sheet into statements. -/
inductive Token.Role where
  | opening
  | closing
  | semicolon
  | openBrace
  | closeBrace
  | plain
  deriving DecidableEq

namespace Token

/-- The part that a token plays. -/
def role (t : Token) : Role :=
  match t.kind with
  | .delimiter '(' | .delimiter '[' => .opening
  | .delimiter ')' | .delimiter ']' => .closing
  | .delimiter ';' => .semicolon
  | .delimiter '\x7b' => .openBrace
  | .delimiter '\x7d' => .closeBrace
  | _ => .plain

variable {t : Token}

/-- The delimiters that play each part. -/
theorem role_eq_iff (t : Token) :
    (t.role = .opening ↔ t.isDelimiter '(' = true ∨ t.isDelimiter '[' = true) ∧
    (t.role = .closing ↔ t.isDelimiter ')' = true ∨ t.isDelimiter ']' = true) ∧
    (t.role = .semicolon ↔ t.isDelimiter ';' = true) ∧
    (t.role = .openBrace ↔ t.isDelimiter '\x7b' = true) ∧
    (t.role = .closeBrace ↔ t.isDelimiter '\x7d' = true) := by
  unfold role
  split <;> simp_all [isDelimiter]

theorem opens_any_eq : Bracket.any.opens t = decide (t.role = .opening) := by
  simp [Bracket.opens, Bracket.any, (role_eq_iff t).1]

theorem closes_any_eq : Bracket.any.closes t = decide (t.role = .closing) := by
  simp [Bracket.closes, Bracket.any, (role_eq_iff t).2.1]

theorem isDelimiter_semicolon_eq : t.isDelimiter ';' = decide (t.role = .semicolon) := by
  simp [(role_eq_iff t).2.2.1]

theorem isDelimiter_openBrace_eq : t.isDelimiter '\x7b' = decide (t.role = .openBrace) := by
  simp [(role_eq_iff t).2.2.2.1]

theorem isDelimiter_closeBrace_eq : t.isDelimiter '\x7d' = decide (t.role = .closeBrace) := by
  simp [(role_eq_iff t).2.2.2.2]

/-- A token that ends what stands before it, unless it stands inside of brackets. -/
def cuts (t : Token) : Bool :=
  t.isDelimiter '\x7b' || t.isDelimiter '\x7d' || t.isDelimiter ';'

theorem cuts_eq_false_iff :
    t.cuts = false ↔ t.role = .opening ∨ t.role = .closing ∨ t.role = .plain := by
  simp only [cuts, isDelimiter_openBrace_eq, isDelimiter_closeBrace_eq, isDelimiter_semicolon_eq]
  cases t.role <;> decide

theorem depth_any_opening (ht : t.role = .opening) : Bracket.any.depth [t] = 1 :=
  Bracket.depth_of_opens (by simp [opens_any_eq, ht]) (by simp [closes_any_eq, ht])

theorem depth_any_closing (ht : t.role = .closing) : Bracket.any.depth [t] = -1 :=
  Bracket.depth_of_closes (by simp [opens_any_eq, ht]) (by simp [closes_any_eq, ht])

theorem depth_any_other (ho : t.role ≠ .opening) (hc : t.role ≠ .closing) :
    Bracket.any.depth [t] = 0 :=
  Bracket.depth_of_other (by simp [opens_any_eq, ho]) (by simp [closes_any_eq, hc])

/-- Braces and semicolons are no brackets. -/
theorem depth_of_cuts (cuts : t.cuts = true) : Bracket.any.depth [t] = 0 := by
  apply depth_any_other
  · intro opening
    rw [cuts_eq_false_iff.mpr (.inl opening)] at cuts
    cases cuts
  · intro closing
    rw [cuts_eq_false_iff.mpr (.inr (.inl closing))] at cuts
    cases cuts

theorem opens_brace_eq : Bracket.brace.opens t = decide (t.role = .openBrace) := by
  simp [Bracket.opens, Bracket.brace, isDelimiter_openBrace_eq]

theorem closes_brace_eq : Bracket.brace.closes t = decide (t.role = .closeBrace) := by
  simp [Bracket.closes, Bracket.brace, isDelimiter_closeBrace_eq]

theorem depth_brace_openBrace (ht : t.role = .openBrace) : Bracket.brace.depth [t] = 1 :=
  Bracket.depth_of_opens (by simp [opens_brace_eq, ht]) (by simp [closes_brace_eq, ht])

theorem depth_brace_closeBrace (ht : t.role = .closeBrace) : Bracket.brace.depth [t] = -1 :=
  Bracket.depth_of_closes (by simp [opens_brace_eq, ht]) (by simp [closes_brace_eq, ht])

theorem depth_brace_other (ho : t.role ≠ .openBrace) (hc : t.role ≠ .closeBrace) :
    Bracket.brace.depth [t] = 0 :=
  Bracket.depth_of_other (by simp [opens_brace_eq, ho]) (by simp [closes_brace_eq, hc])

/-- Whitespace and comments are no delimiters. -/
theorem isDelimiter_of_isTrivia (ht : t.isTrivia = true) (c : Char) : t.isDelimiter c = false := by
  simp only [isTrivia, Bool.or_eq_true, beq_iff_eq] at ht
  rcases ht with ht | ht <;> simp [isDelimiter, ht]

/-- Trivia are no brackets of any kind. -/
theorem depth_of_isTrivia (b : Bracket) (ht : t.isTrivia = true) : b.depth [t] = 0 :=
  Bracket.depth_of_other (by simp [Bracket.opens, isDelimiter_of_isTrivia ht])
    (by simp [Bracket.closes, isDelimiter_of_isTrivia ht])

/-- Trimming takes away the trivia in front, and trivia behind. -/
theorem exists_trim_takeWhile (ts : List Token) :
    ∃ trail, ts = ts.takeWhile isTrivia ++ (trim ts ++ trail) ∧ ∀ t ∈ trail, t.isTrivia = true := by
  refine ⟨(ts.dropWhile isTrivia).rtakeWhile isTrivia, ?_, fun t => List.mem_rtakeWhile_imp⟩
  have behind : trim ts ++ (ts.dropWhile isTrivia).rtakeWhile isTrivia = ts.dropWhile isTrivia :=
    List.rdropWhile_append_rtakeWhile
  rw [behind, List.takeWhile_append_dropWhile]

/-- Trimming takes trivia away at the ends and nothing else. -/
theorem exists_trim (ts : List Token) : ∃ lead trail, ts = lead ++ (trim ts ++ trail) ∧
    (∀ t ∈ lead, t.isTrivia = true) ∧ ∀ t ∈ trail, t.isTrivia = true := by
  obtain ⟨trail, split, htrail⟩ := exists_trim_takeWhile ts
  exact ⟨ts.takeWhile isTrivia, trail, split, fun t => List.mem_takeWhile_imp, htrail⟩

theorem isInfix_trim (ts : List Token) : trim ts <:+: ts := by
  obtain ⟨lead, trail, split, -, -⟩ := exists_trim ts
  refine ⟨lead, trail, ?_⟩
  rw [List.append_assoc]
  exact split.symm

/-- The tokens that are no trivia are the same before and after trimming. -/
theorem filter_trim (ts : List Token) :
    (trim ts).filter (!·.isTrivia) = ts.filter (!·.isTrivia) := by
  have none {us : List Token} (h : ∀ t ∈ us, t.isTrivia = true) :
      us.filter (!·.isTrivia) = [] := by
    simpa [List.filter_eq_nil_iff] using h
  obtain ⟨lead, trail, split, hlead, htrail⟩ := exists_trim ts
  conv_rhs => rw [split, List.filter_append, List.filter_append, none hlead, none htrail]
  simp

/-- Nothing is left of a stretch exactly if it consists of trivia. -/
theorem trim_eq_nil_iff {ts : List Token} : trim ts = [] ↔ ∀ t ∈ ts, t.isTrivia = true := by
  constructor
  · intro h
    obtain ⟨lead, trail, split, hlead, htrail⟩ := exists_trim ts
    rw [split, h]
    intro t ht
    rcases List.mem_append.mp ht with ht | ht
    · exact hlead t ht
    · exact htrail t (by simpa using ht)
  · intro h
    have : ts.dropWhile isTrivia = [] := List.dropWhile_eq_nil_iff.mpr h
    simp [trim, this]

/-- Trimmed tokens begin with one that is no trivia. -/
theorem isTrivia_of_trim_eq_cons {ts rest : List Token} {first : Token}
    (h : trim ts = first :: rest) : first.isTrivia = false := by
  have front : first :: rest <+: ts.dropWhile isTrivia :=
    h ▸ List.rdropWhile_prefix isTrivia (ts.dropWhile isTrivia)
  obtain ⟨more, split⟩ := front
  have := List.head?_dropWhile_not isTrivia ts
  simpa [← split] using this

/-- Trimmed tokens end with one that is no trivia. -/
theorem isTrivia_of_trim_eq_concat {ts us : List Token} {last : Token}
    (h : trim ts = us ++ [last]) : last.isTrivia = false := by
  have trimmed : (ts.dropWhile isTrivia).rdropWhile isTrivia = us ++ [last] := h
  have some : (ts.dropWhile isTrivia).rdropWhile isTrivia ≠ [] := by simp [trimmed]
  have ends := List.rdropWhile_last_not isTrivia (ts.dropWhile isTrivia) some
  simpa [trimmed] using ends

theorem forall_mem_trim {P : Token → Prop} {ts : List Token} (h : ∀ t ∈ ts, P t) :
    ∀ t ∈ trim ts, P t := by
  obtain ⟨lead, trail, split, -, -⟩ := exists_trim ts
  intro t ht
  refine h t ?_
  rw [split]
  exact List.mem_append_right _ (List.mem_append_left _ ht)

/-- The first token of trimmed tokens is the first that is no trivia. -/
theorem find?_of_trim_eq_cons {ts rest : List Token} {first : Token} (h : trim ts = first :: rest) :
    ts.find? (!·.isTrivia) = some first := by
  rw [← List.head?_filter, ← filter_trim, h,
    List.filter_cons_of_pos (by simp [isTrivia_of_trim_eq_cons h]), List.head?_cons]

end Token

namespace Bracket

variable {b : Bracket} {limit : Nat} {d : Int} {ts us : List Token}

/-- Balance depends only on the tokens that are no trivia. -/
theorem balancedFrom_congr_trivia (h : ts.filter (!·.isTrivia) = us.filter (!·.isTrivia)) :
    b.BalancedFrom d ts ↔ b.BalancedFrom d us := by
  have neutral (t : Token) (ht : (!t.isTrivia) = false) : b.depth [t] = 0 :=
    Token.depth_of_isTrivia b (by simpa using ht)
  rw [← balancedFrom_filter neutral, h, balancedFrom_filter neutral]

/-- The depth of brackets depends only on the tokens that are no trivia. -/
theorem depthAtMostFrom_congr_trivia (h : ts.filter (!·.isTrivia) = us.filter (!·.isTrivia)) :
    b.DepthAtMostFrom limit d ts ↔ b.DepthAtMostFrom limit d us := by
  have neutral (t : Token) (ht : (!t.isTrivia) = false) : b.depth [t] = 0 :=
    Token.depth_of_isTrivia b (by simpa using ht)
  rw [← depthAtMostFrom_filter neutral, h, depthAtMostFrom_filter neutral]

end Bracket

namespace Reader

variable {r r' : Reader} {t : Token}

/-- A step by the part of the token and the brackets that are open. -/
theorem step_of_role (r : Reader) (t : Token) :
    match t.role, r.brackets with
    | .opening, bs =>
      r.step t = .ok { r with brackets := t.position :: bs, statement := t :: r.statement }
    | .closing, [] => ∃ e, r.step t = .error e
    | .closing, _ :: bs => r.step t = .ok { r with brackets := bs, statement := t :: r.statement }
    | .semicolon, [] => r.step t = r.endStatement
    | .openBrace, [] => r.step t = r.openBlock t.position
    | .closeBrace, [] => r.step t = (do let r ← r.endStatement; r.closeBlock t.position)
    | _, _ => r.step t = .ok { r with statement := t :: r.statement } := by
  generalize part : t.role = role
  unfold Token.role at part
  split at part <;> subst part <;> cases brackets : r.brackets <;> simp_all [step]

/-- What a token makes the reader do. -/
inductive Move (r : Reader) (t : Token) : Prop
  | keep (brackets : List Position)
      (count : (brackets.length : Int) = r.brackets.length + Bracket.any.depth [t])
      (inside : t.cuts = true → r.brackets ≠ [])
      (eq : r.step t = .ok { r with brackets := brackets, statement := t :: r.statement })
  | refuse (e : SyntaxError) (outside : r.brackets = []) (ht : t.role = .closing)
      (eq : r.step t = .error e)
  | semicolon (outside : r.brackets = []) (ht : t.role = .semicolon)
      (eq : r.step t = r.endStatement)
  | openBlock (outside : r.brackets = []) (ht : t.role = .openBrace)
      (eq : r.step t = r.openBlock t.position)
  | closeBlock (outside : r.brackets = []) (ht : t.role = .closeBrace)
      (eq : r.step t = (do let r ← r.endStatement; r.closeBlock t.position))

/-- Every token is met by one of the moves. -/
theorem move (r : Reader) (t : Token) : Move r t := by
  have stepped := step_of_role r t
  have kept {p : Position} {ps : List Position} (hb : r.brackets = p :: ps)
      (ho : t.role ≠ .opening) (hc : t.role ≠ .closing)
      (eq : r.step t = .ok { r with brackets := p :: ps, statement := t :: r.statement }) :
      Move r t :=
    .keep (p :: ps) (by rw [hb, Token.depth_any_other ho hc, add_zero]) (by simp [hb]) eq
  cases ht : t.role with
  | opening =>
    simp only [ht] at stepped
    exact .keep _ (by simp [Token.depth_any_opening ht])
      (by simp [Token.cuts_eq_false_iff.mpr (.inl ht)]) stepped
  | plain =>
    simp only [ht] at stepped
    exact .keep _ (by simp [Token.depth_any_other, ht])
      (by simp [Token.cuts_eq_false_iff.mpr (.inr (.inr ht))]) stepped
  | closing =>
    cases hb : r.brackets with
    | nil =>
      simp only [ht, hb] at stepped
      obtain ⟨e, failed⟩ := stepped
      exact .refuse e hb ht failed
    | cons p ps =>
      simp only [ht, hb] at stepped
      exact .keep _ (by simp [Token.depth_any_closing ht, hb])
        (by simp [Token.cuts_eq_false_iff.mpr (.inr (.inl ht))]) stepped
  | semicolon =>
    cases hb : r.brackets <;> simp only [ht, hb] at stepped
    · exact .semicolon hb ht stepped
    · exact kept hb (by simp [ht]) (by simp [ht]) stepped
  | openBrace =>
    cases hb : r.brackets <;> simp only [ht, hb] at stepped
    · exact .openBlock hb ht stepped
    · exact kept hb (by simp [ht]) (by simp [ht]) stepped
  | closeBrace =>
    cases hb : r.brackets <;> simp only [ht, hb] at stepped
    · exact .closeBlock hb ht stepped
    · exact kept hb (by simp [ht]) (by simp [ht]) stepped

/-! ### What a step can do -/

/-- Ending a statement adds its node, or nothing if there is no statement. -/
theorem endStatement_eq_ok : r.endStatement = .ok r' ↔
    (Token.trim r.statement.reverse = [] ∧ r' = { r with statement := [] }) ∨
    ∃ first rest node, Token.trim r.statement.reverse = first :: rest ∧
      Statement.withoutBlock first rest = .ok node ∧
      r' = { r with statement := [], done := node :: r.done } := by
  unfold endStatement
  cases trimmed : Token.trim r.statement.reverse with
  | nil => simp [eq_comm]
  | cons first rest => simp [bind_eq_ok, pure, Except.pure, @eq_comm _ r']

/-- Ending a statement changes neither brackets nor blocks. -/
theorem endStatement_frame (h : r.endStatement = .ok r') :
    r'.statement = [] ∧ r'.brackets = r.brackets ∧ r'.blocks = r.blocks := by
  rcases endStatement_eq_ok.mp h with ⟨-, rfl⟩ | ⟨_, _, _, -, -, rfl⟩
  · exact ⟨rfl, rfl, rfl⟩
  · exact ⟨rfl, rfl, rfl⟩

theorem openBlock_eq_ok {p : Position} : r.openBlock p = .ok r' ↔
    ∃ first rest, Token.trim r.statement.reverse = first :: rest ∧ r.blocks.length < maxNesting ∧
      r' = ⟨[], [], [], ⟨p, first, rest, r.done⟩ :: r.blocks⟩ := by
  unfold openBlock
  cases trimmed : Token.trim r.statement.reverse with
  | nil => simp
  | cons first rest =>
    by_cases deep : maxNesting ≤ r.blocks.length
    · simp [deep]
    · simp [deep, Nat.lt_of_not_le deep, eq_comm]

theorem closeBlock_eq_ok {p : Position} : r.closeBlock p = .ok r' ↔
    ∃ b blocks node, r.blocks = b :: blocks ∧
      Statement.withBlock b.first b.rest (.branch .block b.brace r.done.reverse) = .ok node ∧
      r' = ⟨[], [], node :: b.before, blocks⟩ := by
  unfold closeBlock
  cases r.blocks with
  | nil => simp
  | cons b blocks => simp [bind_eq_ok, pure, Except.pure, @eq_comm _ r']

/-- The reader finishes outside of all brackets and blocks, and its last statement is ended first.
    -/
theorem finish_eq_ok {root : Node} : r.finish = .ok root ↔
    r.brackets = [] ∧ ∃ last, r.endStatement = .ok last ∧ last.blocks = [] ∧
      root = .branch .stylesheet .start last.done.reverse := by
  unfold finish
  cases r.brackets with
  | cons p ps => simp
  | nil =>
    simp only [bind_eq_ok, true_and]
    refine exists_congr fun last => and_congr_right fun _ => ?_
    cases last.blocks with
    | nil => simp [pure, Except.pure, eq_comm]
    | cons b blocks => simp [throw, throwThe, MonadExceptOf.throw]

/-- What a token can do to the reader: it is kept in the statement, or it ends the statement, and
    perhaps opens or closes a block. -/
inductive Step (r : Reader) (t : Token) : Reader → Prop
  | keep (brackets : List Position)
      (count : (brackets.length : Int) = r.brackets.length + Bracket.any.depth [t])
      (inside : t.cuts = true → r.brackets ≠ []) :
      Step r t { r with brackets := brackets, statement := t :: r.statement }
  | semicolon {r' : Reader} (outside : r.brackets = []) (ht : t.role = .semicolon)
      (ended : r.endStatement = .ok r') : Step r t r'
  | openBlock {r' : Reader} (outside : r.brackets = []) (ht : t.role = .openBrace)
      (opened : r.openBlock t.position = .ok r') : Step r t r'
  | closeBlock {r₁ r' : Reader} (outside : r.brackets = []) (ht : t.role = .closeBrace)
      (ended : r.endStatement = .ok r₁) (closed : r₁.closeBlock t.position = .ok r') : Step r t r'

/-- A step that succeeds is one of the steps that are told apart by the role of the token. -/
theorem step_cases (h : r.step t = .ok r') : Step r t r' := by
  cases move r t with
  | keep brackets count inside eq =>
    rw [eq] at h
    cases h
    exact .keep brackets count inside
  | refuse e _ _ eq =>
    rw [eq] at h
    cases h
  | semicolon outside ht eq => exact .semicolon outside ht (eq ▸ h)
  | openBlock outside ht eq => exact .openBlock outside ht (eq ▸ h)
  | closeBlock outside ht eq =>
    rw [eq, bind_eq_ok] at h
    obtain ⟨r₁, ended, closed⟩ := h
    exact .closeBlock outside ht ended closed

/-- The reader counts round and square brackets alike. -/
theorem Step.count (h : Step r t r') :
    (r'.brackets.length : Int) = r.brackets.length + Bracket.any.depth [t] := by
  cases h with
  | keep _ count _ => exact count
  | semicolon _ ht ended =>
    rw [(endStatement_frame ended).2.1, Token.depth_any_other (by simp [ht]) (by simp [ht]),
      add_zero]
  | openBlock outside ht opened =>
    obtain ⟨_, _, -, -, rfl⟩ := openBlock_eq_ok.mp opened
    rw [outside, Token.depth_any_other (by simp [ht]) (by simp [ht]), add_zero]
  | closeBlock outside ht _ closed =>
    obtain ⟨_, _, _, -, -, rfl⟩ := closeBlock_eq_ok.mp closed
    rw [outside, Token.depth_any_other (by simp [ht]) (by simp [ht]), add_zero]

/-- All tokens that the reader keeps satisfy `P`, and no head of a block starts with trivia. -/
structure Keeps (P : Token → Prop) (r : Reader) : Prop where
  statement : ∀ t ∈ r.statement, P t
  heads : ∀ b ∈ r.blocks, ∀ t ∈ b.first :: b.rest, P t
  starts : ∀ b ∈ r.blocks, b.first.isTrivia = false

theorem keeps_initial {P : Token → Prop} : Keeps P initial :=
  ⟨by simp [initial], by simp [initial], by simp [initial]⟩

/-- The tokens of the statement, without trivia at the ends. -/
theorem Keeps.trimmed {P : Token → Prop} {first : Token} {rest : List Token} (keeps : Keeps P r)
    (h : Token.trim r.statement.reverse = first :: rest) : ∀ t ∈ first :: rest, P t :=
  h ▸ Token.forall_mem_trim fun t ht => keeps.statement t (List.mem_reverse.mp ht)

theorem Keeps.ended {P : Token → Prop} (keeps : Keeps P r) (h : r.endStatement = .ok r') :
    Keeps P r' := by
  obtain ⟨statement, -, blocks⟩ := endStatement_frame h
  exact ⟨by simp [statement], blocks ▸ keeps.heads, blocks ▸ keeps.starts⟩

/-- A step keeps no token but those that were kept and the new one. -/
theorem Keeps.step {P : Token → Prop} (keeps : Keeps P r) (ht : P t) (h : Step r t r') :
    Keeps P r' := by
  cases h with
  | keep => exact ⟨List.forall_mem_cons.mpr ⟨ht, keeps.statement⟩, keeps.heads, keeps.starts⟩
  | semicolon _ _ ended => exact keeps.ended ended
  | openBlock _ _ opened =>
    obtain ⟨first, rest, trimmed, -, rfl⟩ := openBlock_eq_ok.mp opened
    exact ⟨by simp, List.forall_mem_cons.mpr ⟨keeps.trimmed trimmed, keeps.heads⟩,
      List.forall_mem_cons.mpr ⟨Token.isTrivia_of_trim_eq_cons trimmed, keeps.starts⟩⟩
  | closeBlock _ _ ended closed =>
    obtain ⟨b, outer, node, inside, -, rfl⟩ := closeBlock_eq_ok.mp closed
    obtain ⟨-, heads, starts⟩ := keeps.ended ended
    rw [inside] at heads starts
    exact ⟨by simp, (List.forall_mem_cons.mp heads).2, (List.forall_mem_cons.mp starts).2⟩

/-! ### Whole runs -/

theorem read_cons {ts : List Token} :
    r.read (t :: ts) = (do let r ← r.step t; r.read ts) := by
  simp [read]

/-- What holds at the start and is kept by every step that succeeds holds after a run, of the tokens
    read and the reader they have led to. -/
theorem read_induction {P : List Token → Reader → Prop} {ts : List Token}
    (start : P [] initial)
    (kept : ∀ us t r₁ r₂, t ∈ ts → P us r₁ → r₁.step t = .ok r₂ → P (us ++ [t]) r₂)
    (h : initial.read ts = .ok r) : P ts r := by
  -- the induction is on what is still to be read, from any reader
  suffices general : ∀ us r₁, P us r₁ → r₁.read ts = .ok r → P (us ++ ts) r by
    simpa using general [] initial start h
  clear h start
  induction ts with
  | nil =>
    rintro us r₁ holds ⟨⟩
    simpa using holds
  | cons t ts ih =>
    intro us r₁ holds h
    rw [read_cons, bind_eq_ok] at h
    obtain ⟨r₂, first, rest⟩ := h
    have after := kept us t r₁ r₂ List.mem_cons_self holds first
    have keptLater us t r₁ r₂ (ht : t ∈ ts) := kept us t r₁ r₂ (List.mem_cons_of_mem _ ht)
    simpa using ih keptLater (us ++ [t]) r₂ after rest

/-- What holds at the start and is kept by all that a step can do holds after a run. -/
theorem read_invariant {P : List Token → Reader → Prop} {ts : List Token}
    (start : P [] initial)
    (kept : ∀ us t r₁ r₂, t ∈ ts → P us r₁ → Step r₁ t r₂ → P (us ++ [t]) r₂)
    (h : initial.read ts = .ok r) : P ts r :=
  read_induction start
    (fun us t r₁ r₂ member holds step => kept us t r₁ r₂ member holds (step_cases step)) h

/-- The block was opened in the tokens `us`: its head stands in front of its brace. -/
def OpenedIn (us : List Token) (b : OpenBlock) : Prop :=
  ∃ head brace, head ++ [brace] <:+: us ∧ brace.isDelimiter '\x7b' = true ∧
    b.brace = brace.position ∧ Token.trim head = b.first :: b.rest

/-- A statement that is made from a stretch of the tokens `ts` satisfies `Q`, if the statements of
    its block do. -/
structure MakesFrom (ts : List Token) (Q : Node → Prop) : Prop where
  plain : ∀ us first rest node, us <:+: ts → Token.trim us = first :: rest →
    Statement.withoutBlock first rest = .ok node → Q node
  block : ∀ us brace first rest body node, us ++ [brace] <:+: ts →
    brace.isDelimiter '\x7b' = true → Token.trim us = first :: rest → (∀ n ∈ body, Q n) →
    Statement.withBlock first rest (.branch .block brace.position body) = .ok node → Q node

/-- A statement that is made from tokens with `P` satisfies `Q`, if the statements of its block
    do. -/
structure Makes (P : Token → Prop) (Q : Node → Prop) : Prop where
  plain : ∀ first rest node, first.isTrivia = false → (∀ t ∈ first :: rest, P t) →
    Statement.withoutBlock first rest = .ok node → Q node
  block : ∀ first rest brace body node, first.isTrivia = false → (∀ t ∈ first :: rest, P t) →
    (∀ n ∈ body, Q n) → Statement.withBlock first rest (.branch .block brace body) = .ok node → Q node

section Builds

variable {us ts : List Token} {P : Token → Prop} {Q : Node → Prop}

theorem Makes.makesFrom (makes : Makes P Q) (tokens : ∀ t ∈ ts, P t) : MakesFrom ts Q where
  plain us first rest node part trimmed read := by
    have kept : ∀ t ∈ us, P t := fun t ht => tokens t (part.subset ht)
    exact makes.plain first rest node (Token.isTrivia_of_trim_eq_cons trimmed)
      (trimmed ▸ Token.forall_mem_trim kept) read
  block us brace first rest body node part _ trimmed inside read := by
    have kept : ∀ t ∈ us, P t := fun t ht => tokens t (part.subset (List.mem_append_left _ ht))
    exact makes.block first rest brace.position body node (Token.isTrivia_of_trim_eq_cons trimmed)
      (trimmed ▸ Token.forall_mem_trim kept) inside read

theorem OpenedIn.concat {b : OpenBlock} (h : OpenedIn us b) (t : Token) :
    OpenedIn (us ++ [t]) b := by
  obtain ⟨head, brace, part, opens, place, trimmed⟩ := h
  exact ⟨head, brace, part.trans (List.prefix_append us [t]).isInfix, opens, place, trimmed⟩

/-- After the tokens `us` the statement is the last stretch of them, the head of each open block is
    a stretch of them too, and all statements that have been made satisfy `Q`. -/
structure Builds (us : List Token) (Q : Node → Prop) (r : Reader) : Prop where
  statement : r.statement.reverse <:+ us
  heads : ∀ b ∈ r.blocks, OpenedIn us b
  done : ∀ n ∈ r.done, Q n
  before : ∀ b ∈ r.blocks, ∀ n ∈ b.before, Q n

theorem builds_initial : Builds [] Q initial :=
  ⟨List.suffix_refl _, by simp [initial], by simp [initial], by simp [initial]⟩

theorem Builds.ended (builds : Builds us Q r) (makes : MakesFrom ts Q) (read : us <+: ts)
    (h : r.endStatement = .ok r') : Builds us Q r' := by
  rcases endStatement_eq_ok.mp h with ⟨-, rfl⟩ | ⟨first, rest, node, trimmed, made, rfl⟩
  · exact ⟨List.nil_suffix, builds.heads, builds.done, builds.before⟩
  · have part : r.statement.reverse <:+: ts := builds.statement.isInfix.trans read.isInfix
    have holds : Q node := makes.plain _ first rest node part trimmed made
    exact ⟨List.nil_suffix, builds.heads, List.forall_mem_cons.mpr ⟨holds, builds.done⟩,
      builds.before⟩

/-- A step builds new nodes from tokens that have been read. -/
theorem Builds.step (builds : Builds us Q r) (makes : MakesFrom ts Q) (read : us ++ [t] <+: ts)
    (h : Step r t r') : Builds (us ++ [t]) Q r' := by
  have readBefore : us <+: ts := (List.prefix_append us [t]).trans read
  have heads : ∀ b ∈ r.blocks, OpenedIn (us ++ [t]) b := fun b hb => (builds.heads b hb).concat t
  have endsHere {r₁ : Reader} (ended : r.endStatement = .ok r₁) : Builds (us ++ [t]) Q r₁ := by
    obtain ⟨statement, -, blocks⟩ := endStatement_frame ended
    have after := builds.ended makes readBefore ended
    exact ⟨by simp [statement], blocks ▸ heads, after.done, after.before⟩
  cases h with
  | keep =>
    obtain ⟨front, split⟩ := builds.statement
    have suffix : (t :: r.statement).reverse <:+ us ++ [t] := ⟨front, by simp [← split]⟩
    exact ⟨suffix, heads, builds.done, builds.before⟩
  | semicolon _ _ ended => exact endsHere ended
  | openBlock _ ht opened =>
    obtain ⟨first, rest, trimmed, -, rfl⟩ := openBlock_eq_ok.mp opened
    obtain ⟨front, split⟩ := builds.statement
    have head : OpenedIn (us ++ [t]) ⟨t.position, first, rest, r.done⟩ := by
      refine ⟨r.statement.reverse, t, ⟨front, [], by simp [← split]⟩, ?_, rfl, trimmed⟩
      simp [Token.isDelimiter_openBrace_eq, ht]
    exact ⟨List.nil_suffix, List.forall_mem_cons.mpr ⟨head, heads⟩, by simp,
      List.forall_mem_cons.mpr ⟨builds.done, builds.before⟩⟩
  | @closeBlock r₁ _ _ _ ended closed =>
    obtain ⟨b, outer, node, inside, made, rfl⟩ := closeBlock_eq_ok.mp closed
    obtain ⟨-, heads, done, before⟩ := endsHere ended
    rw [inside] at heads before
    obtain ⟨⟨head, brace, part, opens, place, trimmed⟩, heads⟩ := List.forall_mem_cons.mp heads
    obtain ⟨beside, before⟩ := List.forall_mem_cons.mp before
    have body : ∀ n ∈ r₁.done.reverse, Q n := by simpa using done
    rw [place] at made
    have holds : Q node := makes.block head brace b.first b.rest _ node
      (part.trans read.isInfix) opens trimmed body made
    exact ⟨List.nil_suffix, heads, List.forall_mem_cons.mpr ⟨holds, beside⟩, before⟩

end Builds

end Reader

/-- What every statement satisfies that is made from a stretch of tokens, if the statements in its
    block do, holds of the statements of a style sheet. -/
theorem Stylesheet.forall_statement_of_stretch {Q : Node → Prop} {ts : List Token} {root : Node}
    (makes : Reader.MakesFrom ts Q) (h : Stylesheet.ofTokens ts = .ok root) :
    ∃ body, root = .branch .stylesheet .start body ∧ ∀ n ∈ body, Q n := by
  obtain ⟨r, read, finished⟩ := bind_eq_ok.mp h
  have builds : ts <+: ts → r.Builds ts Q := by
    refine @Reader.read_invariant r (fun us r => us <+: ts → r.Builds us Q) ts
      (fun _ => Reader.builds_initial) ?_ read
    intro us t r₁ r₂ _ before step part
    exact (before ((List.prefix_append us [t]).trans part)).step makes part step
  obtain ⟨-, last, ended, -, rfl⟩ := Reader.finish_eq_ok.mp finished
  refine ⟨last.done.reverse, rfl, ?_⟩
  intro n hn
  have whole : ts <+: ts := List.prefix_refl ts
  exact ((builds whole).ended makes whole ended).done n (List.mem_reverse.mp hn)

/-- What every statement satisfies if the statements in its block do holds of the statements of a
    style sheet. -/
theorem Stylesheet.forall_statement {P : Token → Prop} {Q : Node → Prop} {ts : List Token}
    {root : Node} (makes : Reader.Makes P Q) (tokens : ∀ t ∈ ts, P t)
    (h : Stylesheet.ofTokens ts = .ok root) :
    ∃ body, root = .branch .stylesheet .start body ∧ ∀ n ∈ body, Q n :=
  forall_statement_of_stretch (makes.makesFrom tokens) h

end SheetLint
