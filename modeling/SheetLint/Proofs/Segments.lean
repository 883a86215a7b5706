import SheetLint.Proofs.Reading

/-!
# Segments of a style sheet

Braces and semicolons outside of all brackets cut the tokens of a style sheet into segments. Whether
tokens form a style sheet is said here in terms of brackets, braces and single segments
(`Stylesheet.WellFormed`), without reading them.
-/

namespace SheetLint

/-- A token with the number of round and square brackets that are open in front of it. -/
structure Token.Placed where
  token : Token
  depth : Int

namespace Token

/-- The tokens with the brackets that are open in front of each, if `d` are open in front of the
    first. -/
def placeFrom (d : Int) : List Token → List Placed
  | [] => []
  | t :: ts => ⟨t, d⟩ :: placeFrom (d + Bracket.any.depth [t]) ts

/-- The tokens with the brackets that are open in front of each. -/
def place (ts : List Token) : List Placed :=
  placeFrom 0 ts

/-- The token stands outside of all brackets. -/
def Placed.isOuter (p : Placed) : Bool :=
  p.depth == 0

/-- The token ends what stands before it. -/
def Placed.cuts (p : Placed) : Bool :=
  p.token.cuts && p.isOuter

/-- The token is a colon outside of all brackets. -/
def Placed.isOuterColon (p : Placed) : Bool :=
  p.token.isDelimiter ':' && p.isOuter

/-- The tokens outside of all brackets. -/
def outer (ts : List Token) : List Token :=
  ((place ts).filter (·.isOuter)).map (·.token)

end Token

/-- A stretch of tokens and the token that ends it, if it does not end with the input. -/
structure Segment where
  tokens : List Token.Placed
  ending : Option Token.Placed

namespace Segment

/-- Puts a token in front of a segment. -/
def cons (p : Token.Placed) (s : Segment) : Segment :=
  { s with tokens := p :: s.tokens }

/-- The segments between the tokens that cut. -/
def ofPlaced : List Token.Placed → List Segment
  | [] => [⟨[], none⟩]
  | p :: ps => if p.cuts then ⟨[], some p⟩ :: ofPlaced ps else (ofPlaced ps).modifyHead (cons p)

/-- The segment is followed by a block. -/
def opensBlock (s : Segment) : Bool :=
  s.ending.any (·.token.isDelimiter '\x7b')

/-- The first token of a segment that is neither whitespace nor a comment. -/
def first? (s : Segment) : Option Token :=
  (s.tokens.map (·.token)).find? (!·.isTrivia)

/-- What stands behind the first colon outside of all brackets. -/
def afterColon? (ps : List Token.Placed) : Option (List Token.Placed) :=
  match ps.dropWhile (!·.isOuterColon) with
  | [] => none
  | _ :: after => some after

/-- The tokens of a segment that are read as values: those behind the colon if the segment is a
    declaration, else all of them. -/
def valuePart (s : Segment) : List Token :=
  (if s.opensBlock then s.tokens else (afterColon? s.tokens).getD s.tokens).map (·.token)

/-- A segment that is a statement or the head of a block, or no statement at all. -/
structure Sound (s : Segment) : Prop where
  /-- There is something in front of a block. -/
  headed : s.opensBlock = true → s.first?.isSome = true
  /-- A declaration has a property. -/
  named : s.opensBlock = false → ∀ t, s.first? = some t → t.isDelimiter ':' = false
  balanced : Bracket.round.Balanced s.valuePart
  bounded : Bracket.round.DepthAtMost 128 s.valuePart

end Segment

namespace Stylesheet

/-- The segments of the tokens of a style sheet. -/
def segments (ts : List Token) : List Segment :=
  Segment.ofPlaced (Token.place ts)

/-- The tokens go on well from inside of `n` blocks. -/
structure WellFormedFrom (n : Int) (ts : List Token) : Prop where
  brackets : Bracket.any.Balanced ts
  braces : Bracket.brace.BalancedFrom n (Token.outer ts)
  nesting : Bracket.brace.DepthAtMostFrom 128 n (Token.outer ts)
  statements : ∀ s ∈ segments ts, s.Sound

/-- The tokens form a style sheet: round and square brackets are balanced, braces outside of them
    are balanced and not nested too deep, and every segment is sound. -/
def WellFormed (ts : List Token) : Prop :=
  WellFormedFrom 0 ts

end Stylesheet

namespace Token

variable {d : Int} {ts us : List Token}

@[simp]
theorem placeFrom_nil (d : Int) : placeFrom d [] = [] := rfl

theorem placeFrom_cons (d : Int) (t : Token) (ts : List Token) :
    placeFrom d (t :: ts) = ⟨t, d⟩ :: placeFrom (d + Bracket.any.depth [t]) ts := rfl

theorem placeFrom_append (d : Int) (us ts : List Token) :
    placeFrom d (us ++ ts) = placeFrom d us ++ placeFrom (d + Bracket.any.depth us) ts := by
  induction us generalizing d with
  | nil => simp
  | cons t us ih =>
    rw [List.cons_append, placeFrom_cons, placeFrom_cons, ih, List.cons_append,
      Bracket.depth_cons t us, add_assoc]

/-- A token is placed behind the brackets that are opened and not closed in front of it. -/
theorem place_append_cons (us : List Token) (t : Token) (ts : List Token) :
    place (us ++ t :: ts) =
      place us ++ ⟨t, Bracket.any.depth us⟩ :: placeFrom (Bracket.any.depth (us ++ [t])) ts := by
  rw [place, placeFrom_append, placeFrom_cons, zero_add, Bracket.depth_append]
  rfl

@[simp]
theorem map_token_placeFrom (d : Int) (ts : List Token) :
    (placeFrom d ts).map (·.token) = ts := by
  induction ts generalizing d with
  | nil => rfl
  | cons t ts ih => rw [placeFrom_cons, List.map_cons, ih]

/-- Trivia can be left out before or after placing, since they are no brackets. -/
theorem placeFrom_filter_trivia (d : Int) (ts : List Token) :
    (placeFrom d ts).filter (!·.token.isTrivia) = placeFrom d (ts.filter (!·.isTrivia)) := by
  induction ts generalizing d with
  | nil => rfl
  | cons t ts ih =>
    cases ht : t.isTrivia with
    | true =>
      rw [placeFrom_cons, List.filter_cons_of_neg (by simp [ht]),
        List.filter_cons_of_neg (by simp [ht]),
        ih, depth_of_isTrivia _ ht, add_zero]
    | false =>
      rw [placeFrom_cons, List.filter_cons_of_pos (by simp [ht]),
        List.filter_cons_of_pos (by simp [ht]), ih, placeFrom_cons]

end Token

namespace Segment

variable {ps qs : List Token.Placed} {p : Token.Placed}

theorem ofPlaced_cons (p : Token.Placed) (ps : List Token.Placed) :
    ofPlaced (p :: ps) =
      if p.cuts then ⟨[], some p⟩ :: ofPlaced ps else (ofPlaced ps).modifyHead (cons p) := rfl

theorem ofPlaced_of_uncut (uncut : ∀ p ∈ ps, p.cuts = false) : ofPlaced ps = [⟨ps, none⟩] := by
  induction ps with
  | nil => rfl
  | cons p ps ih =>
    rw [ofPlaced_cons, if_neg (by simp [uncut p (by simp)]),
      ih fun q hq => uncut q (List.mem_cons_of_mem _ hq)]
    rfl

theorem ofPlaced_append_cut (uncut : ∀ p ∈ ps, p.cuts = false) (cut : p.cuts = true) :
    ofPlaced (ps ++ p :: qs) = ⟨ps, some p⟩ :: ofPlaced qs := by
  induction ps with
  | nil => rw [List.nil_append, ofPlaced_cons, if_pos cut]
  | cons q ps ih =>
    rw [List.cons_append, ofPlaced_cons, if_neg (by simp [uncut q (by simp)]),
      ih fun q hq => uncut q (List.mem_cons_of_mem _ hq)]
    rfl

theorem afterColon?_cons_of_colon (colon : p.isOuterColon = true) :
    afterColon? (p :: ps) = some ps := by
  rw [afterColon?, List.dropWhile_cons_of_neg (by simp [colon])]

theorem afterColon?_cons_of_other (other : p.isOuterColon = false) :
    afterColon? (p :: ps) = afterColon? ps := by
  rw [afterColon?, List.dropWhile_cons_of_pos (by simp [other]), afterColon?]

/-- Trivia can be left out before or after a segment is cut at its colon. -/
theorem afterColon?_filter_trivia (ps : List Token.Placed) :
    afterColon? (ps.filter (!·.token.isTrivia)) =
      (afterColon? ps).map (·.filter (!·.token.isTrivia)) := by
  induction ps with
  | nil => rfl
  | cons p ps ih =>
    cases ht : p.token.isTrivia with
    | true =>
      have other : p.isOuterColon = false := by
        simp [Token.Placed.isOuterColon, Token.isDelimiter_of_isTrivia ht]
      rw [List.filter_cons_of_neg (by simp [ht]), afterColon?_cons_of_other other, ih]
    | false =>
      rw [List.filter_cons_of_pos (by simp [ht])]
      cases colon : p.isOuterColon with
      | true => rw [afterColon?_cons_of_colon colon, afterColon?_cons_of_colon colon]; rfl
      | false => rw [afterColon?_cons_of_other colon, afterColon?_cons_of_other colon, ih]

theorem valuePart_of_plain {s : Segment} (plain : s.opensBlock = false) :
    s.valuePart = ((afterColon? s.tokens).getD s.tokens).map (·.token) := by
  rw [valuePart, if_neg (by simp [plain])]

/-- What is read as values depends only on the tokens that are no trivia, apart from trivia. -/
theorem filter_valuePart (s : Segment) : s.valuePart.filter (!·.isTrivia) =
    valuePart { s with tokens := s.tokens.filter (!·.token.isTrivia) } := by
  have significant (ps : List Token.Placed) : (ps.map (·.token)).filter (!·.isTrivia) =
      (ps.filter (!·.token.isTrivia)).map (·.token) := by
    rw [List.filter_map]
    rfl
  have same : opensBlock { s with tokens := s.tokens.filter (!·.token.isTrivia) } = s.opensBlock :=
    rfl
  rw [valuePart, valuePart, significant, same, afterColon?_filter_trivia]
  cases s.opensBlock with
  | true => rfl
  | false => cases afterColon? s.tokens <;> rfl

end Segment

end SheetLint
