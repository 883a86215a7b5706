import SheetLint.Proofs.TokenForm
import Mathlib.Data.List.Nodup

/-!
# Tokens tile the text

Each token of a text begins where the token before it ends, and none is empty. So tokens stand in
the order of their places, and no two stand at the same place.
-/

namespace SheetLint

namespace Position

instance : LT Position :=
  ⟨fun p q => p.line < q.line ∨ (p.line = q.line ∧ p.column < q.column)⟩

theorem lt_iff {p q : Position} :
    p < q ↔ p.line < q.line ∨ (p.line = q.line ∧ p.column < q.column) := Iff.rfl

theorem lt_trans {p q r : Position} (hpq : p < q) (hqr : q < r) : p < r := by
  rw [lt_iff] at hpq hqr ⊢
  omega

theorem lt_irrefl (p : Position) : ¬ p < p := by
  rw [lt_iff]
  omega

theorem lt_next (p : Position) (c : Char) : p < p.next c := by
  rw [lt_iff, next]
  by_cases h : c = '\n'
  · rw [if_pos h]
    exact .inl (Nat.lt_succ_self _)
  · rw [if_neg h]
    exact .inr ⟨rfl, Nat.lt_succ_self _⟩

/-- What stands behind some text stands later. -/
theorem lt_advance (p : Position) {cs : List Char} (some : cs ≠ []) : p < p.advance cs := by
  induction cs generalizing p with
  | nil => exact absurd rfl some
  | cons c cs ih =>
    rw [advance_cons]
    by_cases last : cs = []
    · subst last
      exact lt_next p c
    · exact lt_trans (lt_next p c) (ih (p.next c) last)

/-- Text on one line moves the place by its length. -/
theorem advance_eq_shift (p : Position) {cs : List Char} (line : '\n' ∉ cs) :
    p.advance cs = p.shift cs.length := by
  induction cs generalizing p with
  | nil => rfl
  | cons c cs ih =>
    rw [List.mem_cons, not_or] at line
    have here : p.next c = p.shift 1 := by
      rw [next, if_neg (Ne.symm line.1), shift]
    rw [advance_cons, here, ih _ line.2]
    simp only [shift, List.length_cons, Position.mk.injEq, true_and]
    omega

end Position

namespace Lexeme

/-- Each lexeme begins where the one before it ends, the first at `p`. -/
def Placed (p : Position) : List Lexeme → Prop
  | [] => True
  | l :: ls => l.position = p ∧ Placed (p.advance l.text) ls

/-- The lexeme is `url(` in some mix of cases, and what follows. -/
def OpensUrl (l : Lexeme) : Prop :=
  ∃ letters contents, l.text = letters ++ '(' :: contents ∧ letters.length = 3 ∧ '\n' ∉ letters

/-- No lexeme is empty. -/
theorem WellFormed.text_ne_nil {l : Lexeme} (h : l.WellFormed) : l.text ≠ [] := by
  unfold WellFormed at h
  split at h
  · exact h.1
  · obtain ⟨cs, text⟩ := h
    simp [text]
  · obtain ⟨cs, text⟩ := h
    simp [text]
  · obtain ⟨c, text⟩ := h
    simp [text]
  · exact h

/-- Each lexeme of a text begins where the one before it ends. -/
theorem placed_of_split {p : Position} {cs : List Char} {ls : List Lexeme}
    (h : split p cs = .ok ls) : Placed p ls := by
  fun_induction split p cs generalizing ls with
  | case1 => cases h; trivial
  | case2 => cases h
  | case3 => cases h
  | case4 p c cs kind n _ text rest hrest =>
    rename_i ih
    cases h
    exact ⟨rfl, ih hrest⟩

/-- A url is opened by its three letters in any case, with the bracket directly behind them. -/
theorem opensUrl_iff {c : Char} {cs : List Char} : opensUrl c cs = true ↔
    (c = 'u' ∨ c = 'U') ∧ ∃ r l rest, cs = r :: l :: '(' :: rest ∧ (r = 'r' ∨ r = 'R') ∧
      (l = 'l' ∨ l = 'L') := by
  unfold opensUrl
  rw [Bool.and_eq_true, Bool.or_eq_true, beq_iff_eq, beq_iff_eq]
  apply and_congr_right'
  split
  · rename_i r l rest
    simp
  · rename_i other
    constructor
    · intro h
      cases h
    · rintro ⟨r, l, rest, rfl, -, -⟩
      exact absurd rfl (other r l rest)

/-- The letters of `url(` stand on one line. -/
theorem opensUrl_cases {c : Char} {cs : List Char} (h : opensUrl c cs = true) :
    ∃ r l rest, cs = r :: l :: '(' :: rest ∧ '\n' ∉ [c, r, l] := by
  obtain ⟨hc, r, l, rest, rfl, hr, hl⟩ := opensUrl_iff.mp h
  refine ⟨r, l, rest, rfl, ?_⟩
  rcases hc with rfl | rfl <;> rcases hr with rfl | rfl <;> rcases hl with rfl | rfl <;> decide

/-- Every lexeme of a url begins with the letters and the bracket. -/
theorem opensUrl_of_split {p : Position} {cs : List Char} {ls : List Lexeme}
    (h : split p cs = .ok ls) : ∀ l ∈ ls, l.kind = .url → l.OpensUrl := by
  intro l member isUrl
  obtain ⟨c, ds, n, classified, text⟩ := classify_of_mem_split h member
  rw [isUrl] at classified
  cases class_of_classify classified with
  | written isWritten => cases isWritten
  | url opens =>
    obtain ⟨r, l, more, rfl, line⟩ := opensUrl_cases opens
    refine ⟨[c, r, l], more.take (urlContentsLength more), ?_, rfl, line⟩
    rw [text, Nat.add_comm]
    simp

end Lexeme

namespace Token

variable {p : Position} {t : Token} {ts us tokens : List Token} {cs : List Char} {lexeme : Lexeme}

/-- The texts of some tokens, one behind the other. -/
def joined (ts : List Token) : List Char :=
  ts.flatMap (·.text.toList)

@[simp]
theorem joined_nil : joined [] = [] := rfl

theorem joined_cons (t : Token) (ts : List Token) :
    joined (t :: ts) = t.text.toList ++ joined ts := rfl

@[simp]
theorem joined_append (ts us : List Token) : joined (ts ++ us) = joined ts ++ joined us := by
  simp [joined]

/-- Each token begins where the one before it ends, the first at `p`, and none is empty. -/
def Tiles (p : Position) : List Token → Prop
  | [] => True
  | t :: ts => t.position = p ∧ t.text.toList ≠ [] ∧ Tiles (p.advance t.text.toList) ts

theorem tiles_cons : Tiles p (t :: ts) ↔
    t.position = p ∧ t.text.toList ≠ [] ∧ Tiles (p.advance t.text.toList) ts := Iff.rfl

theorem tiles_append :
    Tiles p (ts ++ us) ↔ Tiles p ts ∧ Tiles (p.advance (joined ts)) us := by
  induction ts generalizing p with
  | nil => simp [Tiles]
  | cons t ts ih =>
    rw [List.cons_append, tiles_cons, tiles_cons, ih, joined_cons, Position.advance_append]
    simp only [and_assoc]

/-- Tokens that are listed from the last to the first tile a text from its start. -/
structure Covered (cs : List Char) (tokens : List Token) : Prop where
  tiles : Tiles .start tokens.reverse
  text : joined tokens.reverse = cs

theorem covered_nil : Covered [] [] := ⟨trivial, rfl⟩

theorem Covered.cons (h : Covered cs tokens) (place : t.position = Position.start.advance cs)
    (some : t.text.toList ≠ []) : Covered (cs ++ t.text.toList) (t :: tokens) := by
  refine ⟨?_, ?_⟩
  · rw [List.reverse_cons, tiles_append, h.text]
    exact ⟨h.tiles, place, some, trivial⟩
  · rw [List.reverse_cons, joined_append, h.text]
    simp [joined]

theorem Covered.tail (h : Covered cs (t :: tokens)) : ∃ ds, cs = ds ++ t.text.toList ∧
    t.position = Position.start.advance ds ∧ Covered ds tokens := by
  obtain ⟨tiles, text⟩ := h
  rw [List.reverse_cons, tiles_append] at tiles
  refine ⟨joined tokens.reverse, ?_, tiles.2.1, tiles.1, rfl⟩
  rw [← text, List.reverse_cons, joined_append]
  simp [joined]

/-- A number that takes the sign in front of it begins where the sign does. -/
theorem Covered.pushNumber (h : Covered cs tokens)
    (place : t.position = Position.start.advance cs) (some : t.text.toList ≠ []) :
    Covered (cs ++ t.text.toList) (pushNumber t tokens) := by
  unfold Token.pushNumber
  split
  · rename_i sign before
    split
    · obtain ⟨ds, rfl, start, covered⟩ := h.tail
      have joint := covered.cons (t := { t with
        text := sign.text ++ t.text, position := sign.position }) start (by simp [some])
      simpa using joint
    · exact h.cons place some
  · exact h.cons place some

/-- The word, the bracket and the contents of a url, if there are any. -/
theorem ofUrl_eq {letters : List Char} (three : letters.length = 3) (contents : List Char)
    (p : Position) : ofUrl (letters ++ '(' :: contents) p =
      (if contents = [] then [] else [⟨.string, String.ofList contents, p.shift 4⟩]) ++
        [⟨.delimiter '(', "(", p.shift 3⟩, ⟨.word, String.ofList letters, p⟩] := by
  have front : (letters ++ '(' :: contents).take 3 = letters := List.take_left' three
  have back : (letters ++ '(' :: contents).drop 4 = contents := by
    rw [← List.drop_drop (i := 1) (j := 3), List.drop_left' three]
    rfl
  rw [ofUrl, front, back]
  by_cases empty : contents = []
  · rw [if_pos (by simp [empty]), if_pos empty, List.nil_append]
  · rw [if_neg (by simp [empty]), if_neg empty, List.singleton_append]

/-- The tokens of a url cover the text of its lexeme. -/
theorem Covered.ofUrl (h : Covered cs tokens) (place : lexeme.position = Position.start.advance cs)
    (opens : lexeme.OpensUrl) :
    Covered (cs ++ lexeme.text) (ofUrl lexeme.text lexeme.position ++ tokens) := by
  obtain ⟨letters, contents, text, three, line⟩ := opens
  have word := h.cons (t := ⟨.word, String.ofList letters, lexeme.position⟩) place
    (by intro empty; simp at empty; simp [empty] at three)
  have afterWord : lexeme.position.shift 3 = Position.start.advance (cs ++ letters) := by
    rw [Position.advance_append, ← place, Position.advance_eq_shift _ line, three]
  rw [String.toList_ofList] at word
  have opening := word.cons (t := ⟨.delimiter '(', "(", lexeme.position.shift 3⟩) afterWord
    (by simp)
  have afterOpening : lexeme.position.shift 4 =
      Position.start.advance (cs ++ letters ++ "(".toList) := by
    rw [Position.advance_append, ← afterWord]
    rfl
  rw [text, ofUrl_eq three]
  by_cases empty : contents = []
  · rw [if_pos empty, empty]
    simpa using opening
  · rw [if_neg empty]
    have bare := opening.cons (t := ⟨.string, String.ofList contents, lexeme.position.shift 4⟩)
      afterOpening (by simpa using empty)
    simpa using bare

/-- The tokens of a lexeme cover its text. -/
theorem Covered.push (h : Covered cs tokens) (place : lexeme.position = Position.start.advance cs)
    (some : lexeme.text ≠ []) (url : lexeme.kind = .url → lexeme.OpensUrl) :
    Covered (cs ++ lexeme.text) (push tokens lexeme) := by
  have plain (kind : TokenKind) : Covered (cs ++ lexeme.text)
      (⟨kind, String.ofList lexeme.text, lexeme.position⟩ :: tokens) := by
    simpa using h.cons (t := ⟨kind, String.ofList lexeme.text, lexeme.position⟩) place
      (by simpa using some)
  unfold Token.push
  dsimp only
  cases kind : lexeme.kind with
  | url => exact h.ofUrl place (url kind)
  | number =>
    simpa using h.pushNumber (t := ⟨.number, String.ofList lexeme.text, lexeme.position⟩) place
      (by simpa using some)
  | _ => exact plain _

/-- The tokens of some lexemes extend what is covered by the texts of these lexemes. -/
theorem Covered.foldl_push {ls : List Lexeme} (h : Covered cs tokens)
    (placed : Lexeme.Placed (Position.start.advance cs) ls) (some : ∀ l ∈ ls, l.text ≠ [])
    (urls : ∀ l ∈ ls, l.kind = .url → l.OpensUrl) :
    Covered (cs ++ (ls.map (·.text)).flatten) (ls.foldl Token.push tokens) := by
  induction ls generalizing cs tokens with
  | nil => simpa using h
  | cons l ls ih =>
    obtain ⟨place, placed⟩ := placed
    obtain ⟨someHere, some⟩ := List.forall_mem_cons.mp some
    obtain ⟨urlHere, urls⟩ := List.forall_mem_cons.mp urls
    rw [← Position.advance_append] at placed
    have later := ih (h.push place someHere urlHere) placed some urls
    simpa using later

/-- The tokens of some lexemes tile the text of these lexemes. -/
theorem covered_of_placed {ls : List Lexeme} (placed : Lexeme.Placed .start ls)
    (forms : ∀ l ∈ ls, l.WellFormed) (urls : ∀ l ∈ ls, l.kind = .url → l.OpensUrl) :
    Covered (ls.map (·.text)).flatten (ls.foldl push []) := by
  exact covered_nil.foldl_push placed (fun l member => (forms l member).text_ne_nil) urls

/-- The tokens of a text tile it. -/
theorem tiles_of_tokenize {source : String} (h : tokenize source = .ok ts) :
    Tiles .start ts ∧ joined ts = source.toList := by
  obtain ⟨lexemes, split, rfl⟩ := tokenize_eq_ok.mp h
  have covered := covered_of_placed (Lexeme.placed_of_split split)
    (Lexeme.wellFormed_of_split split) (Lexeme.opensUrl_of_split split)
  rw [Lexeme.flatten_text_of_split split] at covered
  exact ⟨covered.tiles, covered.text⟩

/-- Tokens stand in the order of their places. -/
theorem Tiles.pairwise (h : Tiles p ts) :
    (∀ t ∈ ts, t.position = p ∨ p < t.position) ∧
      ts.Pairwise fun t u => t.position < u.position := by
  induction ts generalizing p with
  | nil => exact ⟨nofun, .nil⟩
  | cons t ts ih =>
    obtain ⟨place, some, rest⟩ := h
    obtain ⟨later, ordered⟩ := ih rest
    have behind : ∀ u ∈ ts, p < u.position := by
      intro u hu
      have step := Position.lt_advance p some
      rcases later u hu with same | above
      · rw [same]
        exact step
      · exact Position.lt_trans step above
    refine ⟨?_, ?_⟩
    · intro u hu
      rcases List.mem_cons.mp hu with rfl | hu
      · exact .inl place
      · exact .inr (behind u hu)
    · rw [List.pairwise_cons, place]
      exact ⟨behind, ordered⟩

theorem Tiles.nodup (h : Tiles p ts) : (ts.map (·.position)).Nodup := by
  rw [List.Nodup, List.pairwise_map]
  refine h.pairwise.2.imp ?_
  intro t u before same
  rw [same] at before
  exact Position.lt_irrefl _ before

end Token

end SheetLint
