import SheetLint.Proofs.Pairing
import SheetLint.Proofs.Tiling
import Mathlib.Data.List.DropRight

/-!
# Lines and columns

The place behind a text is told by the text's line feeds and by what follows the last of them
(`Position.start_advance`). The other way round, line and column lead back to the text from there
on (`Position.seek_start_advance`). So the text that begins at the place of a token begins with the
token, and goes on with the tokens behind it (`Token.Stands.seek`).
-/

namespace SheetLint

namespace Position

/-- What follows the last line feed. -/
def lastLine (cs : List Char) : List Char :=
  cs.rtakeWhile (· != '\n')

@[simp]
theorem lastLine_nil : lastLine [] = [] := rfl

@[simp]
theorem lastLine_newline (cs : List Char) : lastLine (cs ++ ['\n']) = [] :=
  List.rtakeWhile_concat_neg _ _ _ (by decide)

theorem lastLine_concat (cs : List Char) {c : Char} (other : c ≠ '\n') :
    lastLine (cs ++ [c]) = lastLine cs ++ [c] :=
  List.rtakeWhile_concat_pos _ _ _ (by simpa using other)

/-- The line behind a text is told by its line feeds, and the column by its last line. -/
theorem start_advance (cs : List Char) :
    start.advance cs = ⟨1 + cs.count '\n', 1 + (lastLine cs).length⟩ := by
  induction cs using List.reverseRecOn with
  | nil => rfl
  | append_singleton cs c ih =>
    rw [advance_append, ih, advance_cons, advance_nil, next, List.count_append]
    by_cases newline : c = '\n'
    · subst newline
      simp [Nat.add_assoc]
    · simp [newline, lastLine_concat cs newline, Nat.add_assoc]

/-- What follows the first `n` line feeds. -/
def behindLines (cs : List Char) : Nat → List Char
  | 0 => cs
  | n + 1 => ((behindLines cs n).dropWhile (· != '\n')).drop 1

/-- The text from a place on. -/
def seek (p : Position) (cs : List Char) : List Char :=
  (behindLines cs (p.line - 1)).drop (p.column - 1)

/-- Behind the line feeds of a text there is its last line, and what follows the text. -/
theorem behindLines_count (xs ys : List Char) :
    behindLines (xs ++ ys) (xs.count '\n') = lastLine xs ++ ys := by
  induction xs using List.reverseRecOn generalizing ys with
  | nil => rfl
  | append_singleton xs c ih =>
    have before := ih (c :: ys)
    rw [List.append_assoc, List.singleton_append, List.count_append]
    by_cases newline : c = '\n'
    · subst newline
      have line : ∀ d ∈ lastLine xs, (d != '\n') = true := by
        intro d member
        exact List.mem_rtakeWhile_imp (p := (· != '\n')) member
      rw [List.count_singleton_self, behindLines, before, List.dropWhile_append_of_pos line]
      simp
    · rw [List.count_singleton, if_neg (by simpa using newline), Nat.add_zero, before,
        lastLine_concat xs newline, List.append_assoc, List.singleton_append]

/-- The place behind a text leads to what follows it. -/
theorem seek_start_advance (xs ys : List Char) : (start.advance xs).seek (xs ++ ys) = ys := by
  rw [start_advance, seek, Nat.add_sub_cancel_left, Nat.add_sub_cancel_left, behindLines_count,
    List.drop_left]

end Position

namespace Token

variable {source : List Char} {t : Token} {ts us : List Token}

/-- Tokens that follow each other in a text, each at its own place and of the form that its class
    promises. -/
structure Stands (source : List Char) (ts : List Token) : Prop where
  text : ∃ front back, source = front ++ (joined ts ++ back) ∧
    Tiles (Position.start.advance front) ts
  forms : ∀ t ∈ ts, t.WellFormed

theorem Stands.part (h : Stands source ts) (part : us <:+: ts) : Stands source us := by
  refine ⟨?_, fun t member => h.forms t (part.subset member)⟩
  obtain ⟨front, back, text, tiles⟩ := h.text
  obtain ⟨before, after, rfl⟩ := part
  rw [List.append_assoc, tiles_append, tiles_append, ← Position.advance_append] at tiles
  refine ⟨front ++ joined before, joined after ++ back, ?_, tiles.2.1⟩
  rw [text, joined_append, joined_append]
  simp only [List.append_assoc]

/-- At the place of the first token the text reads as the tokens do. -/
theorem Stands.seek (h : Stands source (t :: ts)) :
    t.text.toList ++ joined ts <+: t.position.seek source := by
  obtain ⟨front, back, text, place, -⟩ := h.text
  refine ⟨back, ?_⟩
  rw [place, text, Position.seek_start_advance, joined_cons]

theorem stands_of_tokenize {source : String} (h : tokenize source = .ok ts) :
    Stands source.toList ts := by
  obtain ⟨tiles, text⟩ := tiles_of_tokenize h
  exact ⟨⟨[], [], by simp [text], tiles⟩, wellFormed_of_tokenize h⟩

/-- The tokens of a text are its pieces from left to right, none of them empty, and each tells the
    line and the column where it begins: these are counted from the pieces before it. -/
theorem tokenize_tiles {source : String} (h : tokenize source = .ok ts) :
    String.join (ts.map (·.text)) = source ∧ (∀ t ∈ ts, t.text ≠ "") ∧
      ∀ before t after, ts = before ++ t :: after →
        t.position.line = 1 + (joined before).count '\n' ∧
          t.position.column = 1 + (Position.lastLine (joined before)).length := by
  obtain ⟨tiles, text⟩ := tiles_of_tokenize h
  refine ⟨?_, ?_, ?_⟩
  · rw [← String.toList_inj, String.toList_join, ← text, joined, List.flatMap_map]
  · intro t member empty
    have form := (wellFormed_of_tokenize h t member).text_ne_nil
    exact form (by rw [empty]; rfl)
  · rintro before t after rfl
    obtain ⟨-, place, -⟩ := tiles_append.mp tiles
    rw [place, Position.start_advance]
    exact ⟨rfl, rfl⟩

/-- A number takes the sign in front of it along, and a url is a word, a bracket and its bare
    contents; a comment, a blank and a string go over line feeds. -/
theorem tokenize_tiles_mixed : ∃ ts,
    tokenize "é:-1/*\n*/url(ü)\n \"\\\n\"+2px" = .ok ts ∧
    ts.map (fun t => (t.text, t.position)) =
      [("é", ⟨1, 1⟩), (":", ⟨1, 2⟩), ("-1", ⟨1, 3⟩), ("/*\n*/", ⟨1, 5⟩), ("url", ⟨2, 3⟩),
        ("(", ⟨2, 6⟩), ("ü", ⟨2, 7⟩), (")", ⟨2, 8⟩), ("\n ", ⟨2, 9⟩), ("\"\\\n\"", ⟨3, 2⟩),
        ("+2px", ⟨4, 2⟩)] ∧
    String.join (ts.map (·.text)) = "é:-1/*\n*/url(ü)\n \"\\\n\"+2px" ∧ (∀ t ∈ ts, t.text ≠ "") ∧
    ∀ before t after, ts = before ++ t :: after →
      t.position.line = 1 + (joined before).count '\n' ∧
        t.position.column = 1 + (Position.lastLine (joined before)).length := by
  apply exists_ok_of_map_toOption
  · decide +kernel
  · intro ts tokens
    exact tokenize_tiles tokens

end Token

end SheetLint
