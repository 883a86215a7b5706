import SheetLint.Proofs.CarriageReturns.Findings

/-!
# Bare urls

What stands between the brackets of a url without quotes is one piece of text, whatever is in it:
brackets, semicolons, commas, quotes and the openings of comments are plain characters there. So a
declaration with a url is read with the contents as one string, and the rules of the linter say the
same about it whatever the contents are (`Stylesheet.parse_url`).
-/

namespace SheetLint

namespace Text

theorem eq_or_eq_of_toLower {c lower upper : Char} (pair : upper.val + 32 = lower.val)
    (h : c.toLower = lower) : c = lower ∨ c = upper := by
  unfold Char.toLower at h
  split at h
  · have same : c.val + 32 = upper.val + 32 := by
      rw [pair]
      exact congrArg Char.val h
    exact .inr (Char.ext ((UInt32.add_left_inj 32).mp same))
  · exact .inl h

theorem exists_letters_of_map_toLower {letters : List Char}
    (url : letters.map Char.toLower = ['u', 'r', 'l']) :
    ∃ u r l, letters = [u, r, l] ∧ (u = 'u' ∨ u = 'U') ∧ (r = 'r' ∨ r = 'R') ∧
      (l = 'l' ∨ l = 'L') := by
  obtain ⟨u, us, rfl, isU, url⟩ := List.map_eq_cons_iff.mp url
  obtain ⟨r, rs, rfl, isR, url⟩ := List.map_eq_cons_iff.mp url
  obtain ⟨l, ls, rfl, isL, url⟩ := List.map_eq_cons_iff.mp url
  obtain rfl := List.map_eq_nil_iff.mp url
  exact ⟨u, r, l, rfl, eq_or_eq_of_toLower (by decide) isU, eq_or_eq_of_toLower (by decide) isR,
    eq_or_eq_of_toLower (by decide) isL⟩

end Text

namespace Lexeme

/-- The text can stand between the brackets of a url: it has no closing bracket, it stands on one
    line, and the first character that is no blank, if there is one, is no quote. -/
structure Bare (contents : List Char) : Prop where
  bracket : ')' ∉ contents
  line : '\n' ∉ contents
  double : contents.find? (!Text.isBlank ·) ≠ some '"'
  single : contents.find? (!Text.isBlank ·) ≠ some '\''

variable {letters contents cs : List Char}

theorem opensQuoted_iff : opensQuoted cs = true ↔
    cs.find? (!Text.isBlank ·) = some '"' ∨ cs.find? (!Text.isBlank ·) = some '\'' := by
  rw [List.find?_eq_head?_dropWhile_not]
  simp only [Bool.not_not]
  unfold opensQuoted Text.trimStart
  cases cs.dropWhile fun c => Text.isBlank c with
  | nil => simp
  | cons c cs => simp

/-- The bracket behind the contents is no quote either. -/
theorem Bare.opensQuoted (bare : Bare contents) (rest : List Char) :
    opensQuoted (contents ++ ')' :: rest) = false := by
  have bracket : (')' :: rest).find? (!Text.isBlank ·) = some ')' := rfl
  rw [← Bool.not_eq_true, opensQuoted_iff, List.find?_append, bracket, not_or]
  cases found : contents.find? (!Text.isBlank ·) with
  | none => simp
  | some c =>
    have double := bare.double
    have single := bare.single
    rw [found] at double single
    exact ⟨double, single⟩

/-- The contents end at the bracket. -/
theorem Bare.urlContentsLength (bare : Bare contents) (rest : List Char) :
    urlContentsLength (contents ++ ')' :: rest) = contents.length := by
  have inside : ∀ c ∈ contents, (c != ')' && c != '\n') = true := by
    intro c member
    have notBracket : c ≠ ')' := ne_of_mem_of_not_mem member bare.bracket
    have notBreak : c ≠ '\n' := ne_of_mem_of_not_mem member bare.line
    simp [notBracket, notBreak]
  rw [Lexeme.urlContentsLength, bare.opensQuoted, if_neg Bool.false_ne_true, spanLength,
    List.takeWhile_append_of_pos inside]
  simp

/-- A url in any spelling goes up to the bracket that closes it. -/
theorem Bare.cuts (bare : Bare contents) (url : letters.map Char.toLower = ['u', 'r', 'l'])
    (rest : List Char) :
    Cuts (letters ++ '(' :: (contents ++ ')' :: rest)) .url (letters ++ '(' :: contents)
      (')' :: rest) := by
  obtain ⟨u, r, l, rfl, isU, isR, isL⟩ := Text.exists_letters_of_map_toLower url
  have cuts := cuts_url (opensUrl_iff.mpr ⟨isU, r, l, contents ++ ')' :: rest, rfl, isR, isL⟩)
  rwa [bare.urlContentsLength, List.take_left, List.drop_left] at cuts

theorem cuts_single (c : Char) (kind : LexemeKind) (h : classify c cs = .ok (kind, 0)) :
    Cuts (c :: cs) kind [c] cs :=
  ⟨c, cs, 0, rfl, h, rfl, rfl⟩

/-- The lexemes of a ruleset with one declaration, whose value is a url. -/
theorem split_url (bare : Bare contents) (url : letters.map Char.toLower = ['u', 'r', 'l']) :
    ∃ p q, split .start
        ('a' :: '\x7b' :: 'b' :: ':' :: (letters ++ '(' :: (contents ++ [')', '\x7d']))) =
      .ok [⟨.word, ['a'], ⟨1, 1⟩⟩, ⟨.delimiter, ['\x7b'], ⟨1, 2⟩⟩, ⟨.word, ['b'], ⟨1, 3⟩⟩,
        ⟨.delimiter, [':'], ⟨1, 4⟩⟩, ⟨.url, letters ++ '(' :: contents, ⟨1, 5⟩⟩,
        ⟨.delimiter, [')'], p⟩, ⟨.delimiter, ['\x7d'], q⟩] := by
  rw [(cuts_single 'a' .word rfl).split, (cuts_single '\x7b' .delimiter rfl).split,
    (cuts_single 'b' .word rfl).split, (cuts_single ':' .delimiter rfl).split,
    (bare.cuts url ['\x7d']).split, (cuts_single ')' .delimiter rfl).split,
    (cuts_single '\x7d' .delimiter rfl).split, split_nil]
  exact ⟨_, _, rfl⟩

end Lexeme

namespace Token

/-- The tokens of a ruleset with one declaration, whose value is a url. The last two stand at `p`
    and `q`. -/
def urlTokens (name contents : String) (p q : Position) : List Token :=
  [⟨.word, "a", ⟨1, 1⟩⟩, ⟨.delimiter '\x7b', "\x7b", ⟨1, 2⟩⟩, ⟨.word, "b", ⟨1, 3⟩⟩,
    ⟨.delimiter ':', ":", ⟨1, 4⟩⟩, ⟨.word, name, ⟨1, 5⟩⟩, ⟨.delimiter '(', "(", ⟨1, 8⟩⟩] ++
  (if contents = "" then [] else [⟨.string, contents, ⟨1, 9⟩⟩]) ++
  [⟨.delimiter ')', ")", p⟩, ⟨.delimiter '\x7d', "\x7d", q⟩]

/-- A declaration whose value is a bare url has the tokens of the name, the bracket and the
    contents. -/
theorem tokenize_url {name contents : String} (url : name.toLower = "url")
    (bare : Lexeme.Bare contents.toList) :
    ∃ p q, tokenize ("a\x7bb:" ++ name ++ "(" ++ contents ++ ")\x7d") =
      .ok (urlTokens name contents p q) := by
  have letters : name.toList.map Char.toLower = ['u', 'r', 'l'] := by
    rw [← String.toList_map]
    exact congrArg String.toList url
  have three : name.toList.length = 3 := by
    rw [← List.length_map Char.toLower, letters]
    rfl
  obtain ⟨p, q, split⟩ := Lexeme.split_url bare letters
  have source : ("a\x7bb:" ++ name ++ "(" ++ contents ++ ")\x7d").toList =
      'a' :: '\x7b' :: 'b' :: ':' ::
        (name.toList ++ '(' :: (contents.toList ++ [')', '\x7d'])) := by
    simp
  refine ⟨p, q, ?_⟩
  rw [tokenize, source, split]
  show Except.ok (ofLexemes _) = _
  simp only [ofLexemes, List.foldl_cons, List.foldl_nil, push, ofUrl_eq three,
    String.ofList_toList, String.toList_eq_nil_iff, urlTokens]
  by_cases empty : contents = ""
  · rw [if_pos empty, if_pos empty]
    rfl
  · rw [if_neg empty, if_neg empty]
    rfl

end Token

namespace Stylesheet

/-- The leaves for the contents of a url: one string, or nothing. -/
def urlLeaves (contents : String) : List Node :=
  if contents = "" then [] else [.leaf .string contents ⟨1, 9⟩]

/-- The tree of a ruleset with one declaration, whose value is a url. -/
def urlSheet (name contents : String) : Node :=
  .branch .stylesheet ⟨1, 1⟩ [.branch .ruleset ⟨1, 1⟩
    [⟨.selector, "a", ⟨1, 1⟩, [.leaf .ident "a" ⟨1, 1⟩]⟩,
      .branch .block ⟨1, 2⟩ [.branch .declaration ⟨1, 3⟩
        [.leaf .property "b" ⟨1, 3⟩, .leaf .colon ":" ⟨1, 4⟩,
          .branch .value ⟨1, 5⟩
            [⟨.function, name, ⟨1, 5⟩, [.branch .arguments ⟨1, 8⟩ (urlLeaves contents)]⟩]]]]]

theorem ofTokens_url (name contents : String) (p q : Position) :
    ofTokens (Token.urlTokens name contents p q) = .ok (urlSheet name contents) := by
  unfold urlSheet urlLeaves Token.urlTokens
  by_cases empty : contents = ""
  · rw [if_pos empty, if_pos empty]
    rfl
  · rw [if_neg empty, if_neg empty]
    rfl

theorem isString_of_mem_urlLeaves {contents : String} : ∀ n ∈ urlLeaves contents, n.IsString := by
  intro n member
  unfold urlLeaves at member
  split at member
  · cases member
  · obtain rfl := List.mem_singleton.mp member
    exact ⟨rfl, rfl⟩

/-- The trees for two urls differ in the leaves between the brackets only. -/
theorem akin_urlSheet (name contents contents' : String) :
    Node.Akin [] [urlSheet name contents] [urlSheet name contents'] := by
  have leaf (kind : NodeKind) (content : String) (p : Position) :
      Node.Akin [] [.leaf kind content p] [.leaf kind content p] :=
    Node.akin_leaf (Node.labelled_of_eq rfl rfl rfl)
  have arguments : Node.Akin [] [.branch .arguments ⟨1, 8⟩ (urlLeaves contents)]
      [.branch .arguments ⟨1, 8⟩ (urlLeaves contents')] :=
    .cons (Node.labelled_of_eq rfl rfl rfl) (List.append_nil _).symm (List.append_nil _).symm
      (.bare isString_of_mem_urlLeaves isString_of_mem_urlLeaves)
      (fun other _ => absurd rfl other) .nil .nil
  have call : Node.Akin []
      [⟨.function, name, ⟨1, 5⟩, [.branch .arguments ⟨1, 8⟩ (urlLeaves contents)]⟩]
      [⟨.function, name, ⟨1, 5⟩, [.branch .arguments ⟨1, 8⟩ (urlLeaves contents')]⟩] :=
    Node.akin_singleton (Node.labelled_of_eq rfl rfl rfl) arguments
  have selector : Node.Akin [] [⟨.selector, "a", ⟨1, 1⟩, [.leaf .ident "a" ⟨1, 1⟩]⟩]
      [⟨.selector, "a", ⟨1, 1⟩, [.leaf .ident "a" ⟨1, 1⟩]⟩] :=
    Node.akin_singleton (Node.labelled_of_eq rfl rfl rfl) (leaf .ident "a" ⟨1, 1⟩)
  refine Node.akin_branch .stylesheet rfl (Node.akin_branch .ruleset rfl (selector.append ?_))
  refine Node.akin_branch .block rfl (Node.akin_branch .declaration rfl ?_)
  exact (leaf .property "b" ⟨1, 3⟩).append ((leaf .colon ":" ⟨1, 4⟩).append
    (Node.akin_branch .value rfl call))

/-- A declaration with a url in any spelling is read, whatever stands between its brackets. Its
    value is one function under the spelling of the url, whose arguments are one string with all of the
    contents, or nothing if there are none. What the rules of the linter say about the tree, or how
    they fail on it, is the same for all contents. -/
theorem parse_url {name contents : String} (url : name.toLower = "url")
    (bare : Lexeme.Bare contents.toList) :
    parse ("a\x7bb:" ++ name ++ "(" ++ contents ++ ")\x7d") = .ok (urlSheet name contents) ∧
    ∀ c active notices, resolve .builtin c = .ok (active, notices) → ∀ file contents',
      (checkTree active file (urlSheet name contents')).outcome =
        (checkTree active file (urlSheet name contents)).outcome := by
  constructor
  · obtain ⟨p, q, tokens⟩ := Token.tokenize_url url bare
    have unmarked : withoutMark ("a\x7bb:" ++ name ++ "(" ++ contents ++ ")\x7d") =
        "a\x7bb:" ++ name ++ "(" ++ contents ++ ")\x7d" := by
      apply withoutMark_of_not
      intro cs
      simp
    rw [parse, unmarked, tokens]
    exact ofTokens_url name contents p q
  · intro c active notices resolved file contents'
    rw [checkTree_akin resolved (akin_urlSheet name contents contents') file]
    exact (movedAll_eq_self_iff _).mpr fun _ _ => List.not_mem_nil

/-- Brackets, a semicolon, openings of comments, a colour between commas, quotes and a character
    that is out of place elsewhere are contents like any others. -/
theorem parse_url_signs :
    let contents := " ;\x7b\x7d[(/*//,#fff,\"'\x01"
    "uRL".toLower = "url" ∧ Lexeme.Bare contents.toList ∧
    parse "a\x7bb:uRL( ;\x7b\x7d[(/*//,#fff,\"'\x01)\x7d" = .ok (urlSheet "uRL" contents) ∧
    ∃ active notices, resolve .builtin .default = .ok (active, notices) ∧
      (checkTree active "a.less" (urlSheet "uRL" "")).outcome =
        (checkTree active "a.less" (urlSheet "uRL" contents)).outcome := by
  intro contents
  have url : "uRL".toLower = "url" := by decide +kernel
  have bare : Lexeme.Bare contents.toList :=
    ⟨by decide +kernel, by decide +kernel, by decide +kernel, by decide +kernel⟩
  obtain ⟨parsed, same⟩ := parse_url url bare
  have text : "a\x7bb:uRL( ;\x7b\x7d[(/*//,#fff,\"'\x01)\x7d" =
      "a\x7bb:" ++ "uRL" ++ "(" ++ contents ++ ")\x7d" := by
    decide +kernel
  obtain ⟨⟨active, notices⟩, resolved⟩ : ∃ result, resolve .builtin .default = .ok result :=
    exists_ok_of_isOk (by decide +kernel)
  exact ⟨url, bare, text ▸ parsed, active, notices, resolved,
    same .default active notices resolved "a.less" ""⟩

end Stylesheet

end SheetLint
