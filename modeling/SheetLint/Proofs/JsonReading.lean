import SheetLint.Json.Read
import SheetLint.Json.Write
import SheetLint.Proofs.JsonNumbers

/-!
# Reading what was written

A document that is written and read again is the same document (`Json.parse?_print`), if its numbers
are numbers of the notation, no point in time occurs and it is not nested too deep. The reader is
followed token by token: each written part takes the state in which it is read to the state in which
the part is at its place, whatever text comes behind it (`Json.Reads`). Written documents hold no
control characters, so they stay on one line (`Json.Readable.printable`).
-/

namespace SheetLint.Json

/-- No control character. -/
def isPrintable (c : Char) : Bool :=
  0x20 ≤ c.toNat

theorem unescape?_unit {a b c d : Char} {n : Nat} (unit : unit? a b c d = some n)
    (single : isTrailing n = false ∧ isLeading n = false) (rest : List Char) :
    unescape? ('u' :: a :: b :: c :: d :: rest) = some (Char.ofNat n, 5) := by
  refine (congrArg (Option.bind · _) unit).trans ?_
  rw [Option.bind_some, single.1, if_neg Bool.false_ne_true, single.2, if_neg Bool.false_ne_true]

/-- The codes of control characters hold none, and stand for single units. -/
theorem code_of_control : ∀ n < 0x20,
    ['u', '0', '0', Nat.digitChar (n / 16), Nat.digitChar (n % 16)].all isPrintable = true ∧
      unit? '0' '0' (Nat.digitChar (n / 16)) (Nat.digitChar (n % 16)) = some n ∧
      isTrailing n = false ∧ isLeading n = false := by
  decide

/-- A character is written as itself, or as a backslash and a code that stands for it. -/
theorem escape_eq (c : Char) :
    (escape c = [c] ∧ c ≠ '"' ∧ c ≠ '\\' ∧ ¬ c.toNat < 0x20) ∨
      ∃ code, escape c = '\\' :: code ∧ code.all isPrintable = true ∧
        ∀ rest, unescape? (code ++ rest) = some (c, code.length) := by
  generalize written : escape c = text
  unfold escape at written
  iterate 7
    split at written
    · subst c written
      exact .inr ⟨_, rfl, rfl, fun _ => rfl⟩
  split at written
  · next control =>
    subst written
    obtain ⟨printable, unit, single⟩ := code_of_control _ control
    refine .inr ⟨_, rfl, printable, ?_⟩
    intro rest
    have read := unescape?_unit unit single rest
    rw [Char.ofNat_toNat] at read
    exact read
  · next noQuote noSlash _ _ _ _ _ noControl =>
    exact .inl ⟨written.symm, noQuote, noSlash, noControl⟩

theorem unquote?_escape (c : Char) (rest : List Char) :
    unquote? (escape c ++ rest) = (unquote? rest).map fun (text, rest) => (c :: text, rest) := by
  rcases escape_eq c with ⟨plain, noQuote, noSlash, noControl⟩ | ⟨code, escaped, -, read⟩
  · rw [plain, List.singleton_append, unquote?, if_neg noQuote, if_neg noSlash, if_neg noControl]
  · rw [escaped, List.cons_append, unquote?, if_neg (by decide), if_pos rfl, read rest]
    simp only [List.drop_left]

theorem unquote?_flatMap (cs rest : List Char) :
    unquote? (cs.flatMap escape ++ '"' :: rest) = some (cs, rest) := by
  induction cs with
  | nil => rw [List.flatMap_nil, List.nil_append, unquote?, if_pos rfl]
  | cons c cs ih =>
    rw [List.flatMap_cons, List.append_assoc, unquote?_escape, ih]
    rfl

theorem printable_escape (c : Char) : (escape c).all isPrintable = true := by
  rcases escape_eq c with ⟨plain, -, -, noControl⟩ | ⟨code, coded, printable, -⟩
  · have printable : isPrintable c = true := decide_eq_true (Nat.le_of_not_lt noControl)
    rw [plain, List.all_cons, printable, List.all_nil, Bool.and_true]
  · rw [coded, List.all_cons, printable, Bool.and_true]
    rfl

theorem printable_quote (text : String) : (quote text).all isPrintable = true := by
  have escaped : (text.toList.flatMap escape).all isPrintable = true := by
    rw [List.all_flatMap, List.all_eq_true]
    intro c _
    exact printable_escape c
  rw [quote, List.cons_append, List.all_cons, List.all_append, escaped]
  rfl

theorem isPrintable_of_isNumeric {c : Char} (numeric : isNumeric c = true) :
    isPrintable c = true := by
  rw [isNumeric, Bool.or_eq_true] at numeric
  rcases numeric with digit | listed
  · have bound : 48 ≤ c.toNat := (Char.isDigit_iff_toNat.mp digit).1
    exact decide_eq_true (by omega)
  · have others : ['+', '-', '.', 'e', 'E'].all isPrintable = true := rfl
    exact List.all_eq_true.mp others c (List.contains_iff_mem.mp listed)

/-- Reads the tokens of a text in a state. -/
def readFrom (s : State) (cs : List Char) : Option State :=
  (tokens? cs).bind fun ts => ts.foldlM State.step? s

@[simp]
theorem readFrom_nil (s : State) : readFrom s [] = some s := by
  rw [readFrom, tokens?]
  rfl

section Tokens

variable {s : State} {c : Char} {cs rest : List Char}

/-- The first token is read in the given state, and the others in the state behind it. -/
theorem readFrom_cons {token : Token} {n : Nat} (isToken : classify? c cs = some (token, n))
    (blank : isBlank c = false) :
    readFrom s (c :: cs) = (s.step? token).bind (readFrom · (cs.drop n)) := by
  rw [readFrom, tokens?, blank, if_neg Bool.false_ne_true]
  simp only [isToken]
  cases later : tokens? (cs.drop n) with
  | none => cases step : s.step? token <;> simp [readFrom, later]
  | some ts => cases step : s.step? token <;> simp [readFrom, later, step]

theorem readFrom_mark (isMark : c ∈ marks) (rest : List Char) :
    readFrom s (c :: rest) = (s.step? (.mark c)).bind (readFrom · rest) := by
  have isToken : classify? c rest = some (.mark c, 0) := by
    rw [classify?, if_pos (List.contains_iff_mem.mpr isMark)]
  have noBlank : marks.all (isBlank · == false) = true := rfl
  exact readFrom_cons isToken (eq_of_beq (List.all_eq_true.mp noBlank c isMark))

/-- A quoted text is read as one token. -/
theorem readFrom_quote (text : String) (rest : List Char) :
    readFrom s (quote text ++ rest) = (s.step? (.string text)).bind (readFrom · rest) := by
  let body := text.toList.flatMap escape ++ ['"']
  have written : quote text ++ rest = '"' :: (body ++ rest) := rfl
  have read : unquote? (body ++ rest) = some (text.toList, rest) := by
    rw [List.append_assoc, List.singleton_append, unquote?_flatMap]
  have isToken : classify? '"' (body ++ rest) = some (.string text, body.length) := by
    rw [classify?, if_neg (by decide), if_pos rfl, read]
    simp only [Option.map_some, String.ofList_toList, List.length_append, Nat.add_sub_cancel]
  rw [written, readFrom_cons isToken rfl, List.drop_left]

theorem isBlank_of_number (first : c.isDigit = true ∨ c = '-') : isBlank c = false := by
  cases blank : isBlank c with
  | false => rfl
  | true =>
    simp only [isBlank, Bool.or_eq_true, beq_iff_eq] at blank
    revert first
    rcases blank with ((rfl | rfl) | rfl) | rfl <;> decide

/-- A digit or a minus begins a number. -/
theorem classify?_number (first : c.isDigit = true ∨ c = '-') (cs : List Char) :
    classify? c cs = (numberLength? (c :: cs)).map fun n =>
      (.atom (.number (String.ofList ((c :: cs).take n))), n - 1) := by
  have isFirst : (c.isDigit || c == '-') = true := by simpa using first
  have others : ('"' :: marks).all (fun d => !(d.isDigit || d == '-')) = true := rfl
  have other : c ∉ '"' :: marks := by
    intro member
    have neither := List.all_eq_true.mp others c member
    rw [isFirst] at neither
    cases neither
  rw [List.mem_cons, not_or] at other
  rw [classify?, if_neg (by simpa using other.2), if_neg other.1, if_pos isFirst]

/-- A number is read as one token if something behind it stops it. -/
theorem readFrom_number {literal : String} (isNumber : IsNumber literal) (stops : Stops rest) :
    readFrom s (literal.toList ++ rest) =
      (s.step? (.atom (.number literal))).bind (readFrom · rest) := by
  obtain ⟨c, cs, split, first⟩ := exists_first_of_numberLength? isNumber
  have size : literal.length = cs.length + 1 := by
    rw [← String.length_toList, split, List.length_cons]
  have length : numberLength? (c :: (cs ++ rest)) = some (cs.length + 1) := by
    rw [← List.cons_append, ← split, numberLength?_append _ stops, ← size]
    exact isNumber
  have isToken : classify? c (cs ++ rest) = some (.atom (.number literal), cs.length) := by
    rw [classify?_number first, length]
    simp [← split]
  rw [split, List.cons_append, readFrom_cons isToken (isBlank_of_number first), List.drop_left]

theorem readFrom_word {word : String} {document : Document} (isWord : (word, document) ∈ words)
    (rest : List Char) :
    readFrom s (word.toList ++ rest) = (s.step? (.atom document)).bind (readFrom · rest) := by
  simp only [words, List.mem_cons, List.not_mem_nil, or_false, Prod.mk.injEq] at isWord
  rcases isWord with ⟨rfl, rfl⟩ | ⟨rfl, rfl⟩ | ⟨rfl, rfl⟩
  · exact readFrom_cons (n := 3) rfl rfl
  · exact readFrom_cons (n := 3) rfl rfl
  · exact readFrom_cons (n := 4) rfl rfl

end Tokens

/-- A document that can be read where `depth` lists and tables are open. -/
inductive Readable : Nat → Document → Prop where
  | null {depth : Nat} : Readable depth .null
  | bool {depth : Nat} {value : Bool} : Readable depth (.bool value)
  | number {depth : Nat} {literal : String} (isNumber : IsNumber literal) :
      Readable depth (.number literal)
  | string {depth : Nat} {text : String} : Readable depth (.string text)
  | list {depth : Nat} {items : List Document} (shallow : depth < maxDepth)
      (each : ∀ item ∈ items, Readable (depth + 1) item) : Readable depth (.list items)
  | table {depth : Nat} {entries : List (String × Document)} (shallow : depth < maxDepth)
      (each : ∀ entry ∈ entries, Readable (depth + 1) entry.2) : Readable depth (.table entries)

namespace State

/-- The state awaits a value inside of these frames. -/
def Awaits (s : State) (stack : List Frame) : Prop :=
  ∀ token, token ≠ .mark ']' → s.step? token = start? stack token

theorem awaits_value (stack : List Frame) : (value stack).Awaits stack :=
  fun _ _ => rfl

theorem awaits_firstItem (stack : List Frame) : (firstItem stack).Awaits (.list [] :: stack) := by
  intro token unclosed
  rw [step?.eq_def]
  split <;> simp_all

section Awaits

variable {s : State} {stack : List Frame}

theorem Awaits.atom (awaits : s.Awaits stack) (document : Document) :
    s.step? (.atom document) = some (place document stack) :=
  awaits _ (by simp)

theorem Awaits.string (awaits : s.Awaits stack) (text : String) :
    s.step? (.string text) = some (place (.string text) stack) :=
  awaits _ (by simp)

theorem Awaits.list (awaits : s.Awaits stack) (shallow : stack.length < maxDepth) :
    s.step? (.mark '[') = some (firstItem stack) := by
  rw [awaits _ (by simp), start?, if_pos shallow]

theorem Awaits.table (awaits : s.Awaits stack) (shallow : stack.length < maxDepth) :
    s.step? (.mark '\x7b') = some (firstKey stack) := by
  rw [awaits _ (by simp), start?, if_pos shallow]

end Awaits

/-- The state awaits a key behind these entries. -/
def AwaitsKey (s : State) (entries : List (String × Document)) (stack : List Frame) : Prop :=
  ∀ text, s.step? (.string text) = some (colon entries text stack)

theorem awaitsKey_key (entries : List (String × Document)) (stack : List Frame) :
    (key entries stack).AwaitsKey entries stack :=
  fun _ => rfl

theorem awaitsKey_firstKey (stack : List Frame) : (firstKey stack).AwaitsKey [] stack :=
  fun _ => rfl

end State

/-- Wherever a value is awaited, the written document is read and put at its place. -/
def Reads (depth : Nat) (document : Document) : Prop :=
  ∀ (s : State) (stack : List Frame) (rest : List Char), s.Awaits stack → stack.length = depth →
    Stops rest → readFrom s (write document ++ rest) = readFrom (.place document stack) rest

theorem writeItems_cons_cons (item next : Document) (items : List Document) :
    writeItems (item :: next :: items) = write item ++ ',' :: writeItems (next :: items) := by
  rw [writeItems]
  exact List.cons_ne_nil next items

theorem writeEntries_cons_cons (entry next : String × Document)
    (entries : List (String × Document)) :
    writeEntries (entry :: next :: entries) =
      writeEntry entry ++ ',' :: writeEntries (next :: entries) := by
  rw [writeEntries]
  exact List.cons_ne_nil next entries

section Parts

variable {s : State} {stack : List Frame}

/-- The items of a list are read one by one and the list is put into its place. -/
theorem readFrom_items {item : Document} {items : List Document} {before : List Document}
    (each : ∀ i ∈ item :: items, Reads (stack.length + 1) i)
    (awaits : s.Awaits (.list before :: stack)) (rest : List Char) :
    readFrom s (writeItems (item :: items) ++ ']' :: rest) =
      readFrom (.place (.list (before.reverse ++ item :: items)) stack) rest := by
  -- the frame holds the items that were read, the last one first
  induction items generalizing s item before with
  | nil =>
    have here := each item List.mem_cons_self
    rw [writeItems, here s _ _ awaits rfl (stops_cons rfl), readFrom_mark (by decide), State.place,
      State.step?, Option.bind_some, List.reverse_cons]
  | cons next items ih =>
    obtain ⟨here, later⟩ := List.forall_mem_cons.mp each
    rw [writeItems_cons_cons, List.append_assoc, List.cons_append,
      here s _ _ awaits rfl (stops_cons rfl), readFrom_mark (by decide), State.place, State.step?,
      Option.bind_some, ih later (State.awaits_value _), List.reverse_cons, List.append_assoc,
      List.singleton_append]

theorem readFrom_entry {key : String} {document : Document} {before : List (String × Document)}
    {rest : List Char} (reads : Reads (stack.length + 1) document)
    (awaits : s.AwaitsKey before stack) (stops : Stops rest) :
    readFrom s (writeEntry (key, document) ++ rest) =
      readFrom (.afterEntry ((key, document) :: before) stack) rest := by
  rw [writeEntry, List.append_assoc, List.cons_append, readFrom_quote, awaits, Option.bind_some,
    readFrom_mark (by decide), State.step?, Option.bind_some,
    reads _ _ _ (State.awaits_value _) rfl stops, State.place]

/-- The entries of a table are read one by one and the table is put into its place. -/
theorem readFrom_entries {entry : String × Document} {entries before : List (String × Document)}
    (each : ∀ e ∈ entry :: entries, Reads (stack.length + 1) e.2)
    (awaits : s.AwaitsKey before stack) (rest : List Char) :
    readFrom s (writeEntries (entry :: entries) ++ '\x7d' :: rest) =
      readFrom (.place (.table (before.reverse ++ entry :: entries)) stack) rest := by
  induction entries generalizing s entry before with
  | nil =>
    have here := each entry List.mem_cons_self
    rw [writeEntries, readFrom_entry here awaits (stops_cons rfl), readFrom_mark (by decide),
      State.step?, Option.bind_some, List.reverse_cons]
  | cons next entries ih =>
    obtain ⟨here, later⟩ := List.forall_mem_cons.mp each
    rw [writeEntries_cons_cons, List.append_assoc, List.cons_append,
      readFrom_entry here awaits (stops_cons rfl), readFrom_mark (by decide), State.step?,
      Option.bind_some, ih later (State.awaitsKey_key _ _), List.reverse_cons, List.append_assoc,
      List.singleton_append]

end Parts

theorem reads_word {word : String} {document : Document} (isWord : (word, document) ∈ words)
    (written : write document = word.toList) (depth : Nat) : Reads depth document := by
  intro s stack rest awaits _ _
  rw [written, readFrom_word isWord, awaits.atom, Option.bind_some]

/-- Documents are read as they were written, wherever a value is awaited. -/
theorem Readable.reads {depth : Nat} {document : Document} (h : Readable depth document) :
    Reads depth document := by
  induction h with
  | null => exact reads_word (.head _) rfl _
  | @bool _ value =>
    cases value with
    | true => exact reads_word (.tail _ (.head _)) rfl _
    | false => exact reads_word (.tail _ (.tail _ (.head _))) rfl _
  | number isNumber =>
    intro s stack rest awaits _ stops
    rw [write, readFrom_number isNumber stops, awaits.atom, Option.bind_some]
  | string =>
    intro s stack rest awaits _ _
    rw [write, readFrom_quote, awaits.string, Option.bind_some]
  | @list depth items shallow _ ih =>
    intro s stack rest awaits isDepth _
    subst isDepth
    rw [write, List.cons_append, List.cons_append, List.append_assoc, readFrom_mark (by decide),
      awaits.list shallow, Option.bind_some, List.singleton_append]
    cases items with
    | nil =>
      rw [writeItems, List.nil_append, readFrom_mark (by decide), State.step?, Option.bind_some]
    | cons item items => exact readFrom_items ih (State.awaits_firstItem stack) rest
  | @table depth entries shallow _ ih =>
    intro s stack rest awaits isDepth _
    subst isDepth
    rw [write, List.cons_append, List.cons_append, List.append_assoc, readFrom_mark (by decide),
      awaits.table shallow, Option.bind_some, List.singleton_append]
    cases entries with
    | nil =>
      rw [writeEntries, List.nil_append, readFrom_mark (by decide), State.step?, Option.bind_some]
    | cons entry entries => exact readFrom_entries ih (State.awaitsKey_firstKey stack) rest

/-- A document that is written and read again is the same document. -/
theorem parse?_print {document : Document} (h : Readable 0 document) :
    parse? (print document) = some document := by
  have read := h.reads (.value []) [] [] (State.awaits_value []) rfl stops_nil
  rw [List.append_nil, readFrom_nil, readFrom] at read
  obtain ⟨ts, tokens, run⟩ := Option.bind_eq_some_iff.mp read
  rw [parse?, print, String.toList_ofList, tokens]
  simp only [Option.bind_eq_bind, Option.bind_some, run]
  rfl

theorem writeItems_eq (items : List Document) :
    writeItems items = [','].intercalate (items.map write) := by
  induction items with
  | nil => rw [writeItems, List.map_nil, List.intercalate_nil]
  | cons item items ih =>
    cases items with
    | nil => rw [writeItems, List.map_singleton, List.intercalate_singleton]
    | cons next items =>
      rw [writeItems_cons_cons, ih, List.map_cons (a := item),
        List.intercalate_cons_of_ne_nil (by simp), List.append_assoc, List.singleton_append]

theorem writeEntries_eq (entries : List (String × Document)) :
    writeEntries entries = [','].intercalate (entries.map writeEntry) := by
  induction entries with
  | nil => rw [writeEntries, List.map_nil, List.intercalate_nil]
  | cons entry entries ih =>
    cases entries with
    | nil => rw [writeEntries, List.map_singleton, List.intercalate_singleton]
    | cons next entries =>
      rw [writeEntries_cons_cons, ih, List.map_cons (a := entry),
        List.intercalate_cons_of_ne_nil (by simp), List.append_assoc, List.singleton_append]

/-- Parts without control characters stay so with commas between them. -/
theorem printable_intercalate {parts : List (List Char)}
    (each : ∀ part ∈ parts, part.all isPrintable = true) :
    ([','].intercalate parts).all isPrintable = true := by
  induction parts with
  | nil => rfl
  | cons part parts ih =>
    obtain ⟨here, later⟩ := List.forall_mem_cons.mp each
    cases parts with
    | nil =>
      rw [List.intercalate_singleton]
      exact here
    | cons next parts =>
      rw [List.intercalate_cons_cons, List.all_append, List.all_append, here, ih later]
      rfl

/-- A written document holds no control characters. -/
theorem Readable.printable {depth : Nat} {document : Document} (h : Readable depth document) :
    (write document).all isPrintable = true := by
  induction h with
  | null => rfl
  | @bool _ value => cases value <;> rfl
  | number isNumber =>
    rw [write, List.all_eq_true]
    intro c member
    exact isPrintable_of_isNumeric (isNumber.isNumeric c member)
  | string =>
    rw [write]
    exact printable_quote _
  | list _ _ ih =>
    have items := printable_intercalate (List.forall_mem_map.mpr ih)
    rw [write, List.cons_append, List.all_cons, List.all_append, writeItems_eq, items]
    rfl
  | @table _ entries _ _ ih =>
    have each : ∀ entry ∈ entries, (writeEntry entry).all isPrintable = true := by
      rintro ⟨key, value⟩ isEntry
      rw [writeEntry, List.all_append, List.all_cons, printable_quote, ih _ isEntry]
      rfl
    have written := printable_intercalate (List.forall_mem_map.mpr each)
    rw [write, List.cons_append, List.all_cons, List.all_append, writeEntries_eq, written]
    rfl

end SheetLint.Json
