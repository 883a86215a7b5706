import SheetLint.Config.Decode
import SheetLint.Config.Encode
import SheetLint.Proofs.JsonReading
import SheetLint.Proofs.Pairing

/-!
# Configurations written and read again

The rules of a configuration stand in the same table as its settings. The table that a configuration
is written to can be read again, to the same configuration, exactly if no rule stands under the key
of a setting. This holds of every configuration that was read, and overrides keep it
(`Config.parseJson_print`).
-/

namespace SheetLint

/-- A key above all others is put at the end. -/
theorem RuleTable.insertEntry_of_lt {key : String} {value : RuleValue}
    {es : List (String × RuleValue)} (below : ∀ e ∈ es, e.1 < key) :
    insertEntry key value es = es ++ [(key, value)] := by
  induction es with
  | nil => rfl
  | cons e es ih =>
    obtain ⟨here, later⟩ := List.forall_mem_cons.mp below
    have notBefore : ¬ key < e.1 := String.lt_asymm here
    have notSame : ¬ key = e.1 := by
      intro same
      rw [same] at here
      exact String.lt_irrefl _ here
    rw [insertEntry, if_neg notBefore, if_neg notSame, ih later, List.cons_append]

/-- What is said about a rule is read as it was written. -/
theorem RuleValue.ofDocument?_toDocument (value : RuleValue) :
    ofDocument? value.toDocument = some value := by
  cases value with
  | toggle enabled => rfl
  | settings s =>
    obtain ⟨enabled, severity, style⟩ := s
    cases enabled <;> cases severity <;> cases style <;>
      simp [toDocument, Settings.toDocument, ofDocument?, Settings.ofEntries?, Settings.field?,
        Document.optional?, Document.asBool?, Document.asString?, Severity.ofDocument?]

namespace Config

variable {c c' : Config}

theorem addRule?_toDocument (t : RuleTable) (key : String) (value : RuleValue) :
    addRule? t (key, value.toDocument) = some (t.insert key value) := by
  rw [addRule?, RuleValue.ofDocument?_toDocument]
  rfl

/-- Rules that come in the order of their keys are put one behind the other. -/
theorem foldlM_addRule? (t : RuleTable) (es : List (String × RuleValue))
    (sorted : (t.entries ++ es).Pairwise (·.1 < ·.1)) :
    (es.map fun e => (e.1, e.2.toDocument)).foldlM addRule? t = some ⟨t.entries ++ es, sorted⟩ := by
  induction es generalizing t with
  | nil => simp
  | cons e es ih =>
    have below : ∀ other ∈ t.entries, other.1 < e.1 := by
      intro other member
      exact (List.pairwise_append.mp sorted).2.2 other member e List.mem_cons_self
    have added : (t.insert e.1 e.2).entries = t.entries ++ [e] := RuleTable.insertEntry_of_lt below
    have sorted' : ((t.insert e.1 e.2).entries ++ es).Pairwise (·.1 < ·.1) := by
      rw [added, List.append_assoc]
      exact sorted
    rw [List.map_cons, List.foldlM_cons, addRule?_toDocument]
    refine (ih (t.insert e.1 e.2) sorted').trans ?_
    simp [added]

/-- The keys of a table come from the entries that were added to it. -/
theorem keys_of_foldlM_addRule? {entries : List (String × Document)} {t t' : RuleTable}
    (h : entries.foldlM addRule? t = some t') :
    ∀ key ∈ t'.keys, key ∈ t.keys ∨ key ∈ entries.map (·.1) := by
  induction entries generalizing t with
  | nil =>
    cases h
    intro key listed
    exact .inl listed
  | cons entry entries ih =>
    obtain ⟨next, added, later⟩ := Option.bind_eq_some_iff.mp h
    obtain ⟨value, -, made⟩ := Option.bind_eq_some_iff.mp added
    cases made
    intro key listed
    rw [List.map_cons, List.mem_cons]
    rcases ih later key listed with before | behind
    · obtain ⟨e, member, rfl⟩ := List.mem_map.mp before
      rcases RuleTable.mem_insertEntry member with rfl | old
      · exact .inr (.inl rfl)
      · exact .inl (List.mem_map_of_mem old)
    · exact .inr (.inr behind)

/-- No rule stands under the key of a setting. -/
def Apart (c : Config) : Prop :=
  ∀ key ∈ c.rules.keys, key ∉ reservedKeys

/-- A document puts no key of a setting among the rules. -/
theorem apart_of_ofDocument? {d : Document} (h : ofDocument? d = some c) : c.Apart := by
  cases d with
  | table entries =>
    obtain ⟨_, -, h⟩ := Option.bind_eq_some_iff.mp h
    obtain ⟨_, -, h⟩ := Option.bind_eq_some_iff.mp h
    obtain ⟨_, -, h⟩ := Option.bind_eq_some_iff.mp h
    obtain ⟨rules, added, made⟩ := Option.bind_eq_some_iff.mp h
    cases made
    intro key listed
    rcases keys_of_foldlM_addRule? added key listed with old | new
    · cases old
    · obtain ⟨entry, member, rfl⟩ := List.mem_map.mp new
      simpa using (List.mem_filter.mp member).2
  | _ => cases h

theorem asStrings?_list (items : List String) :
    (Document.list (items.map .string)).asStrings? = some items := by
  show (items.map Document.string).mapM Document.asString? = some items
  induction items with
  | nil => rfl
  | cons item items ih =>
    rw [List.map_cons, List.mapM_cons, ih]
    rfl

/-- The rules of a configuration, as they are written. -/
def writtenRules (c : Config) : List (String × Document) :=
  c.rules.entries.map fun e => (e.1, e.2.toDocument)

/-- The settings of the run, as they are written. -/
def writtenSettings (c : Config) : List (String × Document) :=
  [("excluded_files", .list (c.excludedFiles.map .string)),
   ("file_extensions", .list (c.fileExtensions.map .string)),
   ("linters", .list (c.linters.map .string))]

theorem toDocument_eq (c : Config) : c.toDocument = .table (c.writtenSettings ++ c.writtenRules) :=
  rfl

theorem Apart.not_reserved (apart : c.Apart) :
    ∀ entry ∈ c.writtenRules, entry.1 ∉ reservedKeys := by
  intro entry member
  obtain ⟨e, listed, rfl⟩ := List.mem_map.mp member
  exact apart e.1 (List.mem_map_of_mem listed)

/-- The words under a key are found among the settings alone. -/
theorem Apart.words? (apart : c.Apart) {keys items : List String} {key : String}
    (fallback : List String) (reserved : keys ⊆ reservedKeys)
    (here : c.writtenSettings.filter (keys.contains ·.1) =
      [(key, .list (items.map .string))]) :
    words? (c.writtenSettings ++ c.writtenRules) keys fallback = some items := by
  have elsewhere : c.writtenRules.filter (keys.contains ·.1) = [] := by
    rw [List.filter_eq_nil_iff]
    intro entry member listed
    exact apart.not_reserved entry member (reserved (List.contains_iff_mem.mp listed))
  rw [Config.words?, List.filter_append, here, elsewhere]
  exact asStrings?_list items

/-- The rules are what is left without the settings. -/
theorem Apart.filter_rules (apart : c.Apart) :
    (c.writtenSettings ++ c.writtenRules).filter (!reservedKeys.contains ·.1) = c.writtenRules := by
  have settings : c.writtenSettings.filter (!reservedKeys.contains ·.1) = [] := rfl
  rw [List.filter_append, settings, List.nil_append, List.filter_eq_self]
  intro entry member
  simpa using apart.not_reserved entry member

/-- A configuration is read from the table it is written to. -/
theorem Apart.ofDocument?_toDocument (apart : c.Apart) : ofDocument? c.toDocument = some c := by
  have excluded : Config.words? (c.writtenSettings ++ c.writtenRules) excludedKeys
      default.excludedFiles = some c.excludedFiles := apart.words? _ (by decide) rfl
  have extensions : Config.words? (c.writtenSettings ++ c.writtenRules) extensionKeys
      default.fileExtensions = some c.fileExtensions := apart.words? _ (by decide) rfl
  have linters : Config.words? (c.writtenSettings ++ c.writtenRules) linterKeys
      default.linters = some c.linters := apart.words? _ (by decide) rfl
  have rules : c.writtenRules.foldlM addRule? .empty = some c.rules :=
    foldlM_addRule? .empty c.rules.entries c.rules.sorted
  rw [toDocument_eq, ofDocument?, excluded, extensions, linters, apart.filter_rules, rules]
  rfl

/-- Words are not found where a rule stands under one of their keys, beside the setting. -/
theorem words?_eq_none {keys : List String} (fallback : List String) {key : String}
    (listed : key ∈ c.rules.keys) (taken : key ∈ keys)
    (setting : c.writtenSettings.filter (keys.contains ·.1) ≠ []) :
    words? (c.writtenSettings ++ c.writtenRules) keys fallback = none := by
  obtain ⟨entry, member, rfl⟩ := List.mem_map.mp listed
  have rule : (entry.1, entry.2.toDocument) ∈ c.writtenRules.filter (keys.contains ·.1) :=
    List.mem_filter.mpr ⟨List.mem_map_of_mem member, List.contains_iff_mem.mpr taken⟩
  obtain ⟨first, others, settings⟩ := List.exists_cons_of_ne_nil setting
  obtain ⟨next, rest, rules⟩ := List.exists_cons_of_ne_nil (List.ne_nil_of_mem rule)
  rw [words?, List.filter_append, settings, rules]
  cases others <;> rfl

/-- Rules and settings are apart if a configuration can be read from the table it is written to. -/
theorem apart_of_ofDocument?_toDocument (h : ofDocument? c.toDocument = some c') : c.Apart := by
  rw [toDocument_eq] at h
  obtain ⟨_, excluded, h⟩ := Option.bind_eq_some_iff.mp h
  obtain ⟨_, extensions, h⟩ := Option.bind_eq_some_iff.mp h
  obtain ⟨_, linters, -⟩ := Option.bind_eq_some_iff.mp h
  intro key listed reserved
  rw [reservedKeys, List.mem_append, List.mem_append] at reserved
  rcases reserved with (taken | taken) | taken
  · rw [words?_eq_none _ listed taken (List.cons_ne_nil _ _)] at excluded
    cases excluded
  · rw [words?_eq_none _ listed taken (List.cons_ne_nil _ _)] at extensions
    cases extensions
  · rw [words?_eq_none _ listed taken (List.cons_ne_nil _ _)] at linters
    cases linters

/-- The settings of a rule are written to something that can be read one level deeper. -/
theorem readable_settings {depth : Nat} (shallow : depth < Json.maxDepth) (s : Settings) :
    Json.Readable depth s.toDocument := by
  obtain ⟨enabled, severity, style⟩ := s
  refine .table shallow ?_
  simp only [List.forall_mem_append]
  refine ⟨⟨?_, ?_⟩, ?_⟩
  · cases enabled with
    | none => simp
    | some value => simpa using .bool
  · cases severity with
    | none => simp
    | some value => simpa using .string
  · cases style with
    | none => simp
    | some value => simpa using .string

theorem readable_words {depth : Nat} (shallow : depth < Json.maxDepth) (items : List String) :
    Json.Readable depth (.list (items.map .string)) := by
  refine .list shallow ?_
  intro item member
  obtain ⟨text, -, rfl⟩ := List.mem_map.mp member
  exact .string

/-- A configuration is two levels deep, and no part of it is a number. -/
theorem readable_toDocument (c : Config) : Json.Readable 0 c.toDocument := by
  rw [toDocument_eq]
  refine .table (by decide) ?_
  rw [List.forall_mem_append]
  constructor
  · simp only [writtenSettings, List.forall_mem_cons]
    exact ⟨readable_words (by decide) _, readable_words (by decide) _,
      readable_words (by decide) _, by simp⟩
  · intro entry member
    obtain ⟨⟨key, value⟩, -, rfl⟩ := List.mem_map.mp member
    cases value with
    | toggle enabled => exact .bool
    | settings s => exact readable_settings (by decide) s

/-- A check passes a configuration on as it is, if it is valid. -/
theorem checked_eq_ok : c.checked = .ok c' ↔ c.validate = .ok () ∧ c = c' := by
  constructor
  · intro h
    obtain ⟨_, valid, made⟩ := bind_eq_ok.mp h
    cases made
    exact ⟨valid, rfl⟩
  · intro ⟨valid, same⟩
    rw [checked, valid, same]
    rfl

/-- What is read from a document is valid and keeps rules and settings apart. -/
theorem valid_apart_of_decoded {d : Option Document} {e : ConfigError}
    (h : (match d >>= ofDocument? with
      | some c => c.checked
      | none => .error e) = .ok c) : c.validate = .ok () ∧ c.Apart := by
  cases decoded : d >>= ofDocument? with
  | none =>
    rw [decoded] at h
    cases h
  | some made =>
    rw [decoded] at h
    obtain ⟨valid, rfl⟩ := checked_eq_ok.mp h
    obtain ⟨_, -, here⟩ := Option.bind_eq_some_iff.mp decoded
    exact ⟨valid, apart_of_ofDocument? here⟩

/-- With overrides, the rules stay and all is validated anew. -/
theorem of_withOverrides {exclude linters : List String}
    (h : c.withOverrides exclude linters = .ok c') :
    c'.validate = .ok () ∧ c'.rules = c.rules := by
  obtain ⟨_, valid, made⟩ := bind_eq_ok.mp h
  cases made
  exact ⟨valid, rfl⟩

/-- Overrides keep rules and settings apart, and do not set them apart. -/
theorem apart_withOverrides_iff {exclude linters : List String}
    (h : c.withOverrides exclude linters = .ok c') : c'.Apart ↔ c.Apart := by
  rw [Apart, Apart, (of_withOverrides h).2]

/-- The configurations that are read, or made of others by overrides. -/
inductive Returned : Config → Prop
  | toml {text : String} {c : Config} (read : parseToml text = .ok c) : Returned c
  | json {text : String} {c : Config} (read : parseJson text = .ok c) : Returned c
  | overrides {c c' : Config} {exclude linters : List String}
      (made : c.withOverrides exclude linters = .ok c') : Returned c'

theorem Returned.validate_eq_ok (h : Returned c) : c.validate = .ok () := by
  cases h with
  | toml read => exact (valid_apart_of_decoded read).1
  | json read => exact (valid_apart_of_decoded read).1
  | overrides made => exact (of_withOverrides made).1

/-- The rules of a valid configuration have names. -/
theorem isValid_of_validate (h : c.validate = .ok ()) :
    ∀ key ∈ c.rules.keys, RuleName.isValid key = true := by
  obtain ⟨_, -, h⟩ := bind_eq_ok.mp h
  obtain ⟨_, -, keys⟩ := bind_eq_ok.mp h
  intro key listed
  have checked : checkRuleKey key = .ok () := forM_eq_ok keys key listed
  unfold checkRuleKey at checked
  split at checked
  · assumption
  · cases checked

/-- A valid configuration is read again exactly if its rules and settings are apart. -/
theorem parseJson_print_eq_ok_iff (valid : c.validate = .ok ()) :
    parseJson (Json.print c.toDocument) = .ok c ↔ c.Apart := by
  have decoded : Json.parse? (Json.print c.toDocument) >>= ofDocument? =
      ofDocument? c.toDocument := by
    rw [Json.parse?_print c.readable_toDocument]
    rfl
  rw [parseJson, decoded]
  constructor
  · intro read
    cases here : ofDocument? c.toDocument with
    | none =>
      rw [here] at read
      cases read
    | some other => exact apart_of_ofDocument?_toDocument here
  · intro apart
    rw [apart.ofDocument?_toDocument]
    exact checked_eq_ok.mpr ⟨valid, rfl⟩

/-- The keys of all settings in both spellings. -/
def settingKeys : List String :=
  ["excluded_files", "excludedFiles", "file_extensions", "fileExtensions", "linters"]

/-- The rules of every configuration that is returned have names. Reading what it is written to
    gives the same configuration exactly if no rule has the key of a setting. This holds of every
    configuration that was read from a text, and of one made by overrides exactly if it holds of the
    configuration that was overridden. -/
theorem parseJson_print :
    (∀ c, Returned c →
      (∀ key ∈ c.rules.keys, RuleName.isValid key = true) ∧
      (parseJson (Json.print c.toDocument) = .ok c ↔ ∀ key ∈ c.rules.keys, key ∉ settingKeys)) ∧
    (∀ text c, parseToml text = .ok c ∨ parseJson text = .ok c →
      ∀ key ∈ c.rules.keys, key ∉ settingKeys) ∧
    (∀ (base : Config) (exclude linters : List String) (c : Config),
      base.withOverrides exclude linters = .ok c →
      ((∀ key ∈ c.rules.keys, key ∉ settingKeys) ↔
        ∀ key ∈ base.rules.keys, key ∉ settingKeys)) := by
  refine ⟨?_, ?_, ?_⟩
  · intro c returned
    have valid := returned.validate_eq_ok
    exact ⟨isValid_of_validate valid, parseJson_print_eq_ok_iff valid⟩
  · intro text c read
    rcases read with toml | json
    · exact (valid_apart_of_decoded toml).2
    · exact (valid_apart_of_decoded json).2
  · intro base exclude linters c made
    exact apart_withOverrides_iff made

/-- An empty table, an empty list in the place of the default and a control character are kept. -/
theorem parseJson_print_overridden :
    let text := "fileExtensions = []\nimportPath = \x7b\x7d\nlinter = true\n" ++
      "[attribute-quotes]\nseverity = \"error\"\nstyle = \"\\u0001\"\n"
    ∃ c, (parseToml text >>= (·.withOverrides ["a*"] ["say \"b\""])) = .ok c ∧
      (c.excludedFiles, c.fileExtensions, c.linters, c.rules.entries) =
        (["a*"], [], ["say \"b\""],
          [("attribute-quotes", .settings ⟨none, some .error, some "\x01"⟩),
           ("importPath", .settings ⟨none, none, none⟩), ("linter", .toggle true)]) ∧
      (∀ key ∈ c.rules.keys, RuleName.isValid key = true) ∧
      parseJson (Json.print c.toDocument) = .ok c := by
  intro text
  have computed : (parseToml text >>= (·.withOverrides ["a*"] ["say \"b\""])).toOption.map
      (fun c => (c.excludedFiles, c.fileExtensions, c.linters, c.rules.entries)) =
        some (["a*"], [], ["say \"b\""],
          [("attribute-quotes", .settings ⟨none, some .error, some "\x01"⟩),
           ("importPath", .settings ⟨none, none, none⟩), ("linter", .toggle true)]) := by
    decide +kernel
  apply exists_ok_of_map_toOption computed
  intro c read
  obtain ⟨base, toml, made⟩ := bind_eq_ok.mp read
  obtain ⟨ofReturned, ofText, ofOverrides⟩ := parseJson_print
  obtain ⟨names, again⟩ := ofReturned c (.overrides made)
  exact ⟨names, again.mpr ((ofOverrides base _ _ c made).mpr (ofText text base (.inl toml)))⟩

/-- A configuration with a rule called linters. The name is valid, so overrides accept it, and it
    is written to a table in which that key stands twice and that cannot be read. -/
theorem not_parseJson_print_linters :
    let base : Config := { default with rules := RuleTable.empty.insert "linters" (.toggle true) }
    base.withOverrides [] [] = .ok base ∧
    base.rules.keys = ["linters"] ∧
    Json.print base.toDocument = "\x7b\"excluded_files\":[],\"file_extensions\":[\".less\"]," ++
      "\"linters\":[],\"linters\":true\x7d" ∧
    parseJson (Json.print base.toDocument) = .error .illFormedJson := by
  decide +kernel

end Config

end SheetLint
